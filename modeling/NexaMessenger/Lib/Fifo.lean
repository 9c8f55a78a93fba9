import NexaMessenger.Lib.Machine

namespace Lib

/-!
# Queues — first in, first out, and no more than so many

The purpose of a bounded queue, as a machine on lists: an item is taken in at the end while there is
room, and handed out at the front.  `fifo_run` is what its users rely on: what was handed out,
followed by what is still there, is what was taken in.
-/

variable {α : Type}

inductive FifoOp (α : Type)
  | push (item : α)
  | pop
deriving DecidableEq

inductive FifoAnswer (α : Type)
  | pushed (taken : Bool)
  | popped (item : Option α)
deriving DecidableEq

/-- A queue with room for `limit` items. -/
def fifoStep (limit : Nat) (queue : List α) : FifoOp α → FifoAnswer α × List α
  | .push item =>
    if queue.length < limit then (.pushed true, queue ++ [item]) else (.pushed false, queue)
  | .pop => (.popped queue.head?, queue.tail)

/-- The items that a history takes in. -/
def taken (log : List (FifoOp α × FifoAnswer α)) : List α :=
  log.filterMap fun
    | (.push item, .pushed true) => some item
    | _ => none

/-- The items that a history hands out. -/
def handedOut (log : List (FifoOp α × FifoAnswer α)) : List α :=
  log.filterMap fun
    | (_, .popped item) => item
    | _ => none

theorem taken_concat (log : List (FifoOp α × FifoAnswer α)) (entry : FifoOp α × FifoAnswer α) :
    taken (log ++ [entry]) = taken log ++ taken [entry] := List.filterMap_append

theorem handedOut_concat (log : List (FifoOp α × FifoAnswer α))
    (entry : FifoOp α × FifoAnswer α) :
    handedOut (log ++ [entry]) = handedOut log ++ handedOut [entry] := List.filterMap_append

/-- One step. -/
theorem fifo_step (limit : Nat) (queue : List α) (op : FifoOp α) :
    handedOut [(op, (fifoStep limit queue op).1)] ++ (fifoStep limit queue op).2 =
        queue ++ taken [(op, (fifoStep limit queue op).1)] ∧
      (queue.length ≤ limit → (fifoStep limit queue op).2.length ≤ limit) := by
  cases op with
  | push item =>
    by_cases hroom : queue.length < limit
    · have hstep : fifoStep limit queue (.push item) = (.pushed true, queue ++ [item]) :=
        if_pos hroom
      rw [hstep]
      refine ⟨rfl, fun _ => ?_⟩
      rw [List.length_append, List.length_singleton]
      exact hroom
    · have hstep : fifoStep limit queue (.push item) = (.pushed false, queue) := if_neg hroom
      rw [hstep]
      exact ⟨(List.append_nil queue).symm, id⟩
  | pop =>
    cases queue with
    | nil => exact ⟨rfl, id⟩
    | cons item rest => exact ⟨(List.append_nil _).symm, fun h => (Nat.le_succ _).trans h⟩

/-- **First in, first out.** -/
theorem fifo_run (limit : Nat) (ops : List (FifoOp α)) :
    let log := trace (fifoStep limit) [] ops
    let queue := after (fifoStep limit) [] ops
    taken log = handedOut log ++ queue ∧ queue.length ≤ limit := by
  refine history_invariant_of_step (R := fun log queue =>
    taken log = handedOut log ++ queue ∧ queue.length ≤ limit) ⟨rfl, Nat.zero_le _⟩ ?_ ops
  intro log queue op ⟨hlog, hlimit⟩
  obtain ⟨hstep, hroom⟩ := fifo_step limit queue op
  refine ⟨?_, hroom hlimit⟩
  rw [taken_concat, handedOut_concat, hlog, List.append_assoc, List.append_assoc, hstep]

end Lib
