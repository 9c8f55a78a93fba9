import NexaMessenger.Lib.Fifo
import NexaMessenger.Transport

namespace NexaMessenger.Transport

open Lib

/-!
# Outbound — the queue of frames to send

`OutboundQueue` holds frames until somebody takes them and writes them to the wire.  It is a bounded
queue, with room for the capacity it was made with but never more than `MAX_QUEUE`
(`OutboundQueue.step_refines`).  With the codec this gives what a peer gets: the frames that were
taken in, in their order, but for those that do not validate, which cannot be written
(`peer_reads_what_was_pushed`).
-/

/-- `MAX_QUEUE`. -/
def maxQueue : Nat := 1024

inductive QueueError
  | full
deriving DecidableEq, Repr

structure OutboundQueue where
  inner : List Frame
  capacity : Nat
deriving DecidableEq, Repr

namespace OutboundQueue

/-- `OutboundQueue::new`. -/
def new (capacity : Nat) : OutboundQueue := ⟨[], min capacity maxQueue⟩

/-- `OutboundQueue::push`. -/
def push (q : OutboundQueue) (frame : Frame) : Except QueueError Unit × OutboundQueue :=
  if q.capacity ≤ q.inner.length then (.error .full, q)
  else (.ok (), { q with inner := q.inner ++ [frame] })

/-- `OutboundQueue::pop`. -/
def pop (q : OutboundQueue) : Option Frame × OutboundQueue :=
  match q.inner with
  | [] => (none, q)
  | frame :: rest => (some frame, { q with inner := rest })

/-- `OutboundQueue::len`. -/
def len (q : OutboundQueue) : Nat := q.inner.length

/-- `OutboundQueue::is_empty`. -/
def isEmpty (q : OutboundQueue) : Bool := q.inner.isEmpty

/-- The queue as a machine, with the answers of a bounded queue. -/
def step (q : OutboundQueue) : FifoOp Frame → FifoAnswer Frame × OutboundQueue
  | .push frame => ((.pushed (q.push frame).1.isOk), (q.push frame).2)
  | .pop => (.popped q.pop.1, q.pop.2)

/-- **Step.** The queue answers and moves as the bounded queue of its capacity. -/
theorem step_refines (q : OutboundQueue) (op : FifoOp Frame) :
    (q.step op).1 = (fifoStep q.capacity q.inner op).1 ∧
      (q.step op).2 = ⟨(fifoStep q.capacity q.inner op).2, q.capacity⟩ := by
  obtain ⟨inner, capacity⟩ := q
  cases op with
  | push frame =>
    by_cases hfull : capacity ≤ inner.length
    · simp [step, push, fifoStep, hfull, not_lt.mpr hfull, Except.isOk, Except.toBool]
    · simp [step, push, fifoStep, hfull, not_le.mp hfull, Except.isOk, Except.toBool]
  | pop => cases inner <;> exact ⟨rfl, rfl⟩

/-- **Run.** -/
theorem run_refines (capacity : Nat) (ops : List (FifoOp Frame)) :
    trace step (new capacity) ops = trace (fifoStep (min capacity maxQueue)) [] ops ∧
      after step (new capacity) ops =
        ⟨after (fifoStep (min capacity maxQueue)) [] ops, min capacity maxQueue⟩ := by
  induction ops using List.reverseRecOn with
  | nil => exact ⟨rfl, rfl⟩
  | append_singleton ops op ih =>
    obtain ⟨htrace, hafter⟩ := ih
    obtain ⟨hanswer, hnext⟩ := step_refines (after step (new capacity) ops) op
    rw [trace_concat, trace_concat, after_concat, after_concat, hanswer, hnext, htrace, hafter]
    exact ⟨rfl, rfl⟩

end OutboundQueue

/-- A frame on its way: it is written to the wire, and the peer reads it. -/
def transmit (frame : Frame) : Option Frame := do
  let bytes ← frame.toBytes.toOption
  (Frame.fromBytes bytes).toOption

theorem transmit_eq (frame : Frame) :
    transmit frame = if frame.validate = .ok () then some frame else none := by
  unfold transmit
  split
  · rename_i hvalid
    have hbytes := Frame.toBytes_eq_ok_iff.mpr ⟨Frame.validate_eq_ok_iff.mp hvalid, rfl⟩
    rw [hbytes]
    show (Frame.fromBytes frame.write).toOption = _
    rw [Frame.fromBytes_eq_ok_iff.mpr ⟨hvalid, hbytes⟩]
    rfl
  · rename_i hinvalid
    cases hbytes : frame.toBytes with
    | error e => rfl
    | ok bytes =>
      exact absurd (Frame.validate_eq_ok_iff.mpr (Frame.toBytes_eq_ok_iff.mp hbytes).1) hinvalid

theorem filterMap_transmit (frames : List Frame) :
    frames.filterMap transmit = frames.filter (fun frame => frame.validate = .ok ()) := by
  rw [← List.filterMap_eq_filter]
  congr 1
  ext frame
  rw [transmit_eq]
  simp [Option.guard]

/-- **A peer reads what was pushed.**  In every run of a queue, what the peer reads of the frames
    that were popped and written to the wire is what was pushed, in that order and each frame once,
    as far as it validates and was popped; the rest waits in the queue.  A push is refused exactly
    while `capacity` or `MAX_QUEUE` frames wait, and a pop finds nothing exactly when none does. -/
theorem peer_reads_what_was_pushed (capacity : Nat) (ops : List (FifoOp Frame)) :
    let log := trace OutboundQueue.step (OutboundQueue.new capacity) ops
    let q := after OutboundQueue.step (OutboundQueue.new capacity) ops
    (handedOut log).filterMap transmit ++ q.inner.filterMap transmit =
        (taken log).filter (fun frame => frame.validate = .ok ()) ∧
      (taken log).length = (handedOut log).length + q.len ∧ q.len ≤ min capacity maxQueue ∧
      (∀ frame, (q.push frame).1 = .error .full ↔
        (taken log).length = (handedOut log).length + min capacity maxQueue) ∧
      (q.pop.1 = none ↔ taken log = handedOut log) ∧ (q.isEmpty ↔ taken log = handedOut log) := by
  intro log q
  obtain ⟨htrace, hafter⟩ := OutboundQueue.run_refines capacity ops
  obtain ⟨htaken, hlimit⟩ := fifo_run (min capacity maxQueue) ops
  rw [← htrace] at htaken
  generalize after (fifoStep (min capacity maxQueue)) [] ops = queue at htaken hlimit hafter
  have hq : q = ⟨queue, min capacity maxQueue⟩ := hafter
  have htaken : taken log = handedOut log ++ queue := htaken
  refine ⟨?_, ?_, ?_, fun frame => ?_, ?_, ?_⟩
  · rw [hq, htaken, ← List.filterMap_append, filterMap_transmit]
  · rw [hq, htaken, List.length_append]
    rfl
  · rw [hq]
    exact hlimit
  · rw [hq, htaken, List.length_append, OutboundQueue.push]
    dsimp only
    split
    · rename_i hfull
      exact iff_of_true rfl (by omega)
    · rename_i hroom
      exact iff_of_false (by simp) (by omega)
  · rw [hq, htaken]
    cases queue with
    | nil => simp [OutboundQueue.pop]
    | cons frame rest => simp [OutboundQueue.pop]
  · rw [hq, htaken, List.append_right_eq_self]
    exact List.isEmpty_iff

end NexaMessenger.Transport
