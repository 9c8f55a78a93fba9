import Mathlib.Data.List.Basic

namespace Lib

/-!
# Mailboxes — what a store-and-forward service owes its readers

The purpose of a message store, without queues, counters or limits: a log of what happened
(an item was accepted into a box until some expiry, an id was acknowledged in a box), and
`live`, the items a reader of a box is owed at some time.  An implementation is right when
each read returns `live` of the log of what happened before it.
-/

variable {β κ μ τ : Type}

/-- An event of a mailbox service with boxes `β`, item ids `κ`, items `μ` and times `τ`. -/
inductive MailEvent (β κ μ τ : Type)
  | accepted (box : β) (item : μ) (expiry : τ)
  | acked (box : β) (id : κ)

/-- The box that an event is about. -/
def MailEvent.box : MailEvent β κ μ τ → β
  | .accepted box _ _ => box
  | .acked box _ => box

@[simp] theorem MailEvent.box_accepted (box : β) (item : μ) (expiry : τ) :
    (accepted box item expiry : MailEvent β κ μ τ).box = box := rfl

@[simp] theorem MailEvent.box_acked (box : β) (id : κ) :
    (acked box id : MailEvent β κ μ τ).box = box := rfl

variable [DecidableEq β] [DecidableEq κ]

/-- Some event of the log acknowledges `id` in `box`. -/
def ackedIn (box : β) (id : κ) (log : List (MailEvent β κ μ τ)) : Bool :=
  log.any fun
    | .accepted _ _ _ => false
    | .acked b k => b = box && k = id

/-- Only the events of a box acknowledge in it. -/
theorem ackedIn_filter (box : β) (id : κ) (log : List (MailEvent β κ μ τ)) :
    ackedIn box id (log.filter fun e => e.box = box) = ackedIn box id log := by
  rw [ackedIn, List.any_filter]
  refine List.any_congr rfl fun e => ?_
  cases e with
  | accepted b item expiry => simp
  | acked b k => by_cases hb : b = box <;> simp [hb]

variable [LT τ] [DecidableLT τ]

/-- The items owed to a reader of `box` at time `now`, in the order of their acceptance: those
    accepted into the box, not expired, and not acknowledged after their acceptance. -/
def live (idOf : μ → κ) (box : β) (now : τ) : List (MailEvent β κ μ τ) → List μ
  | [] => []
  | .accepted b item expiry :: later =>
    if b = box ∧ now < expiry ∧ ackedIn box (idOf item) later = false then
      item :: live idOf box now later
    else live idOf box now later
  | .acked _ _ :: later => live idOf box now later

/-- An acceptance at the end of the log adds its item, if it is in the box and unexpired. -/
theorem live_concat_accepted (idOf : μ → κ) (box b : β) (now expiry : τ) (item : μ)
    (log : List (MailEvent β κ μ τ)) :
    live idOf box now (log ++ [.accepted b item expiry]) =
      live idOf box now log ++ if b = box ∧ now < expiry then [item] else [] := by
  induction log with
  | nil => simp [live, ackedIn]
  | cons e log ih =>
    cases e with
    | accepted b' item' expiry' =>
      -- a later acceptance acknowledges nothing
      have hack : ackedIn box (idOf item') (log ++ [.accepted b item expiry]) =
          ackedIn box (idOf item') log := by
        simp [ackedIn]
      simp only [List.cons_append, live, hack, ih]
      split <;> simp
    | acked b' k => simpa [live] using ih

/-- An acknowledgement at the end of the log takes the id out of its box. -/
theorem live_concat_acked (idOf : μ → κ) (box b : β) (now : τ) (id : κ)
    (log : List (MailEvent β κ μ τ)) :
    live idOf box now (log ++ [.acked b id]) =
      if b = box then (live idOf box now log).filter (fun item => idOf item ≠ id)
      else live idOf box now log := by
  induction log with
  | nil => simp [live]
  | cons e log ih =>
    cases e with
    | acked b' k => simpa [live] using ih
    | accepted b' item' expiry' =>
      have hack : ackedIn box (idOf item') (log ++ [MailEvent.acked b id]) =
          (ackedIn box (idOf item') log || (b = box && id = idOf item')) := by
        simp [ackedIn]
      simp only [List.cons_append, live, hack, ih]
      -- the item leaves if the acknowledgement is in its box and under its id
      by_cases hb : b = box
      · by_cases hid : idOf item' = id
        · have hgone : (ackedIn box (idOf item') log ||
              (decide (b = box) && decide (id = idOf item'))) = true := by simp [hb, hid]
          rw [hgone, if_neg (by simp), if_pos hb, if_pos hb]
          split <;> simp [hid]
        · have hid' : id ≠ idOf item' := fun h => hid h.symm
          simp only [hb, hid', if_true, decide_true, decide_false, Bool.and_false, Bool.or_false]
          split <;> simp [hid]
      · simp [hb]

/-- What a reader is owed is settled by the events of its own box. -/
theorem live_filter (idOf : μ → κ) (box : β) (now : τ) (log : List (MailEvent β κ μ τ)) :
    live idOf box now (log.filter fun e => e.box = box) = live idOf box now log := by
  induction log with
  | nil => rfl
  | cons e log ih =>
    cases e with
    | accepted b item expiry =>
      by_cases hb : b = box <;> simp [live, ackedIn_filter, ih, hb]
    | acked b k => by_cases hb : b = box <;> simp [live, ih, hb]

end Lib
