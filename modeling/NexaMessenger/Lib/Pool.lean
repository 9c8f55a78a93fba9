import Mathlib.Data.List.Basic

namespace Lib

/-!
# Pools — items that are put in once and taken out once

A pool has slots that hold one item each at most.  Its log says which item was put into a slot or
taken from it.  `Conserved` is the account of a pool: in each slot the items put in are, in their
order, those taken out and then the one present.  So the items taken from a slot are the first
ones put into it, each taken by one event, and what was put in is either taken or present.
-/

variable {κ ι : Type}

/-- An event of a pool with slots `κ` and items `ι`. -/
inductive PoolEvent (κ ι : Type)
  | put (slot : κ) (item : ι)
  | taken (slot : κ) (item : ι)

variable [DecidableEq κ]

/-- The items put into a slot, in order. -/
def putIn (slot : κ) (log : List (PoolEvent κ ι)) : List ι :=
  log.filterMap fun
    | .put k item => if k = slot then some item else none
    | .taken _ _ => none

/-- The items taken from a slot, in order. -/
def takenFrom (slot : κ) (log : List (PoolEvent κ ι)) : List ι :=
  log.filterMap fun
    | .put _ _ => none
    | .taken k item => if k = slot then some item else none

/-- What was put into a slot is what was taken from it, and then what is present. -/
def Conserved (log : List (PoolEvent κ ι)) (present : κ → Option ι) : Prop :=
  ∀ slot, putIn slot log = takenFrom slot log ++ (present slot).toList

theorem Conserved.empty : Conserved ([] : List (PoolEvent κ ι)) fun _ => none := fun _ => rfl

/-- Putting an item into an empty slot. -/
theorem Conserved.put {log : List (PoolEvent κ ι)} {present : κ → Option ι}
    (h : Conserved log present) {slot : κ} (hfree : present slot = none) (item : ι) :
    Conserved (log ++ [.put slot item]) fun k => if k = slot then some item else present k := by
  intro k
  have hk := h k
  simp only [putIn, takenFrom, List.filterMap_append] at hk ⊢
  rw [hk]
  by_cases hslot : k = slot
  · subst hslot
    simp [hfree]
  · simp [hslot, Ne.symm hslot]

/-- Taking the item of a slot. -/
theorem Conserved.take {log : List (PoolEvent κ ι)} {present : κ → Option ι}
    (h : Conserved log present) {slot : κ} {item : ι} (hitem : present slot = some item) :
    Conserved (log ++ [.taken slot item]) fun k => if k = slot then none else present k := by
  intro k
  have hk := h k
  simp only [putIn, takenFrom, List.filterMap_append] at hk ⊢
  rw [hk]
  by_cases hslot : k = slot
  · subst hslot
    simp [hitem]
  · simp [hslot, Ne.symm hslot]

end Lib
