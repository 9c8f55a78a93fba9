import Mathlib.Order.Interval.Finset.Nat

namespace Lib

/-!
# Windows — numbered items accepted once, in any order

The purpose of a receive state, without keys: the items are numbered, `next` is the number
after the highest accepted so far, and `missing` holds the numbers below it that are still
to come.  `accept` takes one number, at most `limit` ahead of `next`.

* `Spent` — the numbers that can never be accepted again.  An accepted number is spent, spent
  numbers stay spent, and `spent_accept_iff` says that nothing else becomes spent: replay
  protection needs no list of what was accepted.
* `card_accept` — how many numbers are missing after an acceptance.
-/

/-- A receive window: the invariant that missing numbers are below `next` is a field. -/
@[ext] structure Window where
  next : Nat
  missing : Finset Nat
  below : ∀ c ∈ missing, c < next

namespace Window

/-- Nothing accepted, nothing missing. -/
def start : Window := ⟨0, ∅, by simp⟩

/-- Accepts a missing number: it is missing no more. -/
def fill (w : Window) (c : Nat) : Window where
  next := w.next
  missing := w.missing.erase c
  below := fun d hd => w.below d (Finset.mem_of_mem_erase hd)

/-- Accepts a number not below `next`: those in between are missing. -/
def jump (w : Window) (c : Nat) (h : w.next ≤ c) : Window where
  next := c + 1
  missing := w.missing ∪ Finset.Ico w.next c
  below := by
    intro d hd
    rcases Finset.mem_union.mp hd with hd | hd
    · have := w.below d hd; omega
    · have := (Finset.mem_Ico.mp hd).2; omega

/-- Accepts a number, if it is missing or at most `limit` ahead. -/
def accept (limit : Nat) (w : Window) (c : Nat) : Option Window :=
  if h : c < w.next then if c ∈ w.missing then some (w.fill c) else none
  else if c ≤ w.next + limit then some (w.jump c (not_lt.mp h)) else none

/-- A number below `next` that is not missing. -/
def Spent (w : Window) (c : Nat) : Prop := c < w.next ∧ c ∉ w.missing

instance (w : Window) (c : Nat) : Decidable (w.Spent c) :=
  inferInstanceAs (Decidable (_ ∧ _))

variable {limit : Nat} {w w' : Window} {c d : Nat}

@[simp] theorem not_spent_start (c : Nat) : ¬ start.Spent c := fun h => Nat.not_lt_zero c h.1

theorem accept_of_lt (h : c < w.next) :
    w.accept limit c = if c ∈ w.missing then some (w.fill c) else none := dif_pos h

theorem accept_of_le (h : w.next ≤ c) :
    w.accept limit c = if c ≤ w.next + limit then some (w.jump c h) else none :=
  dif_neg (not_lt.mpr h)

/-- The two ways to accept a number. -/
theorem accept_cases (h : w.accept limit c = some w') :
    (c ∈ w.missing ∧ w' = w.fill c) ∨
    ∃ hle : w.next ≤ c, c ≤ w.next + limit ∧ w' = w.jump c hle := by
  unfold accept at h
  split at h
  · split at h
    · rename_i hmem
      exact Or.inl ⟨hmem, (Option.some.inj h).symm⟩
    · exact absurd h (by simp)
  · rename_i hlt
    split at h
    · rename_i hlimit
      exact Or.inr ⟨not_lt.mp hlt, hlimit, (Option.some.inj h).symm⟩
    · exact absurd h (by simp)

/-- Exactly the numbers that are neither spent nor too far ahead are accepted. -/
theorem accept_isSome_iff : (w.accept limit c).isSome ↔ ¬ w.Spent c ∧ c ≤ w.next + limit := by
  unfold accept Spent
  split
  · rename_i hlt
    split
    · rename_i hmem; simp [hmem]; omega
    · rename_i hmem; simp [hmem, hlt]
  · rename_i hlt
    split
    · rename_i hlimit; simp [hlt, hlimit]
    · rename_i hlimit; simp [hlimit]

/-- **An acceptance spends its number and no other.** -/
theorem spent_accept_iff (h : w.accept limit c = some w') :
    w'.Spent d ↔ w.Spent d ∨ d = c := by
  rcases accept_cases h with ⟨hmem, rfl⟩ | ⟨hle, -, rfl⟩
  · have hlt := w.below c hmem
    simp only [Spent, fill, Finset.mem_erase, not_and, ne_eq]
    constructor
    · rintro ⟨hd, hnot⟩
      by_cases hdc : d = c
      · exact Or.inr hdc
      · exact Or.inl ⟨hd, hnot hdc⟩
    · rintro (⟨hd, hnot⟩ | rfl)
      · exact ⟨hd, fun _ => hnot⟩
      · exact ⟨hlt, fun h => absurd rfl h⟩
  · have hbelow := w.below d
    simp only [Spent, jump, Finset.mem_union, Finset.mem_Ico, not_or]
    constructor
    · rintro ⟨hd, hnot, hgap⟩
      by_cases hdc : d = c
      · exact Or.inr hdc
      · exact Or.inl ⟨by omega, hnot⟩
    · rintro (⟨hd, hnot⟩ | rfl)
      · exact ⟨by omega, hnot, by omega⟩
      · exact ⟨by omega, fun hd => by have := hbelow hd; omega, by omega⟩

/-- Spent numbers are never accepted again. -/
theorem accept_of_spent (h : w.Spent c) : w.accept limit c = none := by
  rw [← Option.not_isSome_iff_eq_none, accept_isSome_iff]
  exact fun hacc => hacc.1 h

/-- **The number of missing items.**  A missing number leaves; a jump adds its gap. -/
theorem card_accept (h : w.accept limit c = some w') :
    (c < w.next ∧ w'.missing.card + 1 = w.missing.card) ∨
    (w.next ≤ c ∧ w'.missing.card = w.missing.card + (c - w.next)) := by
  rcases accept_cases h with ⟨hmem, rfl⟩ | ⟨hle, -, rfl⟩
  · exact Or.inl ⟨w.below c hmem, Finset.card_erase_add_one hmem⟩
  · refine Or.inr ⟨hle, ?_⟩
    have hdisj : Disjoint w.missing (Finset.Ico w.next c) := by
      refine Finset.disjoint_left.mpr fun d hd hgap => ?_
      have := w.below d hd
      have := (Finset.mem_Ico.mp hgap).1
      omega
    rw [jump, Finset.card_union_of_disjoint hdisj, Nat.card_Ico]

end Window

end Lib
