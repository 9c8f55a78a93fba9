import Mathlib.Data.UInt
import Mathlib.Tactic.Ring

namespace Lib

/-!
# Words — checked and saturating arithmetic on 64-bit words

The operations of a language with fixed-width integers that say what happens at the edge:
`satAdd` and `satSub` stop there, `checkedAdd` and `checkedSub` report it.  Every proof goes
through `toNat`, where they are `min`, truncated subtraction and a bounded sum.
-/

/-- `a.saturating_add(b)`. -/
def satAdd (a b : UInt64) : UInt64 := UInt64.ofNat (min (a.toNat + b.toNat) (2 ^ 64 - 1))

/-- `a.saturating_sub(b)`. -/
def satSub (a b : UInt64) : UInt64 := if b ≤ a then a - b else 0

/-- `a.checked_add(b)`. -/
def checkedAdd (a b : UInt64) : Option UInt64 :=
  if a.toNat + b.toNat < 2 ^ 64 then some (a + b) else none

/-- `a.checked_sub(b)`. -/
def checkedSub (a b : UInt64) : Option UInt64 := if b ≤ a then some (a - b) else none

@[simp] theorem toNat_satAdd (a b : UInt64) :
    (satAdd a b).toNat = min (a.toNat + b.toNat) (2 ^ 64 - 1) := by
  rw [satAdd, UInt64.toNat_ofNat_of_lt']
  show min (a.toNat + b.toNat) (2 ^ 64 - 1) < 2 ^ 64
  omega

@[simp] theorem toNat_satSub (a b : UInt64) : (satSub a b).toNat = a.toNat - b.toNat := by
  unfold satSub
  split
  · rename_i h; exact UInt64.toNat_sub_of_le a b h
  · rename_i h
    have : ¬ b.toNat ≤ a.toNat := fun hle => h (UInt64.le_iff_toNat_le.mpr hle)
    simp only [UInt64.toNat_zero]; omega

theorem checkedAdd_eq_some {a b c : UInt64} (h : checkedAdd a b = some c) :
    c.toNat = a.toNat + b.toNat := by
  unfold checkedAdd at h
  split at h
  · rename_i hlt
    rw [← Option.some.inj h, UInt64.toNat_add, Nat.mod_eq_of_lt hlt]
  · exact absurd h (by simp)

theorem checkedAdd_of_lt {a b : UInt64} (h : a.toNat + b.toNat < 2 ^ 64) :
    checkedAdd a b = some (a + b) := if_pos h

theorem checkedAdd_eq_none_iff {a b : UInt64} :
    checkedAdd a b = none ↔ 2 ^ 64 ≤ a.toNat + b.toNat := by
  unfold checkedAdd
  split <;> simp <;> omega

/-- Comparisons of words are comparisons of their values. -/
theorem word_lt_iff {a b : UInt64} : a < b ↔ a.toNat < b.toNat := UInt64.lt_iff_toNat_lt

theorem word_le_iff {a b : UInt64} : a ≤ b ↔ a.toNat ≤ b.toNat := UInt64.le_iff_toNat_le

/-- The larger of two words, so that `List.max?` finds the largest of a list. -/
theorem max_word (a b : UInt64) : max a b = if a ≤ b then b else a := rfl

instance lawfulOrderMaxUInt64 : Std.LawfulOrderMax UInt64 where
  max_eq_or a b := by rw [max_word]; split <;> simp
  max_le_iff a b c := by
    rw [max_word]
    split <;> simp only [word_le_iff] at * <;> omega

/-- The next word after all those of a list. -/
theorem lt_of_max?_add_one {words : List UInt64} {current next : UInt64}
    (hmax : words.max? = some current) (hnext : checkedAdd current 1 = some next) :
    ∀ x ∈ words, x < next := by
  intro x hx
  have hle := (List.max?_eq_some_iff.mp hmax).2 x hx
  have hone : (1 : UInt64).toNat = 1 := rfl
  rw [word_le_iff] at hle
  rw [word_lt_iff, checkedAdd_eq_some hnext]
  omega

end Lib
