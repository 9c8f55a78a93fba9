import Mathlib.Data.List.AList
import Mathlib.Algebra.BigOperators.Group.List.Basic
import Mathlib.Algebra.BigOperators.Ring.List
import Mathlib.Algebra.GroupWithZero.Nat
import Mathlib.Algebra.Order.BigOperators.Group.List
import Mathlib.Algebra.Order.Ring.Nat

namespace Lib

/-!
# Hash maps — finite maps of which only the entries matter

A hash map is an association list without repeated keys (`AList`); nothing here depends on
the order of its entries.  Beyond `lookup`, `insert` and `erase` the one thing a program
computes from a whole map is a sum over its entries (`total`), and the lemmas say how an
insertion and a removal change it.
-/

variable {α β : Type} [DecidableEq α]

/-- A finite map from `α` to `β`. -/
abbrev HashMap (α β : Type) := AList fun _ : α => β

/-- Looking a key up after an insertion. -/
theorem lookup_insert_eq (m : HashMap α β) (a k : α) (b : β) :
    (m.insert a b).lookup k = if k = a then some b else m.lookup k := by
  split
  · rename_i h; subst h; exact AList.lookup_insert m
  · rename_i h; exact AList.lookup_insert_ne h

/-- Looking a key up after a removal. -/
theorem lookup_erase_eq (m : HashMap α β) (a k : α) :
    (m.erase a).lookup k = if k = a then none else m.lookup k := by
  split
  · rename_i h; subst h; exact AList.lookup_erase k m
  · rename_i h; exact AList.lookup_erase_ne h

@[simp] theorem lookup_empty_eq (k : α) : (∅ : HashMap α β).lookup k = none := AList.lookup_empty k

/-- Removing a key before inserting under it makes no difference. -/
@[simp] theorem insert_erase_self (m : HashMap α β) (a : α) (b : β) :
    (m.erase a).insert a b = m.insert a b := by
  apply AList.ext
  have hnot : a ∉ (m.erase a) := fun h => (AList.mem_erase.mp h).1 rfl
  rw [AList.entries_insert_of_notMem hnot, AList.entries_insert]
  rfl

theorem entries_erase_eq (m : HashMap α β) (a : α) :
    (m.erase a).entries = m.entries.kerase a := rfl

/-! ### Sums over the entries -/

/-- The sum of `f` over the values of a map. -/
def total (f : β → Nat) (m : HashMap α β) : Nat := (m.entries.map fun e => f e.2).sum

omit [DecidableEq α] in
@[simp] theorem total_empty (f : β → Nat) : total f (∅ : HashMap α β) = 0 := rfl

/-- A sum depends on the values in the map only. -/
theorem total_congr {f g : β → Nat} {m : HashMap α β}
    (h : ∀ a b, m.lookup a = some b → f b = g b) : total f m = total g m := by
  refine congrArg List.sum (List.map_congr_left fun e he => ?_)
  exact h e.1 e.2 (AList.mem_lookup_iff.mpr he)

/-- Removing a key takes its value out of the sum. -/
theorem total_erase_add (f : β → Nat) (m : HashMap α β) (a : α) :
    total f (m.erase a) + ((m.lookup a).map f).getD 0 = total f m := by
  cases hlook : m.lookup a with
  | none =>
    have hmem : a ∉ m := AList.lookup_eq_none.mp hlook
    have : (m.erase a).entries = m.entries := List.kerase_of_notMem_keys hmem
    simp [total, this]
  | some b =>
    have hkey : a ∈ m.entries.keys := AList.mem_keys.mp (AList.lookup_isSome.mp (by simp [hlook]))
    obtain ⟨b', l₁, l₂, -, hsplit, herase⟩ := List.exists_of_kerase hkey
    have hb : b' = b := by
      have hmem : b' ∈ m.lookup a := AList.mem_lookup_iff.mpr (by rw [hsplit]; simp)
      rw [hlook] at hmem
      exact (Option.mem_some_iff.mp hmem).symm
    subst hb
    have hafter : (m.erase a).entries = l₁ ++ l₂ := herase
    simp only [total, hafter, hsplit, List.map_append, List.map_cons, List.sum_append,
      List.sum_cons, Option.map_some, Option.getD_some]
    omega

/-- Inserting a value puts it into the sum in place of the one it replaces. -/
theorem total_insert_add (f : β → Nat) (m : HashMap α β) (a : α) (b : β) :
    total f (m.insert a b) + ((m.lookup a).map f).getD 0 = total f m + f b := by
  have herase := total_erase_add f m a
  have hinsert : total f (m.insert a b) = f b + total f (m.erase a) := by
    simp [total, AList.entries_insert, entries_erase_eq]
  omega

/-- A sum over a map whose values all count for nothing. -/
theorem total_eq_zero {f : β → Nat} {m : HashMap α β} (h : ∀ a b, m.lookup a = some b → f b = 0) :
    total f m = 0 := by
  have hzero : total f m = total (fun _ => 0) m := total_congr h
  rw [hzero, total, List.map_const', List.sum_replicate]
  exact Nat.mul_zero _

/-- A sum is no more than what some keys have, if the values of all others count for nothing. -/
theorem total_le_sum (f : β → Nat) (keys : List α) (m : HashMap α β)
    (h : ∀ a b, m.lookup a = some b → a ∉ keys → f b = 0) :
    total f m ≤ (keys.map fun a => ((m.lookup a).map f).getD 0).sum := by
  induction keys generalizing m with
  | nil => exact (total_eq_zero fun a b hb => h a b hb List.not_mem_nil).le
  | cons a keys ih =>
    -- without its entry under `a` the map has the other keys only
    have hrest := ih (m.erase a) fun k b hb hk => by
      rw [lookup_erase_eq] at hb
      split at hb
      · exact absurd hb (by simp)
      · rename_i hka
        exact h k b hb (by simp [hka, hk])
    have hless : (keys.map fun k => (((m.erase a).lookup k).map f).getD 0).sum ≤
        (keys.map fun k => ((m.lookup k).map f).getD 0).sum := by
      refine List.sum_le_sum fun k _ => ?_
      rw [lookup_erase_eq]
      split
      · exact Nat.zero_le _
      · exact le_refl _
    have herase := total_erase_add f m a
    rw [List.map_cons, List.sum_cons]
    omega

/-- If every value counts for `c` times as much at most, so does the sum. -/
theorem total_le_mul {f g : β → Nat} {m : HashMap α β} {c : Nat}
    (h : ∀ a b, m.lookup a = some b → f b ≤ c * g b) : total f m ≤ c * total g m := by
  rw [total, total, ← List.sum_map_mul_left]
  exact List.sum_le_sum fun e he => h e.1 e.2 (AList.mem_lookup_iff.mpr he)

end Lib
