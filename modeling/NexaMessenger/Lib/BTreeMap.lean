import Mathlib.Data.UInt

namespace Lib

/-!
# B-tree maps — finite maps iterated in key order

`Std.ExtTreeMap` under the order of the keys: two maps with the same entries are equal, and
`toList` lists the entries by increasing key.  The lemmas restate lookup and size with
equality of keys in place of a comparison.

A map is written down as its list of entries and rebuilt by inserting them one by one.
`rebuild_toList` says that this gives the map back, and `toList_insertAll_iff` that a list of
entries is given back exactly if it is in key order.
-/

/-- A finite map with ordered keys. -/
abbrev BTreeMap (α β : Type) [Ord α] := Std.ExtTreeMap α β compare

namespace BTreeMap

variable {α β : Type} [Ord α] [Std.TransOrd α] [Std.LawfulEqOrd α] [DecidableEq α]

theorem get?_insert (m : BTreeMap α β) (a k : α) (b : β) :
    (m.insert a b)[k]? = if k = a then some b else m[k]? := by
  simp only [Std.ExtTreeMap.getElem?_insert, Std.LawfulEqCmp.compare_eq_iff_eq, eq_comm (a := k)]

theorem get?_erase (m : BTreeMap α β) (a k : α) :
    (m.erase a)[k]? = if k = a then none else m[k]? := by
  simp only [Std.ExtTreeMap.getElem?_erase, Std.LawfulEqCmp.compare_eq_iff_eq, eq_comm (a := k)]

omit [DecidableEq α] in
theorem mem_insert_iff (m : BTreeMap α β) (a k : α) (b : β) :
    k ∈ m.insert a b ↔ k = a ∨ k ∈ m := by
  simp only [Std.ExtTreeMap.mem_insert, Std.LawfulEqCmp.compare_eq_iff_eq, eq_comm (a := k)]

omit [DecidableEq α] in
theorem mem_erase_iff (m : BTreeMap α β) (a k : α) :
    k ∈ m.erase a ↔ k ≠ a ∧ k ∈ m := by
  simp only [Std.ExtTreeMap.mem_erase, ne_eq, Std.LawfulEqCmp.compare_eq_iff_eq, eq_comm (a := k)]

omit [Std.LawfulEqOrd α] [DecidableEq α] in
theorem mem_iff_get? (m : BTreeMap α β) (k : α) : k ∈ m ↔ ∃ b, m[k]? = some b := by
  rw [Std.ExtTreeMap.mem_iff_isSome_getElem?, Option.isSome_iff_exists]

omit [DecidableEq α] in
theorem get?_filter (m : BTreeMap α β) (p : α → β → Bool) (k : α) :
    (m.filter p)[k]? = m[k]?.filter (p k) := Std.ExtTreeMap.getElem?_filter'

omit [DecidableEq α] in
/-- A map with two entries has two keys. -/
theorem exists_two_keys {m : BTreeMap α β} (h : 2 ≤ m.size) : ∃ a b, a ≠ b ∧ a ∈ m ∧ b ∈ m := by
  have hdistinct := Std.ExtTreeMap.distinct_keys (t := m)
  rw [← Std.ExtTreeMap.length_keys] at h
  match hkeys : m.keys with
  | [] | [_] =>
    rw [hkeys] at h
    simp at h
  | a :: b :: rest =>
    rw [hkeys] at hdistinct
    refine ⟨a, b, ?_, ?_, ?_⟩
    · rintro rfl
      exact List.rel_of_pairwise_cons hdistinct List.mem_cons_self Std.ReflCmp.compare_self
    · rw [← Std.ExtTreeMap.mem_keys, hkeys]
      simp
    · rw [← Std.ExtTreeMap.mem_keys, hkeys]
      simp

/-- Inserting entries one by one. -/
def insertAll (m : BTreeMap α β) (entries : List (α × β)) : BTreeMap α β :=
  entries.foldl (fun m e => m.insert e.1 e.2) m

/-- **A map is rebuilt from its entries.** -/
theorem rebuild_toList (m : BTreeMap α β) : insertAll ∅ m.toList = m := by
  have hfold : insertAll ∅ m.toList = Std.ExtTreeMap.ofList m.toList compare :=
    Std.ExtTreeMap.ofList_eq_foldl.symm
  rw [hfold]
  refine Std.ExtTreeMap.ext_getElem? fun k => ?_
  cases hk : m[k]? with
  | some b =>
    exact Std.ExtTreeMap.getElem?_ofList_of_mem Std.ReflCmp.compare_self
      Std.ExtTreeMap.distinct_keys_toList
      (Std.ExtTreeMap.mem_toList_iff_getElem?_eq_some.mpr hk)
  | none =>
    refine Std.ExtTreeMap.getElem?_ofList_of_contains_eq_false ?_
    have hkey : k ∉ m.keys := by
      rw [Std.ExtTreeMap.mem_keys, mem_iff_get?]
      rintro ⟨b, hb⟩
      rw [hk] at hb; exact absurd hb (by simp)
    rw [Std.ExtTreeMap.map_fst_toList_eq_keys]
    simpa using hkey

/-- Entries with distinct keys are all found, and nothing else. -/
theorem get?_insertAll (m : BTreeMap α β) {entries : List (α × β)}
    (hdistinct : (entries.map (·.1)).Nodup) (k : α) (b : β) :
    (insertAll m entries)[k]? = some b ↔
      (k, b) ∈ entries ∨ k ∉ entries.map (·.1) ∧ m[k]? = some b := by
  induction entries generalizing m with
  | nil => simp [insertAll]
  | cons e rest ih =>
    obtain ⟨hhead, hrest⟩ := List.nodup_cons.mp hdistinct
    have hinsert : insertAll m (e :: rest) = insertAll (m.insert e.1 e.2) rest := rfl
    rw [hinsert, ih _ hrest, get?_insert]
    obtain ⟨a, c⟩ := e
    by_cases hk : k = a
    · subst hk
      have hnot : (k, b) ∉ rest := fun h => hhead (List.mem_map.mpr ⟨_, h, rfl⟩)
      simp [hnot, hhead, eq_comm]
    · simp [hk]

theorem mem_insertAll {entries : List (α × β)} (hdistinct : (entries.map (·.1)).Nodup) (k : α) :
    k ∈ insertAll ∅ entries ↔ ∃ e ∈ entries, e.1 = k := by
  rw [mem_iff_get?]
  simp only [get?_insertAll ∅ hdistinct, Std.ExtTreeMap.getElem?_empty, reduceCtorEq, and_false,
    or_false]
  exact ⟨fun ⟨b, hb⟩ => ⟨(k, b), hb, rfl⟩, fun ⟨e, he, hk⟩ => ⟨e.2, hk ▸ he⟩⟩

/-- A map lists the entries it was built from, in some order. -/
theorem toList_insertAll_perm {entries : List (α × β)} (hdistinct : (entries.map (·.1)).Nodup) :
    (insertAll ∅ entries).toList.Perm entries := by
  have hsorted := Std.ExtTreeMap.ordered_keys_toList (t := insertAll ∅ entries)
  refine (List.perm_ext_iff_of_nodup ?_ (List.Nodup.of_map _ hdistinct)).mpr fun e => ?_
  · refine hsorted.imp fun {a b} hlt heq => ?_
    have hself : compare a.1 a.1 = .eq := Std.ReflCmp.compare_self
    rw [← heq, hself] at hlt
    exact absurd hlt (by decide)
  · rw [Std.ExtTreeMap.mem_toList_iff_getElem?_eq_some, get?_insertAll ∅ hdistinct]
    simp

/-- **It lists them in their order** exactly if they are in key order. -/
theorem toList_insertAll_iff {entries : List (α × β)} (hdistinct : (entries.map (·.1)).Nodup) :
    (insertAll ∅ entries).toList = entries ↔
      entries.Pairwise fun a b => compare a.1 b.1 = .lt := by
  have hsorted := Std.ExtTreeMap.ordered_keys_toList (t := insertAll ∅ entries)
  constructor
  · intro h
    rwa [h] at hsorted
  · intro hpairwise
    refine (toList_insertAll_perm hdistinct).eq_of_pairwise ?_ hsorted hpairwise
    intro a b _ _ hab hba
    have hswap : compare a.1 b.1 = (compare b.1 a.1).swap := Std.OrientedCmp.eq_swap
    rw [hab, hba] at hswap
    exact absurd hswap (by decide)

end BTreeMap

end Lib
