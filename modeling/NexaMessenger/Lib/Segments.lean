import Mathlib.Data.List.Basic

namespace Lib

/-!
# Segments — pieces with a separator before each

`joined sep pieces` writes a list of pieces one after the other, each with a separator before it.
If no piece has the separator in it, the pieces are told by what is written.
-/

variable {α : Type}

/-- The pieces, each with the separator before it. -/
def joined (sep : α) (pieces : List (List α)) : List α := pieces.flatMap (sep :: ·)

/-- The pieces have no separator in them. -/
def Separable (sep : α) (pieces : List (List α)) : Prop := ∀ piece ∈ pieces, sep ∉ piece

@[simp] theorem joined_nil (sep : α) : joined sep [] = [] := rfl

theorem joined_cons (sep : α) (piece : List α) (pieces : List (List α)) :
    joined sep (piece :: pieces) = sep :: (piece ++ joined sep pieces) := rfl

/-- What is written is empty or begins with the separator. -/
theorem head_joined (sep : α) (pieces : List (List α)) :
    joined sep pieces = [] ∨ ∃ rest, joined sep pieces = sep :: rest := by
  cases pieces with
  | nil => exact .inl rfl
  | cons piece pieces => exact .inr ⟨_, joined_cons sep piece pieces⟩

/-- A piece ends where the next separator stands. -/
theorem piece_unique {sep : α} {a b x y : List α} (ha : sep ∉ a) (hb : sep ∉ b)
    (hx : x = [] ∨ ∃ rest, x = sep :: rest) (hy : y = [] ∨ ∃ rest, y = sep :: rest)
    (h : a ++ x = b ++ y) : a = b ∧ x = y := by
  induction a generalizing b with
  | nil =>
    cases b with
    | nil => exact ⟨rfl, h⟩
    | cons d b =>
      -- the separator would stand in `b`
      rcases hx with rfl | ⟨rest, rfl⟩
      · exact absurd h (by simp)
      · obtain rfl := (List.cons.inj h).1
        exact absurd List.mem_cons_self hb
  | cons c a ih =>
    cases b with
    | nil =>
      rcases hy with rfl | ⟨rest, rfl⟩
      · exact absurd h (by simp)
      · obtain rfl := (List.cons.inj h).1
        exact absurd List.mem_cons_self ha
    | cons d b =>
      obtain ⟨rfl, htail⟩ := List.cons.inj h
      obtain ⟨rfl, hrest⟩ := ih (fun hmem => ha (List.mem_cons_of_mem _ hmem))
        (fun hmem => hb (List.mem_cons_of_mem _ hmem)) htail
      exact ⟨rfl, hrest⟩

/-- **Pieces are read back.** -/
theorem joined_injective {sep : α} {ps qs : List (List α)} (hps : Separable sep ps)
    (hqs : Separable sep qs) (h : joined sep ps = joined sep qs) : ps = qs := by
  induction ps generalizing qs with
  | nil =>
    cases qs with
    | nil => rfl
    | cons q qs => exact absurd h (by simp [joined_cons])
  | cons p ps ih =>
    cases qs with
    | nil => exact absurd h (by simp [joined_cons])
    | cons q qs =>
      rw [joined_cons, joined_cons] at h
      obtain ⟨rfl, hrest⟩ := piece_unique (hps p List.mem_cons_self) (hqs q List.mem_cons_self)
        (head_joined sep ps) (head_joined sep qs) (List.cons.inj h).2
      have htail := ih (fun p' hp' => hps p' (List.mem_cons_of_mem _ hp'))
        (fun q' hq' => hqs q' (List.mem_cons_of_mem _ hq')) hrest
      rw [htail]

end Lib
