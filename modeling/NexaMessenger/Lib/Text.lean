import NexaMessenger.Lib.Cursor

namespace Lib

/-!
# Text — strings that are indexed by bytes

A string is the list of its characters, and its bytes are their UTF-8.  An index counts bytes; it
is a boundary when a character ends there, and to slice a string anywhere else is a panic.
`splitBytes_eq_some_iff` says where the boundaries are.
-/

/-- A string slice: its characters. -/
abbrev Text := List Char

/-- The number of its bytes. -/
def byteLen (s : Text) : Nat := (s.map Char.utf8Size).sum

/-- Its bytes. -/
def utf8 (s : Text) : Bytes := s.flatMap String.utf8EncodeChar

/-- What comes before and after a boundary; nothing anywhere else. -/
def splitBytes : Text → Nat → Option (Text × Text)
  | s, 0 => some ([], s)
  | [], _ + 1 => none
  | c :: rest, n + 1 =>
    if c.utf8Size ≤ n + 1 then
      (splitBytes rest (n + 1 - c.utf8Size)).map fun parts => (c :: parts.1, parts.2)
    else none

/-- The string `s[lo..hi]`. -/
def indexText {ε : Type} (s : Text) (lo hi : Nat) : Except (Fault ε) Text :=
  if lo ≤ hi then
    match (splitBytes s lo).bind fun parts => splitBytes parts.2 (hi - lo) with
    | some parts => .ok parts.1
    | none => .error .panic
  else .error .panic

@[simp] theorem byteLen_nil : byteLen [] = 0 := rfl

@[simp] theorem byteLen_cons (c : Char) (s : Text) :
    byteLen (c :: s) = c.utf8Size + byteLen s := List.sum_cons

@[simp] theorem byteLen_append (a b : Text) : byteLen (a ++ b) = byteLen a + byteLen b := by
  rw [byteLen, List.map_append, List.sum_append]
  rfl

theorem length_utf8 (s : Text) : (utf8 s).length = byteLen s := by
  induction s with
  | nil => rfl
  | cons c s ih =>
    rw [utf8, List.flatMap_cons, List.length_append, String.length_utf8EncodeChar, byteLen_cons,
      ← ih]
    rfl

/-- Different strings have different bytes. -/
theorem utf8_injective : Function.Injective utf8 := by
  intro a b h
  apply String.ofList_injective
  rw [← String.toByteArray_inj, String.toByteArray_ofList, String.toByteArray_ofList]
  exact congrArg List.toByteArray h

/-- The boundaries of a string are the ends of its prefixes. -/
theorem splitBytes_eq_some_iff {s a b : Text} {n : Nat} :
    splitBytes s n = some (a, b) ↔ s = a ++ b ∧ byteLen a = n := by
  constructor
  · intro h
    induction s, n using splitBytes.induct generalizing a with
    | case1 s =>
      rw [splitBytes] at h
      obtain ⟨rfl, rfl⟩ := Prod.mk.inj (Option.some.inj h)
      exact ⟨rfl, rfl⟩
    | case2 n =>
      rw [splitBytes] at h
      exact absurd h (by simp)
    | case3 c rest n hle ih =>
      rw [splitBytes, if_pos hle] at h
      obtain ⟨⟨a', b'⟩, hrest, hparts⟩ := Option.map_eq_some_iff.mp h
      obtain ⟨rfl, rfl⟩ := Prod.mk.inj hparts
      obtain ⟨rfl, hlen⟩ := ih hrest
      exact ⟨rfl, by rw [byteLen_cons, hlen]; omega⟩
    | case4 c rest n hle =>
      rw [splitBytes, if_neg hle] at h
      exact absurd h (by simp)
  · rintro ⟨rfl, rfl⟩
    induction a with
    | nil => cases b <;> rfl
    | cons c a ih =>
      have hpos := c.utf8Size_pos
      obtain ⟨n, hn⟩ : ∃ n, byteLen (c :: a) = n + 1 :=
        ⟨byteLen (c :: a) - 1, by rw [byteLen_cons]; omega⟩
      have hrest : n + 1 - c.utf8Size = byteLen a := by
        rw [← hn, byteLen_cons]
        omega
      rw [hn, List.cons_append, splitBytes, if_pos (by rw [← hn, byteLen_cons]; omega), hrest, ih]
      rfl

section
variable {ε : Type}

/-- A slice that starts where a given prefix ends. -/
theorem indexText_append (front rest : Text) (n : Nat) :
    (indexText (front ++ rest) (byteLen front) (byteLen front + n) : Except (Fault ε) Text) =
      match splitBytes rest n with
      | some parts => .ok parts.1
      | none => .error .panic := by
  have hfront : splitBytes (front ++ rest) (byteLen front) = some (front, rest) :=
    splitBytes_eq_some_iff.mpr ⟨rfl, rfl⟩
  rw [indexText, if_pos (Nat.le_add_right _ _), hfront, Option.bind_some, Nat.add_sub_cancel_left]

end

end Lib
