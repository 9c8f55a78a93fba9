import NexaMessenger.Lib.Cursor

namespace Lib

/-!
# Varints — numbers in groups of seven bits

LEB128: a number is spelled in groups of seven bits, the lowest first and one in each byte, and
every byte but the last has its high bit set.  Groups of zeros may follow the highest one, so a
number has many spellings.  `varint` writes the shortest, which is the only one that does not end
in such a group (`eq_varint_of_minimal`).

A reader of words takes the spellings that are not longer than the largest word needs (`Spells`).
-/

/-- Bytes that spell a number. -/
inductive IsVarint : Bytes → Prop
  | last {b : UInt8} (h : b.toNat < 128) : IsVarint [b]
  | more {b : UInt8} {s : Bytes} (h : 128 ≤ b.toNat) (hs : IsVarint s) : IsVarint (b :: s)

/-- The number they spell. -/
def varintValue : Bytes → Nat
  | [] => 0
  | b :: s => b.toNat % 128 + 128 * varintValue s

/-- A spelling that does not end in a group of zeros, unless it is the only group. -/
def MinimalVarint (s : Bytes) : Prop := s.length = 1 ∨ s.getLast? ≠ some 0

instance (s : Bytes) : Decidable (MinimalVarint s) := inferInstanceAs (Decidable (_ ∨ _))

/-- The shortest spelling of a number. -/
def varint (n : Nat) : Bytes :=
  if n < 128 then [UInt8.ofNat n] else UInt8.ofNat (n % 128 + 128) :: varint (n / 128)
termination_by n
decreasing_by omega

theorem varint_of_lt {n : Nat} (h : n < 128) : varint n = [UInt8.ofNat n] := by
  rw [varint, if_pos h]

theorem varint_of_ge {n : Nat} (h : 128 ≤ n) :
    varint n = UInt8.ofNat (n % 128 + 128) :: varint (n / 128) := by
  rw [varint, if_neg (by omega)]

theorem toNat_byte {n : Nat} (h : n < 256) : (UInt8.ofNat n).toNat = n :=
  UInt8.toNat_ofNat_of_lt' h

theorem isVarint_varint (n : Nat) : IsVarint (varint n) := by
  induction n using Nat.strongRecOn with
  | ind n ih =>
    by_cases hn : n < 128
    · rw [varint_of_lt hn]
      refine .last ?_
      rw [toNat_byte (by omega)]
      exact hn
    · rw [varint_of_ge (by omega)]
      refine .more ?_ (ih (n / 128) (by omega))
      rw [toNat_byte (by omega)]
      omega

theorem varintValue_varint (n : Nat) : varintValue (varint n) = n := by
  induction n using Nat.strongRecOn with
  | ind n ih =>
    by_cases hn : n < 128
    · rw [varint_of_lt hn]
      show (UInt8.ofNat n).toNat % 128 + 128 * 0 = n
      rw [toNat_byte (by omega)]
      omega
    · rw [varint_of_ge (by omega)]
      show (UInt8.ofNat (n % 128 + 128)).toNat % 128 + 128 * varintValue (varint (n / 128)) = n
      rw [toNat_byte (by omega), ih (n / 128) (by omega)]
      omega

/-- A spelling ends in a group of zeros or spells a number of its last group at least. -/
theorem IsVarint.value_pos {s : Bytes} (hs : IsVarint s) (h : s.getLast? ≠ some 0) :
    0 < varintValue s := by
  induction hs with
  | @last b hb =>
    have hne : b.toNat ≠ 0 := fun hzero => h (congrArg some (UInt8.toNat_inj.mp hzero))
    show 0 < b.toNat % 128 + 128 * 0
    omega
  | @more b s hb hs ih =>
    have hrest : s.getLast? ≠ some 0 := by
      cases hs with
      | last hb => simpa using h
      | more hb hs => simpa using h
    have := ih hrest
    show 0 < b.toNat % 128 + 128 * varintValue s
    omega

theorem IsVarint.ne_nil {s : Bytes} (hs : IsVarint s) : s ≠ [] := by
  cases hs <;> simp

theorem IsVarint.getLast?_cons {b : UInt8} {s : Bytes} (hs : IsVarint s) :
    (b :: s).getLast? = s.getLast? := by
  cases hs <;> simp

/-- **Uniqueness.** Two spellings of a number that do not end in a group of zeros are the same. -/
theorem eq_varint_of_minimal {s : Bytes} (hs : IsVarint s) (hmin : MinimalVarint s) :
    s = varint (varintValue s) := by
  induction hs with
  | @last b hb =>
    have hvalue : varintValue [b] = b.toNat := by
      show b.toNat % 128 + 128 * 0 = b.toNat
      omega
    rw [hvalue, varint_of_lt hb, UInt8.ofNat_toNat]
  | @more b s hb hs ih =>
    have hbyte := b.toNat_lt
    have hvalue : varintValue (b :: s) = b.toNat % 128 + 128 * varintValue s := rfl
    -- more bytes follow, so the last is not zero
    have hlast : s.getLast? ≠ some 0 := by
      rw [← hs.getLast?_cons]
      refine hmin.resolve_left fun hone => hs.ne_nil ?_
      simpa using hone
    have hpos := hs.value_pos hlast
    have hhead : UInt8.ofNat (varintValue (b :: s) % 128 + 128) = b := by
      rw [← UInt8.toNat_inj, toNat_byte (by omega), hvalue]
      omega
    have htail : varintValue (b :: s) / 128 = varintValue s := by
      rw [hvalue]
      omega
    rw [varint_of_ge (by omega), hhead, htail, ← ih (.inr hlast)]

theorem getLast?_varint {n : Nat} (hn : 0 < n) : (varint n).getLast? ≠ some 0 := by
  induction n using Nat.strongRecOn with
  | ind n ih =>
    by_cases hlt : n < 128
    · rw [varint_of_lt hlt]
      intro h
      have hzero : UInt8.ofNat n = 0 := Option.some.inj h
      have := congrArg UInt8.toNat hzero
      rw [toNat_byte (by omega)] at this
      exact hn.ne' this
    · rw [varint_of_ge (by omega), (isVarint_varint (n / 128)).getLast?_cons]
      exact ih (n / 128) (by omega) (by omega)

theorem minimal_varint (n : Nat) : MinimalVarint (varint n) := by
  by_cases hn : n = 0
  · left
    rw [hn, varint_of_lt (by omega)]
    rfl
  · exact .inr (getLast?_varint (by omega))

theorem length_varint_le {n k : Nat} (h : n < 128 ^ (k + 1)) : (varint n).length ≤ k + 1 := by
  induction k generalizing n with
  | zero => rw [varint_of_lt (by omega)]; rfl
  | succ k ih =>
    by_cases hn : n < 128
    · rw [varint_of_lt hn, List.length_singleton]
      omega
    · rw [varint_of_ge (by omega), List.length_cons]
      have hdiv : n / 128 < 128 ^ (k + 1) := by
        rw [Nat.div_lt_iff_lt_mul (by decide), ← pow_succ]
        exact h
      exact Nat.succ_le_succ (ih hdiv)

/-! ### Reading -/

/-- The spelling at the front of a byte string, and what follows it. -/
def splitVarint : Bytes → Option (Bytes × Bytes)
  | [] => none
  | b :: bytes =>
    if b.toNat < 128 then some ([b], bytes)
    else (splitVarint bytes).map fun parts => (b :: parts.1, parts.2)

theorem splitVarint_append {s : Bytes} (hs : IsVarint s) (rest : Bytes) :
    splitVarint (s ++ rest) = some (s, rest) := by
  induction hs with
  | last hb => exact if_pos hb
  | more hb hs ih =>
    rw [List.cons_append, splitVarint, if_neg (by omega), ih]
    rfl

theorem splitVarint_eq_some_iff {b s rest : Bytes} :
    splitVarint b = some (s, rest) ↔ IsVarint s ∧ b = s ++ rest := by
  constructor
  · intro h
    induction b generalizing s with
    | nil => exact absurd h (by simp [splitVarint])
    | cons x b ih =>
      rw [splitVarint] at h
      split at h
      · rename_i hx
        obtain ⟨rfl, rfl⟩ := Prod.mk.inj (Option.some.inj h)
        exact ⟨.last hx, rfl⟩
      · rename_i hx
        obtain ⟨⟨s', rest'⟩, hsplit, hparts⟩ := Option.map_eq_some_iff.mp h
        obtain ⟨rfl, rfl⟩ := Prod.mk.inj hparts
        obtain ⟨hs', rfl⟩ := ih hsplit
        exact ⟨.more (by omega) hs', rfl⟩
  · rintro ⟨hs, rfl⟩
    exact splitVarint_append hs rest

/-- The spellings of a word of `bits` bits: no longer than the largest word needs. -/
def Spells (bits n : Nat) (s : Bytes) : Prop :=
  IsVarint s ∧ varintValue s = n ∧ n < 2 ^ bits ∧ s.length ≤ (bits + 6) / 7

theorem spells_varint {bits n : Nat} (hbits : 0 < bits) (h : n < 2 ^ bits) :
    Spells bits n (varint n) := by
  obtain ⟨k, hk⟩ : ∃ k, (bits + 6) / 7 = k + 1 := ⟨(bits + 6) / 7 - 1, by omega⟩
  have hgroups : n < 128 ^ (k + 1) := by
    calc n < 2 ^ bits := h
      _ ≤ 2 ^ (7 * (k + 1)) := Nat.pow_le_pow_right (by decide) (by omega)
      _ = (2 ^ 7) ^ (k + 1) := pow_mul 2 7 (k + 1)
  refine ⟨isVarint_varint n, varintValue_varint n, h, ?_⟩
  rw [hk]
  exact length_varint_le hgroups

/-- Of the spellings of a word `varint` writes the minimal one. -/
theorem Spells.eq_varint {bits n : Nat} {s : Bytes} (h : Spells bits n s)
    (hmin : MinimalVarint s) : s = varint n := by
  rw [← h.2.1]
  exact eq_varint_of_minimal h.1 hmin

variable {ε : Type}

/-- Reads a word. -/
def Cursor.varint (bits : Nat) (bad : ε) (bytes : Bytes) : Cursor ε Nat := fun cursor =>
  match splitVarint (bytes.drop cursor) with
  | none => .error (.error bad)
  | some (s, _) =>
    if varintValue s < 2 ^ bits ∧ s.length ≤ (bits + 6) / 7 then
      .ok (varintValue s, cursor + s.length)
    else .error (.error bad)

theorem Parses.varint (bits : Nat) (bad : ε) (bytes : Bytes) :
    Parses bytes (Cursor.varint bits bad bytes) (Spells bits) := by
  constructor
  · intro cursor _ value next
    show Cursor.varint bits bad bytes cursor = _ ↔ _
    unfold Cursor.varint
    constructor
    · intro h
      cases hsplit : splitVarint (bytes.drop cursor) with
      | none =>
        rw [hsplit] at h
        exact absurd h (by simp)
      | some parts =>
        obtain ⟨s, rest⟩ := parts
        obtain ⟨hs, hdrop⟩ := splitVarint_eq_some_iff.mp hsplit
        rw [hsplit] at h
        dsimp only at h
        split at h
        · rename_i hfits
          obtain ⟨rfl, rfl⟩ := Prod.mk.inj (Except.ok.inj h)
          exact ⟨s, ⟨hs, rfl, hfits⟩, ⟨rest, hdrop.symm⟩, rfl⟩
        · exact absurd h (by simp)
    · rintro ⟨s, ⟨hs, rfl, hfits⟩, ⟨rest, hrest⟩, rfl⟩
      rw [← hrest, splitVarint_append hs]
      exact if_pos hfits
  · intro cursor _
    show Cursor.varint bits bad bytes cursor ≠ _
    unfold Cursor.varint
    split
    · exact error_ne_panic bad
    · split
      · exact ok_ne_panic _
      · exact error_ne_panic bad

/-- Reads a word into a type of its own. -/
theorem Parses.word {α : Type} (bits : Nat) {ofNat : Nat → α} {toNat : α → Nat}
    (hof : ∀ a, ofNat (toNat a) = a) (hto : ∀ n < 2 ^ bits, toNat (ofNat n) = n) (bad : ε)
    (bytes : Bytes) :
    Parses bytes (ofNat <$> Cursor.varint bits bad bytes) fun value =>
      Spells bits (toNat value) := by
  refine ((Parses.varint bits bad bytes).map ofNat).congr fun value s => ?_
  constructor
  · rintro ⟨n, hs, rfl⟩
    rwa [hto n hs.2.2.1]
  · intro hs
    exact ⟨toNat value, hs, (hof value).symm⟩

/-- Reads a vector after its length. -/
def Cursor.vector (bits : Nat) (bad : ε) (bytes : Bytes) : Cursor ε Bytes :=
  Cursor.varint bits bad bytes >>= Cursor.take bytes.length bad .panic bytes

theorem Parses.vector (bits : Nat) (bad : ε) (bytes : Bytes) :
    Parses bytes (Cursor.vector bits bad bytes) fun value word =>
      ∃ length, Spells bits value.length length ∧ word = length ++ value := by
  refine ((Parses.varint bits bad bytes).bind fun n _ _ =>
    Parses.take (Nat.le_refl _) bad .panic n).congr fun value word => ?_
  constructor
  · rintro ⟨n, length, _, hs, ⟨rfl, rfl⟩, rfl⟩
    exact ⟨length, hs, rfl⟩
  · rintro ⟨length, hs, rfl⟩
    exact ⟨value.length, length, value, hs, ⟨rfl, rfl⟩, rfl⟩

end Lib
