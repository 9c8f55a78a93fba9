import NexaMessenger.Lib.Text
import NexaMessenger.Gateway.Headers

namespace NexaMessenger.Gateway.PathIds

open Lib Auth

/-!
# Gateway — ids in paths

The ids in the path of a request are parsed by `hex_to_16`, which slices the string in steps of
two bytes and leaves each piece to `u8::from_str_radix`; those in the headers by
`auth::parse_hex`, which looks at the bytes.  The two agree on 32 hexadecimal digits
(`hexTo16_of_digits`).

They do not agree everywhere.  `from_str_radix` takes a plus sign for the first digit, and a
slice that cuts a character is a panic.  `Misread` are the strings on which this shows, and
`path_ids_exact_iff` says that there are no others.
-/

/-! ### The code -/

/-- `char::to_digit(16)`. -/
def toDigit16 (c : Char) : Option Nat :=
  if '0' ≤ c ∧ c ≤ '9' then some (c.toNat - 48)
  else if 'a' ≤ c ∧ c ≤ 'f' then some (c.toNat - 87)
  else if 'A' ≤ c ∧ c ≤ 'F' then some (c.toNat - 55)
  else none

/-- Reads digits after those that gave `acc`. -/
def radixDigits (acc : Nat) : Text → Option Nat
  | [] => some acc
  | c :: rest =>
    match toDigit16 c with
    | none => none
    | some digit =>
      let value := acc * 16 + digit
      if value < 256 then radixDigits value rest else none

/-- `u8::from_str_radix(text, 16).ok()`. -/
def fromStrRadix16 : Text → Option UInt8
  | [] => none
  | c :: rest =>
    if c = '+' then
      if rest = [] then none else (radixDigits 0 rest).map UInt8.ofNat
    else (radixDigits 0 (c :: rest)).map UInt8.ofNat

/-- The loop of `hex_to_16` over the slots with these indices. -/
def hexSlots (input : Text) : List Nat → Except (Fault Unit) Bytes
  | [] => .ok []
  | i :: slots => do
    let digits ← indexText input (i * 2) (i * 2 + 2)
    match fromStrRadix16 digits with
    | none => .error (.error ())
    | some slot => return slot :: (← hexSlots input slots)

/-- `hex_to_16`; `None` is the error. -/
def hexTo16 (input : Text) : Except (Fault Unit) Id16 :=
  if byteLen input ≠ 32 then .error (.error ())
  else do return arrayOf 16 (← hexSlots input (List.range 16))

/-! ### What is asked of it -/

/-- A hexadecimal digit. -/
def IsHexDigit (c : Char) : Prop := ('0' ≤ c ∧ c ≤ '9') ∨ ('a' ≤ c ∧ c ≤ 'f') ∨ ('A' ≤ c ∧ c ≤ 'F')

instance (c : Char) : Decidable (IsHexDigit c) := inferInstanceAs (Decidable (_ ∨ _))

/-- Exactly 32 hexadecimal digits. -/
def IsHexId (s : Text) : Prop := s.length = 32 ∧ ∀ c ∈ s, IsHexDigit c

/-- `hex_to_16` does not panic, accepts the string exactly when it is 32 hexadecimal digits, and
    then gives the value that `parse_hex` gives for a header with this text. -/
def ReadsExactly (s : Text) : Prop :=
  hexTo16 s ≠ .error .panic ∧
  ∀ x, hexTo16 s = .ok x ↔
    IsHexId s ∧ ∀ headers name, HeaderMap.get headers name = some (utf8 s) →
      parseHex 16 headers name = .ok x

/-! ### Where it goes wrong -/

/-- Two characters that are read as a byte: a digit, or a plus sign, and a digit. -/
def IsPiece (piece : Char × Char) : Prop :=
  (piece.1 = '+' ∨ IsHexDigit piece.1) ∧ IsHexDigit piece.2

/-- The text of pieces. -/
def spell (pieces : List (Char × Char)) : Text := pieces.flatMap fun piece => [piece.1, piece.2]

/-- The first two bytes of the text end within a character. -/
def CutsCharacter (s : Text) : Prop :=
  (∃ c rest, s = c :: rest ∧ 2 < c.utf8Size) ∨
    ∃ c d rest, s = c :: d :: rest ∧ c.utf8Size = 1 ∧ 1 < d.utf8Size

/-- A string of 32 bytes that is read piece by piece until a slice cuts a character, or to its end
    with a plus sign in it. -/
def Misread (s : Text) : Prop :=
  byteLen s = 32 ∧ ∃ pieces rest, s = spell pieces ++ rest ∧ (∀ piece ∈ pieces, IsPiece piece) ∧
    (CutsCharacter rest ∨ rest = [] ∧ ∃ piece ∈ pieces, piece.1 = '+')

/-! ### Digits and pieces -/

theorem IsHexDigit.lt {c : Char} (h : IsHexDigit c) : c.toNat < 128 := by
  simp only [IsHexDigit, Char.le_def, UInt32.le_iff_toNat_le] at h
  have hnine : ('9' : Char).val.toNat = 57 := rfl
  have hf : ('f' : Char).val.toNat = 102 := rfl
  have hF : ('F' : Char).val.toNat = 70 := rfl
  show c.val.toNat < 128
  omega

/-- What `from_str_radix` and `hex_nibble` make of a digit. -/
theorem IsHexDigit.value {c : Char} (h : IsHexDigit c) :
    ∃ d < 16, toDigit16 c = some d ∧ hexNibble c.val.toUInt8 = some (UInt8.ofNat d) := by
  have hdigits : ∀ n < 128, IsHexDigit (Char.ofNat n) → ∃ d < 16,
      toDigit16 (Char.ofNat n) = some d ∧
        hexNibble (Char.ofNat n).val.toUInt8 = some (UInt8.ofNat d) := by decide +kernel
  have hc := hdigits c.toNat h.lt
  rw [Char.ofNat_toNat] at hc
  exact hc h

/-- A digit is one byte, which may stand in a header, and it is no sign. -/
theorem IsHexDigit.byte {c : Char} (h : IsHexDigit c) :
    c.utf8Size = 1 ∧ isVisibleAscii c.val.toUInt8 = true ∧ c ≠ '+' := by
  have hdigits : ∀ n < 128, IsHexDigit (Char.ofNat n) → (Char.ofNat n).utf8Size = 1 ∧
      isVisibleAscii (Char.ofNat n).val.toUInt8 = true ∧ Char.ofNat n ≠ '+' := by decide +kernel
  have hc := hdigits c.toNat h.lt
  rw [Char.ofNat_toNat] at hc
  exact hc h

theorem toDigit16_none {c : Char} (h : ¬ IsHexDigit c) : toDigit16 c = none := by
  simp only [IsHexDigit, not_or] at h
  rw [toDigit16, if_neg h.1, if_neg h.2.1, if_neg h.2.2]

theorem radixDigits_cons {c : Char} {d acc : Nat} (hc : toDigit16 c = some d)
    (hfit : acc * 16 + d < 256) (rest : Text) :
    radixDigits acc (c :: rest) = radixDigits (acc * 16 + d) rest := by
  rw [radixDigits, hc]
  exact if_pos hfit

/-- Two digits are read as the byte that `parse_hex` makes of them, -/
theorem fromStrRadix16_digits {c d : Char} (hc : IsHexDigit c) (hd : IsHexDigit d) :
    ∃ hi lo, hexNibble c.val.toUInt8 = some hi ∧ hexNibble d.val.toUInt8 = some lo ∧
      fromStrRadix16 [c, d] = some (hi <<< 4 ||| lo) := by
  obtain ⟨hi, hhi, hhigh, hnibble⟩ := hc.value
  obtain ⟨lo, hlo, hlow, hnibble'⟩ := hd.value
  have hbyte : ∀ hi < 16, ∀ lo < 16,
      UInt8.ofNat (hi * 16 + lo) = UInt8.ofNat hi <<< 4 ||| UInt8.ofNat lo := by decide +kernel
  refine ⟨_, _, hnibble, hnibble', ?_⟩
  rw [← hbyte hi hhi lo hlo, fromStrRadix16, if_neg hc.byte.2.2,
    radixDigits_cons hhigh (by omega), radixDigits_cons hlow (by omega), Nat.zero_mul, Nat.zero_add]
  rfl

/-- a plus sign and a digit as the digit, -/
theorem fromStrRadix16_plus {d : Char} (hd : IsHexDigit d) :
    ∃ slot, fromStrRadix16 ['+', d] = some slot := by
  obtain ⟨lo, hlo, hlow, -⟩ := hd.value
  refine ⟨UInt8.ofNat lo, ?_⟩
  rw [fromStrRadix16, if_pos rfl, if_neg (by simp), radixDigits_cons hlow (by omega), Nat.zero_mul,
    Nat.zero_add]
  rfl

/-- and other two characters not at all. -/
theorem fromStrRadix16_other {c d : Char} (h : ¬ IsPiece (c, d)) :
    fromStrRadix16 [c, d] = none := by
  have hlast {acc : Nat} (hd : ¬ IsHexDigit d) : radixDigits acc [d] = none := by
    rw [radixDigits, toDigit16_none hd]
  rw [fromStrRadix16]
  by_cases hplus : c = '+'
  · have hd : ¬ IsHexDigit d := fun hd => h ⟨.inl hplus, hd⟩
    rw [if_pos hplus, if_neg (by simp), hlast hd]
    rfl
  · rw [if_neg hplus]
    by_cases hc : IsHexDigit c
    · have hd : ¬ IsHexDigit d := fun hd => h ⟨.inr hc, hd⟩
      obtain ⟨hi, hhi, hhigh, -⟩ := hc.value
      rw [radixDigits_cons hhigh (by omega), hlast hd]
      rfl
    · rw [radixDigits, toDigit16_none hc]
      rfl

/-- A character of two bytes is not a number. -/
theorem fromStrRadix16_wide {c : Char} (h : c.utf8Size = 2) : fromStrRadix16 [c] = none := by
  have hplus : c ≠ '+' := by
    rintro rfl
    exact absurd h (by decide)
  have hdigit : ¬ IsHexDigit c := by
    intro hc
    rw [hc.byte.1] at h
    omega
  rw [fromStrRadix16, if_neg hplus, radixDigits, toDigit16_none hdigit]
  rfl

/-- The byte that a piece is read as. -/
def pieceValue (piece : Char × Char) : UInt8 := (fromStrRadix16 [piece.1, piece.2]).getD 0

theorem IsPiece.value {piece : Char × Char} (h : IsPiece piece) :
    fromStrRadix16 [piece.1, piece.2] = some (pieceValue piece) := by
  have hread : ∃ slot, fromStrRadix16 [piece.1, piece.2] = some slot := by
    rcases h.1 with hplus | hdigit
    · rw [hplus]
      exact fromStrRadix16_plus h.2
    · obtain ⟨hi, lo, -, -, hslot⟩ := fromStrRadix16_digits hdigit h.2
      exact ⟨_, hslot⟩
  obtain ⟨slot, hslot⟩ := hread
  rw [pieceValue, hslot]
  rfl

theorem IsPiece.size {piece : Char × Char} (h : IsPiece piece) :
    piece.1.utf8Size = 1 ∧ piece.2.utf8Size = 1 := by
  refine ⟨?_, h.2.byte.1⟩
  rcases h.1 with hplus | hdigit
  · rw [hplus]
    decide
  · exact hdigit.byte.1

theorem byteLen_spell {pieces : List (Char × Char)} (h : ∀ piece ∈ pieces, IsPiece piece) :
    byteLen (spell pieces) = pieces.length * 2 := by
  induction pieces with
  | nil => rfl
  | cons piece pieces ih =>
    obtain ⟨hfirst, hsecond⟩ := (h piece List.mem_cons_self).size
    have hrest := ih fun p hp => h p (List.mem_cons_of_mem _ hp)
    rw [spell, List.flatMap_cons, byteLen_append, byteLen_cons, byteLen_cons, hfirst, hsecond,
      ← spell, hrest, byteLen_nil, List.length_cons]
    omega

/-! ### The loop -/

section
variable {front rest : Text} {i m : Nat}

/-- The first slot of a rest that starts at it. -/
theorem hexSlots_succ (hfront : byteLen front = i * 2) (rest : Text) (m : Nat) :
    hexSlots (front ++ rest) (List.range' i (m + 1)) =
      match splitBytes rest 2 with
      | none => .error .panic
      | some (digits, _) =>
        match fromStrRadix16 digits with
        | none => .error (.error ())
        | some slot => (slot :: ·) <$> hexSlots (front ++ rest) (List.range' (i + 1) m) := by
  rw [List.range'_succ, hexSlots, ← hfront, indexText_append]
  cases splitBytes rest 2 with
  | none => rfl
  | some parts =>
    obtain ⟨digits, tail⟩ := parts
    dsimp only [bind, Except.bind]
    cases fromStrRadix16 digits with
    | none => rfl
    | some slot => rfl

/-- A slot whose slice ends within a character. -/
theorem hexSlots_cut (hfront : byteLen front = i * 2) (hcut : CutsCharacter rest) (hm : 0 < m) :
    hexSlots (front ++ rest) (List.range' i m) = .error .panic := by
  obtain ⟨m, rfl⟩ : ∃ k, m = k + 1 := ⟨m - 1, by omega⟩
  have hsplit : splitBytes rest 2 = none := by
    rcases hcut with ⟨c, tail, rfl, hc⟩ | ⟨c, d, tail, rfl, hc, hd⟩
    · rw [splitBytes, if_neg (by omega)]
    · rw [splitBytes, hc, if_pos (by omega), splitBytes, if_neg (by omega)]
      rfl
  rw [hexSlots_succ hfront, hsplit]

/-- A slot whose slice is not a number. -/
theorem hexSlots_none (hfront : byteLen front = i * 2) {digits tail : Text}
    (hdigits : byteLen digits = 2) (hnone : fromStrRadix16 digits = none) (hm : 0 < m) :
    hexSlots (front ++ (digits ++ tail)) (List.range' i m) = .error (.error ()) := by
  obtain ⟨m, rfl⟩ : ∃ k, m = k + 1 := ⟨m - 1, by omega⟩
  have hsplit : splitBytes (digits ++ tail) 2 = some (digits, tail) :=
    splitBytes_eq_some_iff.mpr ⟨rfl, hdigits⟩
  rw [hexSlots_succ hfront, hsplit]
  dsimp only
  rw [hnone]

/-- Slots that are read one after the other. -/
theorem hexSlots_pieces {pieces : List (Char × Char)} (h : ∀ piece ∈ pieces, IsPiece piece)
    (hfront : byteLen front = i * 2) :
    hexSlots (front ++ (spell pieces ++ rest)) (List.range' i (pieces.length + m)) =
      (pieces.map pieceValue ++ ·) <$>
        hexSlots (front ++ (spell pieces ++ rest)) (List.range' (i + pieces.length) m) := by
  induction pieces generalizing front i with
  | nil =>
    show _ = id <$> _
    rw [id_map, List.length_nil, Nat.zero_add, Nat.add_zero]
  | cons piece pieces ih =>
    have hpiece := h piece List.mem_cons_self
    obtain ⟨hfirst, hsecond⟩ := hpiece.size
    have hlen : byteLen [piece.1, piece.2] = 2 := by
      rw [byteLen_cons, byteLen_cons, hfirst, hsecond]
      rfl
    have hspell : spell (piece :: pieces) ++ rest =
        [piece.1, piece.2] ++ (spell pieces ++ rest) := by
      rw [spell, List.flatMap_cons, List.append_assoc]
      rfl
    have hsplit : splitBytes ([piece.1, piece.2] ++ (spell pieces ++ rest)) 2 =
        some ([piece.1, piece.2], spell pieces ++ rest) :=
      splitBytes_eq_some_iff.mpr ⟨rfl, hlen⟩
    have hcount : (piece :: pieces).length + m = pieces.length + m + 1 := by
      rw [List.length_cons]
      omega
    -- the piece is read, and the others follow in a string that starts two bytes later
    have hlater : byteLen (front ++ [piece.1, piece.2]) = (i + 1) * 2 := by
      rw [byteLen_append, hlen, hfront]
      omega
    have hnext := ih (fun p hp => h p (List.mem_cons_of_mem _ hp)) hlater
    rw [List.append_assoc] at hnext
    rw [hspell, hcount, hexSlots_succ hfront, hsplit]
    dsimp only
    rw [hpiece.value]
    dsimp only
    rw [hnext, List.length_cons, ← Nat.add_assoc, Nat.add_right_comm, ← comp_map]
    rfl

end

/-! ### The three ways a string is read -/

/-- The first slot of a string cuts a character, or is not a number, or is a piece. -/
theorem first_slot {s : Text} (hlen : 2 ≤ byteLen s) :
    CutsCharacter s ∨
      (∃ digits tail, s = digits ++ tail ∧ byteLen digits = 2 ∧ fromStrRadix16 digits = none ∧
        ∃ c ∈ digits, ¬ IsHexDigit c) ∨
      ∃ c d tail, s = c :: d :: tail ∧ IsPiece (c, d) := by
  cases s with
  | nil =>
    rw [byteLen_nil] at hlen
    omega
  | cons c s =>
    rw [byteLen_cons] at hlen
    have hpos := c.utf8Size_pos
    by_cases hwide : 2 < c.utf8Size
    · exact .inl (.inl ⟨c, s, rfl, hwide⟩)
    by_cases htwo : c.utf8Size = 2
    · refine .inr (.inl ⟨[c], s, rfl, ?_, fromStrRadix16_wide htwo, c,
        List.mem_singleton.mpr rfl, ?_⟩)
      · rw [byteLen_cons, htwo]
        rfl
      · intro hc
        rw [hc.byte.1] at htwo
        omega
    have hone : c.utf8Size = 1 := by omega
    cases s with
    | nil =>
      rw [byteLen_nil] at hlen
      omega
    | cons d s =>
      have hpos' := d.utf8Size_pos
      by_cases hcut : 1 < d.utf8Size
      · exact .inl (.inr ⟨c, d, s, rfl, hone, hcut⟩)
      have hone' : d.utf8Size = 1 := by omega
      by_cases hpiece : IsPiece (c, d)
      · exact .inr (.inr ⟨c, d, s, rfl, hpiece⟩)
      · refine .inr (.inl ⟨[c, d], s, rfl, ?_, fromStrRadix16_other hpiece, ?_⟩)
        · rw [byteLen_cons, byteLen_cons, hone, hone']
          rfl
        · by_cases hc : IsHexDigit c
          · exact ⟨d, by simp, fun hd => hpiece ⟨.inr hc, hd⟩⟩
          · exact ⟨c, by simp, hc⟩

/-- A string of whole slots is pieces up to its end, or up to a slice that cuts a character, or up
    to one that is not a number. -/
theorem exists_pieces {s : Text} {n : Nat} (hlen : byteLen s = n * 2) :
    ∃ pieces rest, s = spell pieces ++ rest ∧ (∀ piece ∈ pieces, IsPiece piece) ∧
      (rest = [] ∨ CutsCharacter rest ∨ ∃ digits tail, rest = digits ++ tail ∧
        byteLen digits = 2 ∧ fromStrRadix16 digits = none ∧ ∃ c ∈ digits, ¬ IsHexDigit c) := by
  induction n generalizing s with
  | zero =>
    cases s with
    | nil => exact ⟨[], [], rfl, by simp, .inl rfl⟩
    | cons c s =>
      have := c.utf8Size_pos
      rw [byteLen_cons] at hlen
      omega
  | succ n ih =>
    have hslot : 2 ≤ byteLen s := by omega
    rcases first_slot hslot with hcut | hnone | ⟨c, d, tail, rfl, hpiece⟩
    · exact ⟨[], s, rfl, by simp, .inr (.inl hcut)⟩
    · exact ⟨[], s, rfl, by simp, .inr (.inr hnone)⟩
    · obtain ⟨hfirst, hsecond⟩ := hpiece.size
      rw [byteLen_cons, byteLen_cons, hfirst, hsecond] at hlen
      obtain ⟨pieces, rest, rfl, hpieces, hrest⟩ := ih (s := tail) (by omega)
      refine ⟨(c, d) :: pieces, rest, rfl, ?_, hrest⟩
      exact List.forall_mem_cons.mpr ⟨hpiece, hpieces⟩

section
variable {pieces : List (Char × Char)} {rest : Text}

/-- After the pieces, the loop is at the rest. -/
theorem hexTo16_pieces (hpieces : ∀ piece ∈ pieces, IsPiece piece)
    (hlen : byteLen (spell pieces ++ rest) = 32) :
    hexTo16 (spell pieces ++ rest) = (arrayOf 16 <$> (pieces.map pieceValue ++ ·) <$>
      hexSlots (spell pieces ++ rest) (List.range' pieces.length (16 - pieces.length))) := by
  have hle : pieces.length ≤ 16 := by
    rw [byteLen_append, byteLen_spell hpieces] at hlen
    omega
  have hslots := @hexSlots_pieces [] rest 0 (16 - pieces.length) pieces hpieces rfl
  rw [List.nil_append, Nat.zero_add, Nat.add_sub_cancel' hle] at hslots
  rw [hexTo16, if_neg (not_not.mpr hlen), List.range_eq_range', hslots]
  rfl

/-- If the next slice cuts a character, that is a panic; -/
theorem hexTo16_cut (hpieces : ∀ piece ∈ pieces, IsPiece piece)
    (hlen : byteLen (spell pieces ++ rest) = 32) (hcut : CutsCharacter rest) :
    hexTo16 (spell pieces ++ rest) = .error .panic := by
  have hpos : 0 < byteLen rest := by
    rcases hcut with ⟨c, tail, rfl, hc⟩ | ⟨c, d, tail, rfl, hc, -⟩
    · rw [byteLen_cons]
      omega
    · rw [byteLen_cons]
      omega
  rw [hexTo16_pieces hpieces hlen]
  rw [byteLen_append, byteLen_spell hpieces] at hlen
  rw [hexSlots_cut (byteLen_spell hpieces) hcut (by omega)]
  rfl

/-- if it is not a number, the string is refused; -/
theorem hexTo16_none {digits tail : Text} (hpieces : ∀ piece ∈ pieces, IsPiece piece)
    (hlen : byteLen (spell pieces ++ (digits ++ tail)) = 32) (hdigits : byteLen digits = 2)
    (hnone : fromStrRadix16 digits = none) :
    hexTo16 (spell pieces ++ (digits ++ tail)) = .error (.error ()) := by
  rw [hexTo16_pieces hpieces hlen]
  rw [byteLen_append, byteLen_append, byteLen_spell hpieces, hdigits] at hlen
  rw [hexSlots_none (byteLen_spell hpieces) hdigits hnone (by omega)]
  rfl

/-- and at the end of the string the bytes are there. -/
theorem hexTo16_spell (hpieces : ∀ piece ∈ pieces, IsPiece piece)
    (hlen : byteLen (spell pieces) = 32) :
    hexTo16 (spell pieces) = .ok (arrayOf 16 (pieces.map pieceValue)) := by
  have hcount : 16 - pieces.length = 0 := by
    rw [byteLen_spell hpieces] at hlen
    omega
  have hslots := @hexTo16_pieces pieces [] hpieces (by rw [List.append_nil]; exact hlen)
  rw [List.append_nil, hcount] at hslots
  rw [hslots]
  show Except.ok (arrayOf 16 (pieces.map pieceValue ++ [])) = _
  rw [List.append_nil]

end

/-! ### `parse_hex` -/

theorem utf8_cons {c : Char} (hc : IsHexDigit c) (s : Text) :
    utf8 (c :: s) = c.val.toUInt8 :: utf8 s := by
  rw [utf8, List.flatMap_cons, String.utf8EncodeChar_eq_singleton hc.byte.1]
  rfl

/-- What `parse_hex` makes of digits. -/
theorem parsePairs_spell {pieces : List (Char × Char)}
    (h : ∀ piece ∈ pieces, IsHexDigit piece.1 ∧ IsHexDigit piece.2) :
    parsePairs (utf8 (spell pieces)) = some (pieces.map pieceValue) ∧
      (utf8 (spell pieces)).all isVisibleAscii = true := by
  induction pieces with
  | nil => exact ⟨rfl, rfl⟩
  | cons piece pieces ih =>
    obtain ⟨hfirst, hsecond⟩ := h piece List.mem_cons_self
    obtain ⟨hpairs, hvisible⟩ := ih fun p hp => h p (List.mem_cons_of_mem _ hp)
    obtain ⟨hi, lo, hhi, hlo, hslot⟩ := fromStrRadix16_digits hfirst hsecond
    have hvalue : pieceValue piece = hi <<< 4 ||| lo := by
      rw [pieceValue, hslot]
      rfl
    have hspell : spell (piece :: pieces) = piece.1 :: piece.2 :: spell pieces := rfl
    rw [hspell, utf8_cons hfirst, utf8_cons hsecond]
    constructor
    · rw [parsePairs, hhi, hlo, hpairs, List.map_cons, hvalue]
    · rw [List.all_cons, List.all_cons, hvisible, hfirst.byte.2.1, hsecond.byte.2.1]
      rfl

/-- A header with a text of 32 digits. -/
theorem parseHex_spell {pieces : List (Char × Char)}
    (h : ∀ piece ∈ pieces, IsHexDigit piece.1 ∧ IsHexDigit piece.2)
    (hlen : byteLen (spell pieces) = 32) {headers : HeaderMap} {name : Bytes}
    (hget : HeaderMap.get headers name = some (utf8 (spell pieces))) :
    parseHex 16 headers name = .ok (arrayOf 16 (pieces.map pieceValue)) := by
  obtain ⟨hpairs, hvisible⟩ := parsePairs_spell h
  have hheader : header headers name = .ok (utf8 (spell pieces)) := by
    rw [header, hget]
    exact if_pos hvisible
  have hlength : ¬ (utf8 (spell pieces)).length ≠ 16 * 2 := by
    rw [length_utf8, hlen]
    exact not_not.mpr rfl
  rw [parseHex, hheader]
  show (if _ then _ else _) = _
  rw [if_neg hlength, hpairs]

/-! ### Which strings are read exactly -/

theorem byteLen_digits {s : Text} (h : ∀ c ∈ s, IsHexDigit c) : byteLen s = s.length := by
  induction s with
  | nil => rfl
  | cons c s ih =>
    rw [byteLen_cons, (h c List.mem_cons_self).byte.1,
      ih fun d hd => h d (List.mem_cons_of_mem _ hd), List.length_cons, Nat.add_comm]

theorem IsHexId.byteLen {s : Text} (h : IsHexId s) : byteLen s = 32 := by
  rw [byteLen_digits h.2, h.1]

theorem isHexDigit_of_spell {pieces : List (Char × Char)} :
    (∀ c ∈ spell pieces, IsHexDigit c) ↔
      ∀ piece ∈ pieces, IsHexDigit piece.1 ∧ IsHexDigit piece.2 := by
  constructor
  · intro h piece hpiece
    exact ⟨h _ (List.mem_flatMap.mpr ⟨piece, hpiece, by simp⟩),
      h _ (List.mem_flatMap.mpr ⟨piece, hpiece, by simp⟩)⟩
  · intro h c hc
    obtain ⟨piece, hpiece, hc⟩ := List.mem_flatMap.mp hc
    obtain ⟨hfirst, hsecond⟩ := h piece hpiece
    rcases List.mem_pair.mp hc with rfl | rfl
    · exact hfirst
    · exact hsecond

/-- A string that is refused, and is no id, is read exactly. -/
theorem ReadsExactly.refused {s : Text} (hrefused : hexTo16 s = .error (.error ()))
    (hid : ¬ IsHexId s) : ReadsExactly s := by
  constructor
  · rw [hrefused]
    exact error_ne_panic _
  · intro x
    rw [hrefused]
    exact iff_of_false (by simp) fun h => hid h.1

/-- **32 hexadecimal digits** are read, as `parse_hex` reads them. -/
theorem hexTo16_of_digits {pieces : List (Char × Char)}
    (h : ∀ piece ∈ pieces, IsHexDigit piece.1 ∧ IsHexDigit piece.2)
    (hlen : byteLen (spell pieces) = 32) : ReadsExactly (spell pieces) := by
  have hpieces : ∀ piece ∈ pieces, IsPiece piece :=
    fun piece hpiece => ⟨.inr (h piece hpiece).1, (h piece hpiece).2⟩
  have hdigits := isHexDigit_of_spell.mpr h
  have hid : IsHexId (spell pieces) := ⟨by rw [← byteLen_digits hdigits, hlen], hdigits⟩
  constructor
  · rw [hexTo16_spell hpieces hlen]
    exact ok_ne_panic _
  · intro x
    rw [hexTo16_spell hpieces hlen]
    constructor
    · intro hx
      obtain rfl := Except.ok.inj hx
      exact ⟨hid, fun headers name hget => parseHex_spell h hlen hget⟩
    · rintro ⟨-, hparse⟩
      -- one header is enough to tell the value
      have hget : HeaderMap.get [(hDeviceId, utf8 (spell pieces))] hDeviceId =
          some (utf8 (spell pieces)) := by
        rw [get_cons, if_pos rfl]
      have hsame := (parseHex_spell h hlen hget).symm.trans (hparse _ _ hget)
      rw [Except.ok.inj hsame]

/-- **Path ids are parsed exactly, and agree with header ids**, on every string but those that are
    misread. -/
theorem path_ids_exact_iff (s : Text) : ReadsExactly s ↔ ¬ Misread s := by
  constructor
  · rintro ⟨hsafe, hexact⟩ ⟨hlen, pieces, rest, rfl, hpieces, hcut | ⟨rfl, piece, hpiece, hplus⟩⟩
    · exact hsafe (hexTo16_cut hpieces hlen hcut)
    · -- with a plus sign it is accepted, and is not 32 digits
      rw [List.append_nil] at hlen hexact
      obtain ⟨hid, -⟩ := (hexact _).mp (hexTo16_spell hpieces hlen)
      obtain ⟨hdigit, -⟩ := isHexDigit_of_spell.mp hid.2 piece hpiece
      exact hdigit.byte.2.2 hplus
  · intro hread
    by_cases hlen : byteLen s = 32
    · obtain ⟨pieces, rest, rfl, hpieces, rfl | hcut | ⟨digits, tail, rfl, hdigits, hnone, c, hc,
        hnot⟩⟩ := exists_pieces (n := 16) hlen
      · rw [List.append_nil] at hlen ⊢
        apply hexTo16_of_digits _ hlen
        intro piece hpiece
        refine ⟨(hpieces piece hpiece).1.resolve_left fun hplus => hread ?_,
          (hpieces piece hpiece).2⟩
        exact ⟨by rw [List.append_nil]; exact hlen, pieces, [], rfl, hpieces,
          .inr ⟨rfl, piece, hpiece, hplus⟩⟩
      · exact absurd ⟨hlen, pieces, rest, rfl, hpieces, .inl hcut⟩ hread
      · apply ReadsExactly.refused (hexTo16_none hpieces hlen hdigits hnone)
        intro hid
        exact hnot (hid.2 c (by simp [hc]))
    · apply ReadsExactly.refused
      · rw [hexTo16, if_pos hlen]
      · intro hid
        exact hlen hid.byteLen

/-- A string of plus signs and digits is accepted, and a euro sign at the start is a panic. -/
theorem path_ids_not_exact :
    (¬ ReadsExactly (List.replicate 16 ['+', 'f']).flatten ∧
      hexTo16 (List.replicate 16 ['+', 'f']).flatten = .ok (Vector.replicate 16 15)) ∧
    ¬ ReadsExactly ('€' :: List.replicate 29 'a') ∧
      hexTo16 ('€' :: List.replicate 29 'a') = .error .panic := by
  have hplus : hexTo16 (List.replicate 16 ['+', 'f']).flatten = .ok (Vector.replicate 16 15) := by
    decide +kernel
  have hcut : hexTo16 ('€' :: List.replicate 29 'a') = .error .panic := by decide +kernel
  refine ⟨⟨fun hexact => ?_, hplus⟩, fun hexact => hexact.1 hcut, hcut⟩
  obtain ⟨hid, -⟩ := (hexact.2 _).mp hplus
  exact absurd (hid.2 '+' (by decide)) (by decide)

end NexaMessenger.Gateway.PathIds
