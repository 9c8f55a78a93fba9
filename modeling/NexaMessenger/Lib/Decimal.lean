import NexaMessenger.Lib.Octets
import Mathlib.Data.Nat.Digits.Defs

namespace Lib

/-!
# Decimal — numbers as ASCII digits

`decimal n` writes a number without leading zeros.  `parseU64` reads a 64-bit number as a
checked parser does: an optional plus sign, at least one digit, nothing else, and no
overflow; leading zeros are accepted.  `parseU64_decimal` is the round trip.
-/

/-- The ASCII byte of a digit. -/
def digitByte (d : Nat) : UInt8 := UInt8.ofNat (48 + d)

/-- The decimal digits of a number, as ASCII bytes. -/
def decimal (n : Nat) : Bytes :=
  if n = 0 then [digitByte 0] else ((Nat.digits 10 n).map digitByte).reverse

/-- Reads digits after those that gave `acc`; stops at a byte that is no digit, and when the
    number no longer fits 64 bits. -/
def parseDigits (acc : Nat) : Bytes → Option Nat
  | [] => some acc
  | c :: rest =>
    if 48 ≤ c ∧ c ≤ 57 then
      let value := acc * 10 + (c.toNat - 48)
      if value < 2 ^ 64 then parseDigits value rest else none
    else none

/-- `text.parse::<u64>()`. -/
def parseU64 : Bytes → Option UInt64
  | [] => none
  | c :: rest =>
    if c = 43 then
      if rest = [] then none else (parseDigits 0 rest).map UInt64.ofNat
    else (parseDigits 0 (c :: rest)).map UInt64.ofNat

theorem decimal_of_lt {n : Nat} (h : n < 10) : decimal n = [digitByte n] := by
  unfold decimal
  split
  · rename_i hzero; rw [hzero]
  · rename_i hzero
    rw [Nat.digits_of_lt 10 n hzero h]; rfl

theorem decimal_of_le {n : Nat} (h : 10 ≤ n) :
    decimal n = decimal (n / 10) ++ [digitByte (n % 10)] := by
  rw [decimal, if_neg (by omega), decimal, if_neg (by omega),
    Nat.digits_def' (by decide) (by omega), List.map_cons, List.reverse_cons]

theorem digitByte_toNat {d : Nat} (h : d < 10) : (digitByte d).toNat = 48 + d := by
  rw [digitByte, UInt8.toNat_ofNat']; omega

theorem parseDigits_digit {acc d : Nat} (rest : Bytes) (hd : d < 10)
    (hfit : acc * 10 + d < 2 ^ 64) :
    parseDigits acc (digitByte d :: rest) = parseDigits (acc * 10 + d) rest := by
  have hnat := digitByte_toNat hd
  have hdigit : 48 ≤ digitByte d ∧ digitByte d ≤ 57 := by
    rw [UInt8.le_iff_toNat_le, UInt8.le_iff_toNat_le, hnat]
    exact ⟨by show 48 ≤ _; omega, by show _ ≤ 57; omega⟩
  rw [parseDigits, if_pos hdigit, hnat, Nat.add_sub_cancel_left]
  exact if_pos hfit

/-- The digits of a number are read back, whatever follows them. -/
theorem parseDigits_decimal (n : Nat) (hn : n < 2 ^ 64) (rest : Bytes) :
    parseDigits 0 (decimal n ++ rest) = parseDigits n rest := by
  induction n using Nat.strongRecOn generalizing rest with
  | _ n ih =>
    by_cases h : n < 10
    · rw [decimal_of_lt h, List.singleton_append, parseDigits_digit rest h (by omega)]
      simp
    · have hdiv : n / 10 * 10 + n % 10 = n := by omega
      rw [decimal_of_le (by omega), List.append_assoc, ih (n / 10) (by omega) (by omega),
        List.singleton_append, parseDigits_digit rest (by omega) (by omega), hdiv]

/-- The first byte of a number is a digit, not a sign. -/
theorem decimal_head (n : Nat) : ∃ d rest, d < 10 ∧ decimal n = digitByte d :: rest := by
  induction n using Nat.strongRecOn with
  | _ n ih =>
    by_cases h : n < 10
    · exact ⟨n, [], h, decimal_of_lt h⟩
    · obtain ⟨d, rest, hd, hrest⟩ := ih (n / 10) (by omega)
      exact ⟨d, rest ++ [digitByte (n % 10)], hd, by
        rw [decimal_of_le (by omega), hrest, List.cons_append]⟩

/-- **Numbers are read back.** -/
theorem parseU64_decimal (x : UInt64) : parseU64 (decimal x.toNat) = some x := by
  obtain ⟨d, rest, hd, hrest⟩ := decimal_head x.toNat
  have hread := parseDigits_decimal x.toNat x.toNat_lt []
  rw [List.append_nil, hrest] at hread
  have hsign : digitByte d ≠ 43 := by
    intro h
    have := congrArg UInt8.toNat h
    rw [digitByte_toNat hd] at this
    have : (43 : UInt8).toNat = 43 := rfl
    omega
  rw [hrest, parseU64, if_neg hsign, hread]
  show some (UInt64.ofNat x.toNat) = some x
  rw [UInt64.ofNat_toNat]

/-! ### What a number is made of -/

/-- The bytes of a number: digits and the sign. -/
def IsNumberByte (c : UInt8) : Prop := c = 43 ∨ 48 ≤ c ∧ c ≤ 57

instance (c : UInt8) : Decidable (IsNumberByte c) := inferInstanceAs (Decidable (_ ∨ _))

theorem number_byte_of_parseDigits {text : Bytes} {acc n : Nat}
    (h : parseDigits acc text = some n) : ∀ c ∈ text, IsNumberByte c := by
  induction text generalizing acc with
  | nil => intro c hc; exact absurd hc List.not_mem_nil
  | cons d rest ih =>
    rw [parseDigits] at h
    split at h
    · rename_i hdigit
      dsimp only at h
      split at h
      · intro c hc
        rcases List.mem_cons.mp hc with rfl | hc
        · exact .inr hdigit
        · exact ih h c hc
      · exact absurd h (by simp)
    · exact absurd h (by simp)

/-- What is read as a number has no other byte. -/
theorem number_byte_of_parseU64 {text : Bytes} {x : UInt64} (h : parseU64 text = some x) :
    ∀ c ∈ text, IsNumberByte c := by
  unfold parseU64 at h
  split at h
  · exact absurd h (by simp)
  · rename_i d rest
    split at h
    · rename_i hsign
      split at h
      · exact absurd h (by simp)
      · obtain ⟨n, hn, -⟩ := Option.map_eq_some_iff.mp h
        intro c hc
        rcases List.mem_cons.mp hc with rfl | hc
        · exact .inl hsign
        · exact number_byte_of_parseDigits hn c hc
    · obtain ⟨n, hn, -⟩ := Option.map_eq_some_iff.mp h
      exact number_byte_of_parseDigits hn

/-! ### Different numbers have different digits -/

theorem decimal_injective {m n : Nat} (hm : m < 2 ^ 64) (hn : n < 2 ^ 64)
    (h : decimal m = decimal n) : m = n := by
  have hread := parseDigits_decimal m hm []
  rw [h, parseDigits_decimal n hn []] at hread
  exact (Option.some.inj hread).symm

/-- A number below a power of ten has no more digits than the exponent says. -/
theorem length_decimal_le {n k : Nat} (hk : 0 < k) (h : n < 10 ^ k) : (decimal n).length ≤ k := by
  induction k generalizing n with
  | zero => exact absurd hk (lt_irrefl 0)
  | succ k ih =>
    by_cases hsmall : n < 10
    · rw [decimal_of_lt hsmall, List.length_singleton]
      omega
    · have hpos : 0 < k := by
        rcases Nat.eq_zero_or_pos k with rfl | hpos
        · exact absurd h (by simpa using hsmall)
        · exact hpos
      rw [decimal_of_le (by omega), List.length_append, List.length_singleton]
      have hdiv : n / 10 < 10 ^ k := by
        rw [pow_succ] at h
        omega
      have := ih hpos hdiv
      omega

end Lib
