import Mathlib.Data.UInt
import Mathlib.Data.List.Basic
import Mathlib.Tactic.Ring

namespace Lib

/-!
# Octets — byte strings, byte arrays and big-endian numbers

A byte string is a `List UInt8` and an array `[u8; n]` a `Vector UInt8 n`.  `toBe k n` writes
`n` in `k` bytes, most significant first, and `ofBe` reads such bytes back; each undoes the
other on numbers below `256 ^ k` and on strings of `k` bytes.
-/

/-- A byte string. -/
abbrev Bytes := List UInt8

/-- A byte array of fixed length. -/
abbrev U8Array (n : Nat) := Vector UInt8 n

/-- The bytes of a string of ASCII characters. -/
def ascii (s : String) : Bytes := s.toList.map fun c => UInt8.ofNat c.toNat

/-! ### Slices and arrays -/

/-- The bytes `b[lo..hi]`. -/
def slice (b : Bytes) (lo hi : Nat) : Bytes := (b.drop lo).take (hi - lo)

@[simp] theorem length_slice (b : Bytes) (lo hi : Nat) (h : hi ≤ b.length) :
    (slice b lo hi).length = hi - lo := by
  simp only [slice, List.length_take, List.length_drop]; omega

/-- A slice of a concatenation that starts where the left part ends. -/
theorem slice_append_right (a b : Bytes) (lo hi : Nat) (h : lo = a.length) :
    slice (a ++ b) lo hi = b.take (hi - lo) := by
  rw [slice, h, List.drop_left]

/-- A slice that is the left part of a concatenation. -/
theorem slice_append_left (a b : Bytes) {hi : Nat} (hhi : hi = a.length) :
    slice (a ++ b) 0 hi = a := by
  rw [slice, List.drop_zero, Nat.sub_zero, List.take_left' hhi.symm]

/-- A slice that is a middle part of a concatenation. -/
theorem slice_append_mid (a b c : Bytes) {lo hi : Nat} (hlo : lo = a.length)
    (hhi : hi = a.length + b.length) : slice (a ++ (b ++ c)) lo hi = b := by
  rw [slice_append_right _ _ _ _ hlo, List.take_left' (by omega)]

/-- Two slices, the second from where the first ends. -/
theorem slice_append_slice (b : Bytes) {lo mid hi : Nat} (hlo : lo ≤ mid) (hhi : mid ≤ hi) :
    slice b lo mid ++ slice b mid hi = slice b lo hi := by
  have hmid : b.drop mid = (b.drop lo).drop (mid - lo) := by
    rw [List.drop_drop, Nat.add_sub_cancel' hlo]
  have hlen : hi - lo = (mid - lo) + (hi - mid) := by omega
  rw [slice, slice, slice, hmid, hlen, List.take_add]

theorem slice_self (b : Bytes) : slice b 0 b.length = b := by
  rw [slice, List.drop_zero, Nat.sub_zero, List.take_length]

/-- Copies `n` bytes into an array; a caller has checked that there are `n` of them. -/
def arrayOf (n : Nat) (b : Bytes) : U8Array n := Vector.ofFn fun i => b.getD i 0

theorem getElem_arrayOf {n : Nat} (b : Bytes) (i : Nat) (h : i < n) :
    (arrayOf n b)[i] = b.getD i 0 := by
  simp [arrayOf]

theorem toList_arrayOf {n : Nat} {b : Bytes} (h : b.length = n) :
    (arrayOf n b).toList = b := by
  apply List.ext_getElem
  · simp [h]
  · intro i hi hi'
    simp [arrayOf, List.getElem?_eq_getElem hi']

@[simp] theorem arrayOf_toList {n : Nat} (v : U8Array n) : arrayOf n v.toList = v := by
  rw [← Vector.toList_inj, toList_arrayOf (Vector.length_toList)]

/-! ### Big-endian numbers -/

/-- The `k` low-order bytes of `n`, most significant first. -/
def toBe : Nat → Nat → Bytes
  | 0, _ => []
  | k + 1, n => toBe k (n / 256) ++ [UInt8.ofNat n]

/-- The number a byte string denotes, most significant byte first. -/
def ofBe (b : Bytes) : Nat := b.foldl (fun acc x => acc * 256 + x.toNat) 0

@[simp] theorem length_toBe (k n : Nat) : (toBe k n).length = k := by
  induction k generalizing n with
  | zero => rfl
  | succ k ih => simp [toBe, ih]

theorem ofBe_concat (b : Bytes) (x : UInt8) : ofBe (b ++ [x]) = ofBe b * 256 + x.toNat := by
  simp [ofBe]

theorem ofBe_toBe {k n : Nat} (h : n < 256 ^ k) : ofBe (toBe k n) = n := by
  induction k generalizing n with
  | zero =>
    have : n = 0 := by simpa using h
    simp [toBe, ofBe, this]
  | succ k ih =>
    have hdiv : n / 256 < 256 ^ k := by
      rw [Nat.div_lt_iff_lt_mul (by decide), ← pow_succ]; exact h
    rw [toBe, ofBe_concat, ih hdiv, UInt8.toNat_ofNat']
    omega

theorem ofBe_lt (b : Bytes) : ofBe b < 256 ^ b.length := by
  induction b using List.reverseRecOn with
  | nil => simp [ofBe]
  | append_singleton b x ih =>
    have hx := x.toNat_lt
    rw [ofBe_concat, List.length_append, List.length_singleton, pow_succ]
    omega

theorem toBe_ofBe {k : Nat} {b : Bytes} (h : b.length = k) : toBe k (ofBe b) = b := by
  induction b using List.reverseRecOn generalizing k with
  | nil => subst h; rfl
  | append_singleton b x ih =>
    obtain rfl : b.length + 1 = k := by simpa using h
    have hx := x.toNat_lt
    rw [ofBe_concat, toBe]
    have hdiv : (ofBe b * 256 + x.toNat) / 256 = ofBe b := by omega
    have hmod : UInt8.ofNat (ofBe b * 256 + x.toNat) = x := by
      rw [← UInt8.toNat_inj, UInt8.toNat_ofNat']; omega
    rw [hdiv, hmod, ih rfl]

theorem toBe_injective {k m n : Nat} (hm : m < 256 ^ k) (hn : n < 256 ^ k)
    (h : toBe k m = toBe k n) : m = n := by
  rw [← ofBe_toBe hm, ← ofBe_toBe hn, h]

/-- The words of fixed length that a list is written to tell the list. -/
theorem flatMap_injective {α : Type} {write : α → Bytes} {n : Nat}
    (hlength : ∀ a, (write a).length = n) (hwrite : Function.Injective write) {xs ys : List α}
    (hsame : xs.length = ys.length) (h : xs.flatMap write = ys.flatMap write) : xs = ys := by
  induction xs generalizing ys with
  | nil => exact (List.length_eq_zero_iff.mp hsame.symm).symm
  | cons x xs ih =>
    cases ys with
    | nil => exact absurd hsame (by simp)
    | cons y ys =>
      rw [List.flatMap_cons, List.flatMap_cons] at h
      obtain ⟨hhead, htail⟩ := List.append_inj h (by rw [hlength, hlength])
      rw [hwrite hhead, ih (Nat.succ.inj hsame) htail]

/-! ### Words -/

theorem toBe_injective16 {x y : UInt16} (h : toBe 2 x.toNat = toBe 2 y.toNat) : x = y :=
  UInt16.toNat_inj.mp (toBe_injective x.toNat_lt y.toNat_lt h)

theorem toBe_injective32 {x y : UInt32} (h : toBe 4 x.toNat = toBe 4 y.toNat) : x = y :=
  UInt32.toNat_inj.mp (toBe_injective x.toNat_lt y.toNat_lt h)

/-- The words that two and four bytes spell; writing them gives the bytes back. -/
theorem toNat_ofBe16 {b : Bytes} (h : b.length = 2) : (UInt16.ofNat (ofBe b)).toNat = ofBe b :=
  UInt16.toNat_ofNat_of_lt' ((ofBe_lt b).trans_eq (by rw [h]; rfl))

theorem toNat_ofBe32 {b : Bytes} (h : b.length = 4) : (UInt32.ofNat (ofBe b)).toNat = ofBe b :=
  UInt32.toNat_ofNat_of_lt' ((ofBe_lt b).trans_eq (by rw [h]; rfl))

theorem toBe_ofBe16 {b : Bytes} (h : b.length = 2) : toBe 2 (UInt16.ofNat (ofBe b)).toNat = b := by
  rw [toNat_ofBe16 h, toBe_ofBe h]

theorem toBe_ofBe32 {b : Bytes} (h : b.length = 4) : toBe 4 (UInt32.ofNat (ofBe b)).toNat = b := by
  rw [toNat_ofBe32 h, toBe_ofBe h]

/-- `x.to_be_bytes()` of a `u64`. -/
def beBytes (x : UInt64) : Bytes := toBe 8 x.toNat

@[simp] theorem length_beBytes (x : UInt64) : (beBytes x).length = 8 := length_toBe 8 _

/-- `u64::from_be_bytes`. -/
def ofBeBytes (b : Bytes) : UInt64 := UInt64.ofNat (ofBe b)

@[simp] theorem ofBeBytes_beBytes (x : UInt64) : ofBeBytes (beBytes x) = x := by
  rw [ofBeBytes, beBytes, ofBe_toBe (x.toNat_lt.trans_eq (by norm_num)), UInt64.ofNat_toNat]

theorem beBytes_ofBeBytes {b : Bytes} (h : b.length = 8) : beBytes (ofBeBytes b) = b := by
  have hlt : ofBe b < 2 ^ 64 := (ofBe_lt b).trans_eq (by rw [h]; rfl)
  rw [beBytes, ofBeBytes, UInt64.toNat_ofNat_of_lt' hlt, toBe_ofBe h]

theorem beBytes_injective {x y : UInt64} (h : beBytes x = beBytes y) : x = y := by
  rw [← ofBeBytes_beBytes x, h, ofBeBytes_beBytes]

end Lib
