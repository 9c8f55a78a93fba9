import Mathlib.Data.UInt

namespace Lib

/-!
# Tickets — numbers drawn from a counter

A counter hands out 1, 2, 3 and so on, and wraps when all 64-bit words are used up.  Before that,
no number is drawn twice: whoever draws from the counter holds a number that nobody else holds
(`Issued`).
-/

variable {κ : Type} {n : Nat} {counter : UInt64} {holds holds' : κ → UInt64 → Prop}

/-- After `n` draws: the counter is at the next number, the numbers that are held were drawn, and
    they are different. -/
structure Issued (n : Nat) (counter : UInt64) (holds : κ → UInt64 → Prop) : Prop where
  next : counter = UInt64.ofNat (n + 1)
  le : ∀ k id, holds k id → id.toNat ≤ n
  unique : ∀ j k id, holds j id → holds k id → j = k

theorem Issued.start (hnone : ∀ k id, ¬ holds k id) : Issued 0 1 holds where
  next := rfl
  le k id hk := absurd hk (hnone k id)
  unique j _ id hj _ := absurd hj (hnone j id)

/-- Numbers may be given up. -/
theorem Issued.mono (h : Issued n counter holds) (hholds : ∀ k id, holds' k id → holds k id) :
    Issued n counter holds' where
  next := h.next
  le k id hk := h.le k id (hholds k id hk)
  unique j k id hj hk := h.unique j k id (hholds j id hj) (hholds k id hk)

/-- Nobody holds the next number, as long as there is one. -/
theorem Issued.fresh (h : Issued n counter holds) (hn : n + 1 < 2 ^ 64) {k : κ} {id : UInt64}
    (hk : holds k id) : id ≠ counter := by
  intro hid
  have hle := h.le k id hk
  rw [hid, h.next, UInt64.toNat_ofNat_of_lt' hn] at hle
  omega

/-- **Draw.** One more holds a number, the next one. -/
theorem Issued.draw (h : Issued n counter holds) (hn : n + 1 < 2 ^ 64) {k : κ}
    (hholds : ∀ j id, holds' j id → j = k ∧ id = counter ∨ holds j id) :
    Issued (n + 1) (counter + 1) holds' := by
  refine ⟨?_, ?_, ?_⟩
  · rw [h.next, ← UInt64.ofNat_one, ← UInt64.ofNat_add]
  · intro j id hj
    rcases hholds j id hj with ⟨-, rfl⟩ | hj
    · rw [h.next, UInt64.toNat_ofNat_of_lt' hn]
    · exact (h.le j id hj).trans (Nat.le_succ n)
  · intro i j id hi hj
    rcases hholds i id hi with ⟨hik, hid⟩ | hi
    · rcases hholds j id hj with ⟨hjk, -⟩ | hj
      · rw [hik, hjk]
      · exact absurd hid (h.fresh hn hj)
    · rcases hholds j id hj with ⟨-, hid⟩ | hj
      · exact absurd hid (h.fresh hn hi)
      · exact h.unique i j id hi hj

end Lib
