import NexaMessenger.Ratchet.Receive

namespace NexaMessenger.Ratchet

open Lib

/-!
# Ratchet — skipping ahead

`key_for` for any state of a receiver and any target, both of them any 64-bit words.  Its loop
runs while the counter is not above the target, which is always so when the target is the
largest word: then only the counter's overflow, which fails the last step, ends it.

`keyForWithin` is `key_for` with a limit on the chain steps, and it also gives up where the
subtraction would underflow.  It agrees with `key_for` from 257 steps on, which is all that
`MAX_SKIP` allows (`key_for_exact`).
-/

section
variable (hkdf : Hkdf)

namespace ReceiveRatchet

/-- The loop of `key_for` for at most `steps` chain steps. -/
def loopWithin (steps : Nat) (r : ReceiveRatchet) (target : UInt64) (targetKey : Option Key32) :
    Option (Except ReceiveError Key32 × ReceiveRatchet) :=
  if r.state.nextCounter ≤ target then
    match steps with
    | 0 => none
    | steps + 1 =>
      match r.state.nextMessageKey hkdf with
      | (.error _, state) => some (.error .decryption, { r with state })
      | (.ok key, state) =>
        if r.state.nextCounter = target then loopWithin steps { r with state } target (some key)
        else loopWithin steps ⟨state, r.skipped.insert r.state.nextCounter key⟩ target targetKey
  else
    match targetKey with
    | none => some (.error .decryption, r)
    | some key => some (.ok key, r)

/-- `key_for` for at most `steps` chain steps, with the subtraction checked. -/
def keyForWithin (steps : Nat) (r : ReceiveRatchet) (target : UInt64) :
    Option (Except ReceiveError Key32 × ReceiveRatchet) :=
  let expected := r.state.nextCounter
  if target < expected then
    match r.skipped[target]? with
    | none => some (.error .replay, r)
    | some key => some (.ok key, { r with skipped := r.skipped.erase target })
  else
    match checkedSub target expected with
    | none => none
    | some ahead =>
      if maxSkip < ahead then some (.error .tooFarAhead, r) else loopWithin hkdf steps r target none

end ReceiveRatchet

end

open ReceiveRatchet RatchetState

variable {hkdf : Hkdf} {r : ReceiveRatchet} {target : UInt64}

/-! ### How long the loop runs -/

/-- Enough steps for the distance to the target are enough for the loop. -/
theorem loopWithin_eq {steps : Nat}
    (hsteps : target.toNat + 1 - r.state.nextCounter.toNat ≤ steps) (targetKey : Option Key32) :
    loopWithin hkdf steps r target targetKey = some (r.keyForLoop hkdf target targetKey) := by
  induction steps generalizing r targetKey with
  | zero =>
    have hdone : ¬ r.state.nextCounter ≤ target := by rw [word_le_iff]; omega
    rw [loopWithin.eq_def, if_neg hdone, keyForLoop_done hdone]
    cases targetKey <;> rfl
  | succ steps ih =>
    rw [loopWithin.eq_def]
    by_cases hle : r.state.nextCounter ≤ target
    · rw [if_pos hle]
      rcases hstep : r.state.nextMessageKey hkdf with ⟨e | key, state⟩
      · rw [keyForLoop_error hle hstep]
      · -- a step brings the counter one nearer
        have hcounter := nextMessageKey_counter hstep
        have hnear : target.toNat + 1 - state.nextCounter.toNat ≤ steps := by omega
        rw [keyForLoop_ok hle hstep]
        dsimp only
        rw [ih (r := { r with state }) hnear,
          ih (r := ⟨state, r.skipped.insert r.state.nextCounter key⟩) hnear]
        split <;> rfl
    · rw [if_neg hle, keyForLoop_done hle]
      cases targetKey <;> rfl

/-- **`key_for` takes at most 257 chain steps**, and its subtraction does not underflow. -/
theorem keyForWithin_eq (hkdf : Hkdf) (r : ReceiveRatchet) (target : UInt64) :
    r.keyForWithin hkdf 257 target = some (r.keyFor hkdf target) := by
  unfold keyForWithin keyFor
  dsimp only
  split
  · cases r.skipped[target]? <;> rfl
  · rename_i hlt
    rw [UInt64.not_lt] at hlt
    rw [checkedSub, if_pos hlt]
    dsimp only
    split
    · rfl
    · rename_i hnear
      apply loopWithin_eq
      have hmax : maxSkip.toNat = 256 := rfl
      rw [word_lt_iff, UInt64.toNat_sub_of_le _ _ hlt] at hnear
      omega

/-! ### Keys ahead -/

/-- An HKDF that never fails has a key ahead as long as the counter has room. -/
theorem keyAhead_of_total (htotal : hkdf.Total) {s : RatchetState} {n : Nat}
    (hroom : s.nextCounter.toNat + n + 1 < 2 ^ 64) : ∃ key, keyAhead hkdf s n = some key := by
  induction n generalizing s with
  | zero =>
    obtain ⟨key, s', hstep⟩ := nextMessageKey_of_total (s := s) htotal (by omega)
    exact ⟨key, keyAhead_zero hstep⟩
  | succ n ih =>
    obtain ⟨key, s', hstep⟩ := nextMessageKey_of_total (s := s) htotal (by omega)
    rw [(ahead_succ hstep n).2]
    exact ih (by rw [nextMessageKey_counter hstep]; omega)

/-- There is no key for the largest counter. -/
theorem keyAhead_max {s : RatchetState} {n : Nat}
    (hmax : s.nextCounter.toNat + n + 1 = 2 ^ 64) : keyAhead hkdf s n = none := by
  induction n generalizing s with
  | zero =>
    rcases hstep : s.nextMessageKey hkdf with ⟨e | key, s'⟩
    · exact keyAhead_of_error hstep 0
    · -- a step would lead to a counter that is no word
      have hcounter := nextMessageKey_counter hstep
      have := s'.nextCounter.toNat_lt
      omega
  | succ n ih =>
    rcases hstep : s.nextMessageKey hkdf with ⟨e | key, s'⟩
    · exact keyAhead_of_error hstep _
    · rw [(ahead_succ hstep n).2]
      exact ih (by rw [nextMessageKey_counter hstep]; omega)

/-! ### What `key_for` does -/

/-- Below the counter: the stored key, once. -/
theorem keyFor_below (hlt : target < r.state.nextCounter) :
    (∀ key, r.skipped[target]? = some key →
      r.keyFor hkdf target = (.ok key, { r with skipped := r.skipped.erase target })) ∧
    (target ∉ r.skipped → r.keyFor hkdf target = (.error .replay, r)) := by
  constructor
  · intro key hkey
    rw [keyFor, if_pos hlt, hkey]
  · intro hnone
    have habsent : r.skipped[target]? = none := by
      rw [Option.eq_none_iff_forall_ne_some]
      intro key hkey
      exact hnone ((BTreeMap.mem_iff_get? _ _).mpr ⟨key, hkey⟩)
    rw [keyFor, if_pos hlt, habsent]

/-- At or above it: refused when it is too far, else left to the loop. -/
theorem keyFor_above (hle : r.state.nextCounter ≤ target) :
    r.keyFor hkdf target =
      if 256 < target.toNat - r.state.nextCounter.toNat then (.error .tooFarAhead, r)
      else r.keyForLoop hkdf target none := by
  have hmax : maxSkip.toNat = 256 := rfl
  have hfar : maxSkip < target - r.state.nextCounter ↔
      256 < target.toNat - r.state.nextCounter.toNat := by
    rw [word_lt_iff, UInt64.toNat_sub_of_le _ _ hle, hmax]
  have hnlt : ¬ target < r.state.nextCounter := UInt64.not_lt.mpr hle
  rw [keyFor, if_neg hnlt]
  simp only [hfar]

/-- Near enough and below the largest word: the key of the target's step, and the keys of the
    messages it passes are added. -/
theorem keyFor_near (htotal : hkdf.Total) (hbelow : ∀ i ∈ r.skipped, i < r.state.nextCounter)
    (hle : r.state.nextCounter ≤ target)
    (hnear : target.toNat - r.state.nextCounter.toNat ≤ 256) (hroom : target < u64Max) :
    ∃ key state skipped, r.keyFor hkdf target = (.ok key, ⟨state, skipped⟩) ∧
      keyAhead hkdf r.state (target.toNat - r.state.nextCounter.toNat) = some key ∧
      stateAhead hkdf r.state (target.toNat + 1 - r.state.nextCounter.toNat) = some state ∧
      state.nextCounter.toNat = target.toNat + 1 ∧
      (∀ i, r.state.nextCounter ≤ i → i < target → i ∉ r.skipped ∧
        ∃ passed, keyAhead hkdf r.state (i.toNat - r.state.nextCounter.toNat) = some passed ∧
          skipped[i]? = some passed) ∧
      ∀ i, ¬ (r.state.nextCounter ≤ i ∧ i < target) → skipped[i]? = r.skipped[i]? := by
  have hu64 : u64Max.toNat = 2 ^ 64 - 1 := rfl
  rw [keyFor_above hle, if_neg (by omega)]
  rw [word_lt_iff, hu64] at hroom
  rw [word_le_iff] at hle
  rcases @keyForLoop_ahead hkdf r target (word_le_iff.mpr hle) none with
    ⟨key, state, skipped, hloop, hkey, hstate, hcounter, hskipped⟩ | ⟨-, hnone⟩
  · refine ⟨key, state, skipped, hloop, hkey, hstate, hcounter, fun i hi hlt => ?_,
      fun i hi => ?_⟩
    · have hstored := hskipped i
      rw [if_pos ⟨hi, hlt⟩] at hstored
      rw [word_le_iff] at hi
      rw [word_lt_iff] at hlt
      obtain ⟨passed, hpassed⟩ := keyAhead_of_total htotal (s := r.state)
        (n := i.toNat - r.state.nextCounter.toNat) (by omega)
      refine ⟨fun hmem => ?_, passed, hpassed, by rw [hstored, hpassed]⟩
      have := word_lt_iff.mp (hbelow i hmem)
      omega
    · rw [hskipped i, if_neg hi]
  · -- below the largest word there is a key
    obtain ⟨key, hkey⟩ := keyAhead_of_total htotal (s := r.state)
      (n := target.toNat - r.state.nextCounter.toNat) (by omega)
    rw [hkey] at hnone
    exact absurd hnone (by simp)

/-- The largest word has no counter after it, so it has no key either. -/
theorem keyFor_last (hle : r.state.nextCounter ≤ target)
    (hnear : target.toNat - r.state.nextCounter.toNat ≤ 256) (hmax : target = u64Max) :
    ∃ e, (r.keyFor hkdf target).1 = .error e := by
  have hu64 : u64Max.toNat = 2 ^ 64 - 1 := rfl
  rw [keyFor_above hle, if_neg (by omega)]
  rcases @keyForLoop_ahead hkdf r target hle none with
    ⟨key, state, skipped, -, hkey, -⟩ | ⟨herr, -⟩
  · rw [word_le_iff] at hle
    rw [keyAhead_max (by rw [hmax, hu64] at hle ⊢; omega)] at hkey
    exact absurd hkey (by simp)
  · exact herr

/-- **The skip loop is exact and total.**  For every receiver whose skipped counters are below its
    own, and every target, `key_for` ends after at most 257 chain steps, without an overflow.
    Below the counter it takes out the stored key or says `Replay`; more than 256 above it says
    `TooFarAhead` and changes nothing; nearer it yields the key derived at the step of the target,
    stands at the counter after that and has added the keys of the messages it passed, none of
    which it had before.  At the largest word, which leaves no counter after it, it fails. -/
theorem key_for_exact (htotal : hkdf.Total) (r : ReceiveRatchet)
    (hbelow : ∀ i ∈ r.skipped, i < r.state.nextCounter) (target : UInt64) :
    r.keyForWithin hkdf 257 target = some (r.keyFor hkdf target) ∧
    (target < r.state.nextCounter →
      (∀ key, r.skipped[target]? = some key →
        r.keyFor hkdf target = (.ok key, { r with skipped := r.skipped.erase target })) ∧
      (target ∉ r.skipped → r.keyFor hkdf target = (.error .replay, r))) ∧
    (r.state.nextCounter ≤ target → 256 < target.toNat - r.state.nextCounter.toNat →
      r.keyFor hkdf target = (.error .tooFarAhead, r)) ∧
    (r.state.nextCounter ≤ target → target.toNat - r.state.nextCounter.toNat ≤ 256 →
      target < u64Max →
      ∃ key state skipped, r.keyFor hkdf target = (.ok key, ⟨state, skipped⟩) ∧
        keyAhead hkdf r.state (target.toNat - r.state.nextCounter.toNat) = some key ∧
        stateAhead hkdf r.state (target.toNat + 1 - r.state.nextCounter.toNat) = some state ∧
        state.nextCounter.toNat = target.toNat + 1 ∧
        (∀ i, r.state.nextCounter ≤ i → i < target → i ∉ r.skipped ∧
          ∃ passed, keyAhead hkdf r.state (i.toNat - r.state.nextCounter.toNat) = some passed ∧
            skipped[i]? = some passed) ∧
        ∀ i, ¬ (r.state.nextCounter ≤ i ∧ i < target) → skipped[i]? = r.skipped[i]?) ∧
    (r.state.nextCounter ≤ target → target.toNat - r.state.nextCounter.toNat ≤ 256 →
      target = u64Max → ∃ e, (r.keyFor hkdf target).1 = .error e) := by
  refine ⟨keyForWithin_eq hkdf r target, keyFor_below, fun hle hfar => ?_,
    fun hle hnear hroom => keyFor_near htotal hbelow hle hnear hroom,
    fun hle hnear hmax => keyFor_last hle hnear hmax⟩
  rw [keyFor_above hle, if_pos hfar]

/-- A receiver two messages below the largest word, with the key of message 7. -/
def lateReceiver : ReceiveRatchet :=
  ⟨⟨zeros 32, u64Max - 2⟩, (∅ : BTreeMap UInt64 Key32).insert 7 (zeros 32)⟩

/-- It has a key for the last counter but one, and none for the last. -/
theorem lateReceiver_keyFor :
    (∃ key r', lateReceiver.keyFor sampleHkdf (u64Max - 1) = (.ok key, r')) ∧
      ∃ e, (lateReceiver.keyFor sampleHkdf u64Max).1 = .error e := by
  have hbelow : ∀ i ∈ lateReceiver.skipped, i < lateReceiver.state.nextCounter := by
    intro i hi
    rcases (BTreeMap.mem_insert_iff _ _ _ _).mp hi with rfl | hi
    · decide
    · exact absurd hi (by simp)
  constructor
  · obtain ⟨-, -, -, hnear, -⟩ :=
      key_for_exact sampleHkdf_total lateReceiver hbelow (u64Max - 1)
    obtain ⟨key, state, skipped, hkey, -⟩ := hnear (by decide) (by decide) (by decide)
    exact ⟨key, _, hkey⟩
  · obtain ⟨-, -, -, -, hlast⟩ := key_for_exact sampleHkdf_total lateReceiver hbelow u64Max
    exact hlast (by decide) (by decide) rfl

end NexaMessenger.Ratchet
