import NexaMessenger.Lib.BTreeMap
import NexaMessenger.Lib.Window
import NexaMessenger.Ratchet.State

namespace NexaMessenger.Ratchet

open Lib

/-!
# Ratchet — receiving in any order

`ReceiveRatchet` walks the chain of its root as messages arrive and keeps the keys of those it
skipped.  A call works on a clone and replaces the state only when the packet opened.

`Follows` relates it to a window of the library: the counter and the skipped keys are the
window's `next` and `missing`, and every key is the one the chain has for that message.
`Follows.decrypt` says all that a call can do in these terms: it succeeds exactly when the window
accepts the counter, the chain has a key for it and the packet opens under that key; else it
changes nothing.
-/

/-- `MAX_SKIP`. -/
def maxSkip : UInt64 := 256

inductive ReceiveError
  | tooFarAhead | replay | decryption | invalidHeader (error : RatchetHeaderError)
deriving DecidableEq, Repr

structure ReceiveRatchet where
  state : RatchetState
  skipped : BTreeMap UInt64 Key32

section
variable (hkdf : Hkdf) (aead : Aead)

namespace ReceiveRatchet

/-- `ReceiveRatchet::from_root`. -/
def fromRoot (root : Key32) : Except RatchetError ReceiveRatchet :=
  match RatchetState.fromRoot hkdf root with
  | .error e => .error e
  | .ok state => .ok ⟨state, ∅⟩

/-- `ReceiveRatchet::expected_counter`. -/
def expectedCounter (r : ReceiveRatchet) : UInt64 := r.state.nextCounter

/-- The `while` loop of `key_for`. -/
def keyForLoop (r : ReceiveRatchet) (target : UInt64) (targetKey : Option Key32) :
    Except ReceiveError Key32 × ReceiveRatchet :=
  if r.state.nextCounter ≤ target then
    match _h : r.state.nextMessageKey hkdf with
    | (.error _, state) => (.error .decryption, { r with state })
    | (.ok key, state) =>
      if r.state.nextCounter = target then keyForLoop { r with state } target (some key)
      else keyForLoop ⟨state, r.skipped.insert r.state.nextCounter key⟩ target targetKey
  else
    match targetKey with
    | none => (.error .decryption, r)
    | some key => (.ok key, r)
termination_by target.toNat + 1 - r.state.nextCounter.toNat
decreasing_by all_goals
  have := nextMessageKey_counter _h
  rw [UInt64.le_iff_toNat_le] at *
  omega

/-- `ReceiveRatchet::key_for`. -/
def keyFor (r : ReceiveRatchet) (target : UInt64) : Except ReceiveError Key32 × ReceiveRatchet :=
  let expected := r.state.nextCounter
  if target < expected then
    match r.skipped[target]? with
    | none => (.error .replay, r)
    | some key => (.ok key, { r with skipped := r.skipped.erase target })
  else if maxSkip < target - expected then (.error .tooFarAhead, r)
  else r.keyForLoop hkdf target none

/-- `ReceiveRatchet::decrypt`. -/
def decrypt (r : ReceiveRatchet) (counter : UInt64) (packet aad : Bytes) :
    Except ReceiveError Bytes × ReceiveRatchet :=
  match r.keyFor hkdf counter with
  | (.error e, _) => (.error e, r)
  | (.ok key, candidate) =>
    match RatchetState.decryptOnce aead key packet aad with
    | .error _ => (.error .decryption, r)
    | .ok plaintext => (.ok plaintext, candidate)

/-- `ReceiveRatchet::decrypt_with_header`. -/
def decryptWithHeader (r : ReceiveRatchet) (headerBytes packet aad : Bytes) :
    Except ReceiveError Bytes × ReceiveRatchet :=
  match RatchetHeader.decode headerBytes with
  | .error e => (.error (.invalidHeader e), r)
  | .ok header => r.decrypt hkdf aead header.messageCounter packet aad

end ReceiveRatchet

/-! ### The ratchet follows a window -/

/-- The state of a receiver that follows the chain of `root`, seen as a window. -/
structure Follows (root : Key32) (w : Window) (r : ReceiveRatchet) : Prop where
  next : w.next = r.state.nextCounter.toNat
  missing : ∀ c : UInt64, c ∈ r.skipped ↔ c.toNat ∈ w.missing
  chain : OnChain hkdf root r.state
  keys : ∀ (c : UInt64) (key : Key32), r.skipped[c]? = some key →
    messageKey hkdf root c.toNat = some key

end

section

open ReceiveRatchet RatchetState

variable {hkdf : Hkdf} {root : Key32} {w : Window} {r : ReceiveRatchet}

theorem follows_fromRoot (h : ReceiveRatchet.fromRoot hkdf root = .ok r) :
    Follows hkdf root .start r := by
  unfold ReceiveRatchet.fromRoot at h
  split at h
  · exact absurd h (by simp)
  · rename_i state hstate
    obtain rfl := Except.ok.inj h
    have hzero : state.nextCounter = 0 := by
      unfold RatchetState.fromRoot at hstate
      split at hstate
      · exact absurd hstate (by simp)
      · rw [← Except.ok.inj hstate]
    exact ⟨by rw [hzero]; rfl, fun c => by simp [Window.start], onChain_of_fromRoot hstate,
      fun c key hkey => by simp at hkey⟩

/-- There are as many skipped keys as missing messages. -/
theorem Follows.size (h : Follows hkdf root w r) : r.skipped.size = w.missing.card := by
  have himage : w.missing = (r.skipped.keys.map UInt64.toNat).toFinset := by
    ext n
    simp only [List.mem_toFinset, List.mem_map, Std.ExtTreeMap.mem_keys, h.missing]
    constructor
    · intro hn
      -- what is missing is below the counter, so it fits a word
      have hlt : n < 2 ^ 64 := by
        have := w.below n hn
        have := r.state.nextCounter.toNat_lt
        rw [h.next] at *
        omega
      exact ⟨UInt64.ofNat n, by rwa [UInt64.toNat_ofNat_of_lt' hlt],
        UInt64.toNat_ofNat_of_lt' hlt⟩
    · rintro ⟨c, hc, rfl⟩
      exact hc
  have hnodup : (r.skipped.keys.map UInt64.toNat).Nodup :=
    Std.ExtTreeMap.nodup_keys.map fun _ _ => UInt64.toNat_inj.mp
  rw [himage, List.toFinset_card_of_nodup hnodup, List.length_map, Std.ExtTreeMap.length_keys]

/-- One pass of the loop of `key_for`: a step that fails ends it, -/
theorem keyForLoop_error {target : UInt64} {targetKey : Option Key32} {e : RatchetError}
    {state : RatchetState} (hle : r.state.nextCounter ≤ target)
    (hstep : r.state.nextMessageKey hkdf = (.error e, state)) :
    r.keyForLoop hkdf target targetKey = (.error .decryption, { r with state }) := by
  rw [keyForLoop.eq_def, if_pos hle]
  split
  · rename_i hsame
    rw [(Prod.mk.inj (hsame.symm.trans hstep)).2]
  · rename_i hsame
    exact absurd (Prod.mk.inj (hsame.symm.trans hstep)).1 (by simp)

/-- and one that yields a key keeps it for the target, or stores it. -/
theorem keyForLoop_ok {target : UInt64} {targetKey : Option Key32} {key : Key32}
    {state : RatchetState} (hle : r.state.nextCounter ≤ target)
    (hstep : r.state.nextMessageKey hkdf = (.ok key, state)) :
    r.keyForLoop hkdf target targetKey =
      if r.state.nextCounter = target then
        ReceiveRatchet.keyForLoop hkdf { r with state } target (some key)
      else
        ReceiveRatchet.keyForLoop hkdf ⟨state, r.skipped.insert r.state.nextCounter key⟩ target
          targetKey := by
  rw [keyForLoop.eq_def, if_pos hle]
  split
  · rename_i hsame
    exact absurd (Prod.mk.inj (hsame.symm.trans hstep)).1 (by simp)
  · rename_i hsame
    obtain ⟨hkey, hstate⟩ := Prod.mk.inj (hsame.symm.trans hstep)
    rw [Except.ok.inj hkey, hstate]

/-- Above the target it is over. -/
theorem keyForLoop_done {target : UInt64} (hdone : ¬ r.state.nextCounter ≤ target)
    (targetKey : Option Key32) :
    r.keyForLoop hkdf target targetKey =
      match targetKey with
      | none => (.error .decryption, r)
      | some key => (.ok key, r) := by
  rw [keyForLoop.eq_def, if_neg hdone]

/-- What the loop of `key_for` does: it ends with the key of the target, and with a key stored for
    every message it passed; or a step fails before the target has its key. -/
theorem keyForLoop_ahead (target : UInt64) (hle : r.state.nextCounter ≤ target)
    (targetKey : Option Key32) :
    (∃ key state skipped, r.keyForLoop hkdf target targetKey = (.ok key, ⟨state, skipped⟩) ∧
      keyAhead hkdf r.state (target.toNat - r.state.nextCounter.toNat) = some key ∧
      stateAhead hkdf r.state (target.toNat + 1 - r.state.nextCounter.toNat) = some state ∧
      state.nextCounter.toNat = target.toNat + 1 ∧
      ∀ c, skipped[c]? = if r.state.nextCounter ≤ c ∧ c < target then
        keyAhead hkdf r.state (c.toNat - r.state.nextCounter.toNat) else r.skipped[c]?) ∨
    ((∃ e, (r.keyForLoop hkdf target targetKey).1 = .error e) ∧
      keyAhead hkdf r.state (target.toNat - r.state.nextCounter.toNat) = none) := by
  -- induction on the distance of the target from the counter
  generalize hn : target.toNat - r.state.nextCounter.toNat = n
  induction n generalizing r with
  | zero =>
    have htarget : r.state.nextCounter = target := by
      rw [word_le_iff] at hle
      exact UInt64.toNat_inj.mp (by omega)
    -- the target is next: one more step, and the loop ends
    rcases hstep : r.state.nextMessageKey hkdf with ⟨e | key, state⟩
    · rw [keyForLoop_error hle hstep]
      exact Or.inr ⟨⟨_, rfl⟩, keyAhead_of_error hstep 0⟩
    · have hcounter := nextMessageKey_counter hstep
      have hdone : ¬ state.nextCounter ≤ target := by
        rw [word_le_iff, hcounter, htarget]; omega
      rw [keyForLoop_ok hle hstep, if_pos htarget, keyForLoop_done hdone]
      refine Or.inl ⟨key, state, r.skipped, rfl, keyAhead_zero hstep, ?_,
        by rw [hcounter, htarget], fun c => ?_⟩
      · rw [htarget, Nat.add_sub_cancel_left, (ahead_succ hstep 0).1]
        rfl
      · rw [if_neg]
        rw [htarget, word_le_iff, word_lt_iff]
        omega
  | succ n ih =>
    have hne : r.state.nextCounter ≠ target := by rintro e; rw [e] at hn; omega
    rcases hstep : r.state.nextMessageKey hkdf with ⟨e | key, state⟩
    · rw [keyForLoop_error hle hstep]
      exact Or.inr ⟨⟨_, rfl⟩, keyAhead_of_error hstep _⟩
    · have hcounter := nextMessageKey_counter hstep
      rw [keyForLoop_ok hle hstep, if_neg hne]
      -- the key of a message that is passed is stored, and the loop goes on from the next
      rcases ih (r := ⟨state, r.skipped.insert r.state.nextCounter key⟩)
        (by rw [word_le_iff]; show state.nextCounter.toNat ≤ _; omega)
        (by show _ - state.nextCounter.toNat = _; omega) with
        ⟨key', state', skipped, hloop, hkey', hstate', hcounter', hskipped⟩ | ⟨herr, hnone⟩
      · refine Or.inl ⟨key', state', skipped, hloop, ?_, ?_, hcounter', fun c => ?_⟩
        · rw [(ahead_succ hstep n).2]
          exact hkey'
        · have hnear : target.toNat + 1 - r.state.nextCounter.toNat =
              (target.toNat + 1 - state.nextCounter.toNat) + 1 := by omega
          rw [hnear, (ahead_succ hstep _).1]
          exact hstate'
        · rw [hskipped c]
          dsimp only
          rw [BTreeMap.get?_insert]
          simp only [word_le_iff, word_lt_iff, hcounter]
          by_cases hc : c = r.state.nextCounter
          · subst hc
            rw [if_neg (by omega), if_pos rfl, if_pos (by omega), Nat.sub_self,
              keyAhead_zero hstep]
          · have hc' : c.toNat ≠ r.state.nextCounter.toNat := fun e => hc (UInt64.toNat_inj.mp e)
            by_cases hin : r.state.nextCounter.toNat ≤ c.toNat ∧ c.toNat < target.toNat
            · have hnear : c.toNat - r.state.nextCounter.toNat =
                  (c.toNat - (r.state.nextCounter.toNat + 1)) + 1 := by omega
              rw [if_pos (by omega), if_pos hin, hnear, (ahead_succ hstep _).2]
            · rw [if_neg (by omega), if_neg hc, if_neg hin]
      · exact Or.inr ⟨herr, by rw [(ahead_succ hstep n).2]; exact hnone⟩

/-- On the chain of a root the keys ahead are those of the messages. -/
theorem keyForLoop_spec (target : UInt64) (h : OnChain hkdf root r.state)
    (hle : r.state.nextCounter ≤ target) (targetKey : Option Key32) :
    (∃ key state skipped, r.keyForLoop hkdf target targetKey = (.ok key, ⟨state, skipped⟩) ∧
      messageKey hkdf root target.toNat = some key ∧ OnChain hkdf root state ∧
      state.nextCounter.toNat = target.toNat + 1 ∧
      ∀ c, skipped[c]? = if r.state.nextCounter ≤ c ∧ c < target then
        messageKey hkdf root c.toNat else r.skipped[c]?) ∨
    ((∃ e, (r.keyForLoop hkdf target targetKey).1 = .error e) ∧
      messageKey hkdf root target.toNat = none) := by
  have hkeys {c : UInt64} (hc : r.state.nextCounter ≤ c) : messageKey hkdf root c.toNat =
      keyAhead hkdf r.state (c.toNat - r.state.nextCounter.toNat) := by
    rw [word_le_iff] at hc
    rw [← h.messageKey_add, Nat.add_sub_cancel' hc]
  rcases keyForLoop_ahead target hle targetKey with
    ⟨key, state, skipped, hloop, hkey, hstate, hcounter, hskipped⟩ | ⟨herr, hnone⟩
  · refine Or.inl ⟨key, state, skipped, hloop, by rw [hkeys hle, hkey], h.ahead hstate, hcounter,
      fun c => ?_⟩
    rw [hskipped c]
    split
    · rename_i hin
      rw [hkeys hin.1]
    · rfl
  · exact Or.inr ⟨herr, by rw [hkeys hle, hnone]⟩

/-- **What `key_for` does.**  It yields the key of the target exactly when the window accepts
    the target and the chain has a key for it. -/
theorem Follows.keyFor (h : Follows hkdf root w r) (target : UInt64) :
    (∃ w' key r', r.keyFor hkdf target = (.ok key, r') ∧
      w.accept 256 target.toNat = some w' ∧ messageKey hkdf root target.toNat = some key ∧
      Follows hkdf root w' r') ∨
    ((∃ e, (r.keyFor hkdf target).1 = .error e) ∧
      (w.accept 256 target.toNat = none ∨ messageKey hkdf root target.toNat = none)) := by
  unfold ReceiveRatchet.keyFor
  dsimp only
  split
  · -- a message below the counter: its key was stored, or it was accepted before
    rename_i hlt
    rw [word_lt_iff, ← h.next] at hlt
    rw [Window.accept_of_lt hlt]
    have hmem := h.missing target
    rw [BTreeMap.mem_iff_get?] at hmem
    cases hkey : r.skipped[target]? with
    | none =>
      rw [if_neg (by rw [← hmem, hkey]; simp)]
      exact Or.inr ⟨⟨_, rfl⟩, Or.inl rfl⟩
    | some key =>
      rw [if_pos (by rw [← hmem]; exact ⟨key, hkey⟩)]
      refine Or.inl ⟨_, key, _, rfl, rfl, h.keys target key hkey, ?_⟩
      refine ⟨h.next, fun c => ?_, h.chain, fun c key' hc => ?_⟩
      · rw [BTreeMap.mem_erase_iff, Window.fill, Finset.mem_erase, h.missing c, ne_eq, ne_eq,
          UInt64.toNat_inj]
      · dsimp only at hc
        rw [BTreeMap.get?_erase] at hc
        split at hc
        · exact absurd hc (by simp)
        · exact h.keys c key' hc
  · rename_i hlt
    rw [UInt64.not_lt] at hlt
    -- a message at or ahead of the counter: the loop runs if it is near enough
    have hle : w.next ≤ target.toNat := by rw [h.next]; exact word_le_iff.mp hlt
    have hgap : (target - r.state.nextCounter).toNat = target.toNat - w.next := by
      rw [UInt64.toNat_sub_of_le _ _ hlt, h.next]
    have hmax : maxSkip.toNat = 256 := rfl
    rw [Window.accept_of_le hle]
    split
    · rename_i hfar
      rw [word_lt_iff, hgap] at hfar
      rw [if_neg (by omega)]
      exact Or.inr ⟨⟨_, rfl⟩, Or.inl rfl⟩
    · rename_i hnear
      rw [word_lt_iff, hgap] at hnear
      rw [if_pos (by omega)]
      rcases keyForLoop_spec target h.chain hlt none with
        ⟨key, state, skipped, hloop, hkey, hchain, hcounter, hskipped⟩ | ⟨herr, hkey⟩
      · refine Or.inl ⟨_, key, _, hloop, rfl, hkey, ?_⟩
        refine ⟨hcounter.symm, fun c => ?_, hchain, fun c key' hc => ?_⟩
        · rw [BTreeMap.mem_iff_get?, hskipped c, Window.jump, Finset.mem_union, Finset.mem_Ico,
            ← h.missing c, BTreeMap.mem_iff_get?]
          simp only [h.next, word_le_iff, word_lt_iff]
          -- the messages that are passed become the missing ones
          by_cases hin : r.state.nextCounter.toNat ≤ c.toNat ∧ c.toNat < target.toNat
          · rw [if_pos hin]
            exact iff_of_true (exists_messageKey_of_le hin.2.le hkey) (Or.inr hin)
          · rw [if_neg hin, or_iff_left hin]
        · dsimp only at hc
          rw [hskipped c] at hc
          split at hc
          · exact hc
          · exact h.keys c key' hc
      · exact Or.inr ⟨herr, Or.inr hkey⟩

/-- A packet opens at a counter: the chain has a key for it under which it decrypts. -/
def Opens (hkdf : Hkdf) (aead : Aead) (root : Key32) (counter : UInt64) (packet aad : Bytes)
    (plaintext : Bytes) : Prop :=
  ∃ key, messageKey hkdf root counter.toNat = some key ∧
    decryptOnce aead key packet aad = .ok plaintext

/-- **What a call can do.**  It succeeds when the window accepts the counter and the packet opens
    there, and moves with the window; else it fails and changes nothing. -/
theorem Follows.decrypt (h : Follows hkdf root w r) (aead : Aead) (counter : UInt64)
    (packet aad : Bytes) :
    (∃ w' plaintext r', w.accept 256 counter.toNat = some w' ∧
      Opens hkdf aead root counter packet aad plaintext ∧
      r.decrypt hkdf aead counter packet aad = (.ok plaintext, r') ∧ Follows hkdf root w' r') ∨
    (∃ e, r.decrypt hkdf aead counter packet aad = (.error e, r) ∧
      ∀ plaintext, Opens hkdf aead root counter packet aad plaintext →
        w.accept 256 counter.toNat = none) := by
  unfold ReceiveRatchet.decrypt
  rcases h.keyFor counter with ⟨w', key, r', hkeyFor, haccept, hkey, hfollows⟩ | ⟨⟨e, he⟩, hnone⟩
  · rw [hkeyFor]
    dsimp only
    cases hopen : decryptOnce aead key packet aad with
    | ok plaintext =>
      exact Or.inl ⟨w', plaintext, r', haccept, ⟨key, hkey, hopen⟩, rfl, hfollows⟩
    | error e =>
      refine Or.inr ⟨_, rfl, fun plaintext hopens => ?_⟩
      -- there is one key at this counter, and the packet does not open under it
      obtain ⟨key', hkey', hopen'⟩ := hopens
      rw [hkey] at hkey'
      rw [← Option.some.inj hkey', hopen] at hopen'
      exact absurd hopen' (by simp)
  · rcases hr : r.keyFor hkdf counter with ⟨result, candidate⟩
    rw [hr] at he
    dsimp only at he
    subst he
    refine Or.inr ⟨e, rfl, fun plaintext hopens => ?_⟩
    obtain ⟨key, hkey, -⟩ := hopens
    -- without a key the packet cannot open
    rcases hnone with hnone | hnone
    · exact hnone
    · rw [hkey] at hnone; exact absurd hnone (by simp)

end

end NexaMessenger.Ratchet
