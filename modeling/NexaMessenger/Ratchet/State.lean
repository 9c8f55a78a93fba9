import NexaMessenger.Lib.Word
import NexaMessenger.Crypto

namespace NexaMessenger.Ratchet

open Lib

/-!
# Ratchet — the symmetric chain

`RatchetState` is one end of a chain of keys: each step derives a message key from the chain
key and the counter, and replaces the chain key.  A sender encrypts every message under the
next key of the chain.

`chainState hkdf root i` is the state a chain reaches from `root` in `i` steps and
`messageKey hkdf root i` the key of message `i`; a state is `OnChain` when it is the one its
own counter names.
-/

/-- `CHAIN_DOMAIN`. -/
def chainDomain : Bytes := ascii "NEXA/CHAIN/v1"

/-- `MESSAGE_DOMAIN`. -/
def messageDomain : Bytes := ascii "NEXA/MESSAGE/v1"

/-- `u64::MAX`. -/
def u64Max : UInt64 := 0xffffffffffffffff

inductive RatchetError
  | kdf | encryption | decryption | invalidNonce
deriving DecidableEq, Repr

structure RatchetState where
  chainKey : Key32
  nextCounter : UInt64
deriving DecidableEq

section
variable (hkdf : Hkdf) (aead : Aead)

namespace RatchetState

/-- `RatchetState::from_root`. -/
def fromRoot (root : Key32) : Except RatchetError RatchetState :=
  match hkdf.expand chainDomain root.toList (ascii "initial-chain") with
  | none => .error .kdf
  | some chain => .ok ⟨chain, 0⟩

/-- `RatchetState::from_snapshot_parts`. -/
def fromSnapshotParts (chainKey : Key32) (counter : UInt64) : Except RatchetError RatchetState :=
  if counter = u64Max then .error .kdf else .ok ⟨chainKey, counter⟩

/-- `RatchetState::next_message_key`.  The chain key is already replaced when the counter turns
    out to be at its maximum. -/
def nextMessageKey (s : RatchetState) : Except RatchetError Key32 × RatchetState :=
  match hkdf.expand messageDomain s.chainKey.toList (beBytes s.nextCounter) with
  | none => (.error .kdf, s)
  | some message =>
    match hkdf.expand chainDomain s.chainKey.toList (beBytes s.nextCounter) with
    | none => (.error .kdf, s)
    | some next =>
      match checkedAdd s.nextCounter 1 with
      | none => (.error .kdf, ⟨next, s.nextCounter⟩)
      | some counter => (.ok message, ⟨next, counter⟩)

/-- `RatchetState::encrypt`; the nonce it draws is an argument. -/
def encrypt (s : RatchetState) (nonce : U8Array 12) (plaintext aad : Bytes) :
    Except RatchetError Bytes × RatchetState :=
  match s.nextMessageKey hkdf with
  | (.error e, s') => (.error e, s')
  | (.ok key, s') =>
    match aead.encrypt key nonce plaintext aad with
    | none => (.error .encryption, s')
    | some ciphertext => (.ok (nonce.toList ++ ciphertext), s')

/-- `RatchetState::decrypt_once`. -/
def decryptOnce (key : Key32) (packet aad : Bytes) : Except RatchetError Bytes :=
  if packet.length < 12 then .error .invalidNonce
  else
    match aead.decrypt key (arrayOf 12 (packet.take 12)) (packet.drop 12) aad with
    | none => .error .decryption
    | some plaintext => .ok plaintext

end RatchetState

open RatchetState

/-! ### The chain of a root -/

/-- The state after `i` steps from a root, if none of them fails. -/
def chainState (root : Key32) : Nat → Option RatchetState
  | 0 => (fromRoot hkdf root).toOption
  | i + 1 =>
    match chainState root i with
    | none => none
    | some s =>
      match s.nextMessageKey hkdf with
      | (.ok _, s') => some s'
      | (.error _, _) => none

/-- The key of message `i`. -/
def messageKey (root : Key32) (i : Nat) : Option Key32 :=
  match chainState hkdf root i with
  | none => none
  | some s => (s.nextMessageKey hkdf).1.toOption

/-- The state `n` steps ahead of a state, if none of them fails. -/
def stateAhead : RatchetState → Nat → Option RatchetState
  | s, 0 => some s
  | s, n + 1 =>
    match s.nextMessageKey hkdf with
    | (.ok _, s') => stateAhead s' n
    | (.error _, _) => none

/-- The key derived at the step from there. -/
def keyAhead (s : RatchetState) (n : Nat) : Option Key32 :=
  match stateAhead hkdf s n with
  | none => none
  | some s' => (s'.nextMessageKey hkdf).1.toOption

/-- A state is on the chain of a root when its counter says how many steps it is away. -/
def OnChain (root : Key32) (s : RatchetState) : Prop :=
  chainState hkdf root s.nextCounter.toNat = some s

end

section

open RatchetState

variable {hkdf : Hkdf} {root : Key32} {s s' : RatchetState}

theorem onChain_of_fromRoot (h : fromRoot hkdf root = .ok s) : OnChain hkdf root s := by
  have hzero : s.nextCounter = 0 := by
    unfold fromRoot at h
    split at h
    · exact absurd h (by simp)
    · rw [← Except.ok.inj h]
  rw [OnChain, hzero, UInt64.toNat_zero, chainState, h]
  rfl

/-- A key comes with a counter one higher. -/
theorem nextMessageKey_counter {key : Key32} (h : s.nextMessageKey hkdf = (.ok key, s')) :
    s'.nextCounter.toNat = s.nextCounter.toNat + 1 := by
  unfold nextMessageKey at h
  split at h
  · exact absurd (Prod.mk.inj h).1 (by simp)
  split at h
  · exact absurd (Prod.mk.inj h).1 (by simp)
  split at h
  · exact absurd (Prod.mk.inj h).1 (by simp)
  · rename_i counter hadd
    obtain ⟨-, rfl⟩ := Prod.mk.inj h
    rw [checkedAdd_eq_some hadd]; rfl

/-- On the chain, a step yields the key of the message its counter names. -/
theorem OnChain.next {key : Key32} (h : OnChain hkdf root s)
    (hkey : s.nextMessageKey hkdf = (.ok key, s')) :
    messageKey hkdf root s.nextCounter.toNat = some key ∧ OnChain hkdf root s' := by
  rw [OnChain] at h
  refine ⟨by rw [messageKey, h]; dsimp only; rw [hkey]; rfl, ?_⟩
  rw [OnChain, nextMessageKey_counter hkey, chainState, h]
  dsimp only
  rw [hkey]

/-- A message with a key is preceded by messages with keys. -/
theorem exists_messageKey_of_le {i j : Nat} {key : Key32} (hij : i ≤ j)
    (h : messageKey hkdf root j = some key) : ∃ key, messageKey hkdf root i = some key := by
  induction j, hij using Nat.le_induction generalizing key with
  | base => exact ⟨key, h⟩
  | succ j _ ih =>
    rw [messageKey] at h
    split at h
    · exact absurd h (by simp)
    rename_i s hs
    rw [chainState] at hs
    split at hs
    · exact absurd hs (by simp)
    rename_i s₀ hs₀
    split at hs
    · rename_i k s' hstep
      have hkey : messageKey hkdf root j = some k := by
        rw [messageKey, hs₀]; dsimp only; rw [hstep]; rfl
      exact ih hkey
    · exact absurd hs (by simp)

/-- Where a step fails the chain ends: no message from there on has a key. -/
theorem OnChain.ends {e : RatchetError} (h : OnChain hkdf root s)
    (herr : s.nextMessageKey hkdf = (.error e, s')) {i : Nat} (hi : s.nextCounter.toNat ≤ i) :
    messageKey hkdf root i = none := by
  rw [OnChain] at h
  obtain ⟨k, rfl⟩ := Nat.exists_eq_add_of_le hi
  cases k with
  | zero =>
    rw [Nat.add_zero, messageKey, h]
    dsimp only
    rw [herr]; rfl
  | succ k =>
    have hnone (k : Nat) : chainState hkdf root (s.nextCounter.toNat + (k + 1)) = none := by
      induction k with
      | zero =>
        rw [Nat.zero_add, chainState, h]
        dsimp only
        rw [herr]
      | succ k ih => rw [← Nat.add_assoc, chainState, ih]
    rw [messageKey, hnone]

/-- A state of the chain counts the steps that lead to it. -/
theorem chainState_counter {i : Nat} {s : RatchetState} (h : chainState hkdf root i = some s) :
    s.nextCounter.toNat = i := by
  induction i generalizing s with
  | zero =>
    rw [chainState] at h
    unfold RatchetState.fromRoot at h
    split at h
    · exact absurd h (by simp [Except.toOption])
    · rw [← Option.some.inj h]; rfl
  | succ i ih =>
    rw [chainState] at h
    split at h
    · exact absurd h (by simp)
    rename_i s₀ hs₀
    split at h
    · rename_i key s' hstep
      rw [← Option.some.inj h, nextMessageKey_counter hstep, ih hs₀]
    · exact absurd h (by simp)

/-! ### The chain ahead of a state -/

theorem keyAhead_zero {key : Key32} (hstep : s.nextMessageKey hkdf = (.ok key, s')) :
    keyAhead hkdf s 0 = some key := by
  rw [keyAhead, stateAhead]
  dsimp only
  rw [hstep]
  rfl

/-- One step brings everything ahead one step nearer. -/
theorem ahead_succ {key : Key32} (hstep : s.nextMessageKey hkdf = (.ok key, s')) (n : Nat) :
    stateAhead hkdf s (n + 1) = stateAhead hkdf s' n ∧
      keyAhead hkdf s (n + 1) = keyAhead hkdf s' n := by
  have hstate : stateAhead hkdf s (n + 1) = stateAhead hkdf s' n := by rw [stateAhead, hstep]
  exact ⟨hstate, by rw [keyAhead, hstate, keyAhead]⟩

/-- Where a step fails there is nothing ahead. -/
theorem keyAhead_of_error {e : RatchetError} (herr : s.nextMessageKey hkdf = (.error e, s'))
    (n : Nat) : keyAhead hkdf s n = none := by
  cases n with
  | zero =>
    rw [keyAhead, stateAhead]
    dsimp only
    rw [herr]
    rfl
  | succ n => rw [keyAhead, stateAhead, herr]

/-- Ahead of a state of a chain lies the rest of the chain. -/
theorem OnChain.messageKey_add (h : OnChain hkdf root s) (n : Nat) :
    messageKey hkdf root (s.nextCounter.toNat + n) = keyAhead hkdf s n := by
  induction n generalizing s with
  | zero =>
    rw [OnChain] at h
    rw [Nat.add_zero, messageKey, h, keyAhead, stateAhead]
  | succ n ih =>
    rcases hstep : s.nextMessageKey hkdf with ⟨e | key, s'⟩
    · rw [h.ends hstep (Nat.le_add_right _ _), keyAhead_of_error hstep]
    · rw [(ahead_succ hstep n).2, ← ih (h.next hstep).2, nextMessageKey_counter hstep]
      congr 1
      omega

theorem OnChain.ahead (h : OnChain hkdf root s) {n : Nat}
    (hahead : stateAhead hkdf s n = some s') : OnChain hkdf root s' := by
  induction n generalizing s with
  | zero =>
    obtain rfl := Option.some.inj hahead
    exact h
  | succ n ih =>
    rw [stateAhead] at hahead
    split at hahead
    · rename_i key s₁ hstep
      exact ih (h.next hstep).2 hahead
    · exact absurd hahead (by simp)

/-- With an HKDF that never fails, only the counter can end the chain. -/
theorem nextMessageKey_of_total (htotal : ∀ salt ikm info, (hkdf.expand salt ikm info).isSome)
    (hroom : s.nextCounter.toNat + 1 < 2 ^ 64) :
    ∃ key s', s.nextMessageKey hkdf = (.ok key, s') := by
  obtain ⟨message, hmessage⟩ := Option.isSome_iff_exists.mp
    (htotal messageDomain s.chainKey.toList (beBytes s.nextCounter))
  obtain ⟨next, hnext⟩ := Option.isSome_iff_exists.mp
    (htotal chainDomain s.chainKey.toList (beBytes s.nextCounter))
  have hadd : checkedAdd s.nextCounter 1 = some (s.nextCounter + 1) := checkedAdd_of_lt hroom
  exact ⟨message, ⟨next, s.nextCounter + 1⟩, by rw [nextMessageKey, hmessage, hnext, hadd]⟩

theorem exists_chainState_of_total
    (htotal : ∀ salt ikm info, (hkdf.expand salt ikm info).isSome) (root : Key32) {i : Nat}
    (hi : i < 2 ^ 64) : ∃ s, chainState hkdf root i = some s := by
  induction i with
  | zero =>
    obtain ⟨chain, hchain⟩ := Option.isSome_iff_exists.mp
      (htotal chainDomain root.toList (ascii "initial-chain"))
    exact ⟨⟨chain, 0⟩, by rw [chainState, fromRoot, hchain]; rfl⟩
  | succ i ih =>
    obtain ⟨s, hs⟩ := ih (by omega)
    obtain ⟨key, s', hstep⟩ := nextMessageKey_of_total (s := s) htotal
      (by rw [chainState_counter hs]; exact hi)
    exact ⟨s', by rw [chainState, hs]; dsimp only; rw [hstep]⟩

end

end NexaMessenger.Ratchet
