import NexaMessenger.Identity.OneTimePrekeys
import NexaMessenger.Session.Agreement

namespace NexaMessenger.Session

open Lib Identity

/-!
# Session — a one-time prekey is used up by the session it is for

A responder takes his one-time prekey from the store by `with_matching`, whose operation is the key
agreement.  So the prekey leaves the store if and only if the agreement succeeds, and the root is
then derived from it (`respond_cases`).  Together with the account of the store this makes the
store transactional.
-/

variable {x : X25519}

/-- A response fails and changes nothing, or derives a root from the stored prekey, which leaves
    the store. -/
theorem respond_cases (hkdf : Hkdf) (identity : IdentityKey x) (signedPrekey : SignedPrekey x)
    (store : OneTimePrekeyStore x) (keyId : UInt32) (expectedPublic : Key32)
    (ownDeviceId peerDeviceId : Id16) (peerAgreementKey peerEphemeral : Key32) :
    (∃ e, respondWithOneTimePrekeyStore hkdf identity signedPrekey store
      (some (keyId, expectedPublic)) ownDeviceId peerDeviceId peerAgreementKey peerEphemeral =
        (.error e, store)) ∨
    ∃ key session, store.keys[keyId]? = some key ∧ key.publicKey = expectedPublic ∧
      agreedRoot hkdf (responderSecrets identity signedPrekey (some (keyId, key)) peerAgreementKey
        peerEphemeral) peerDeviceId ownDeviceId peerEphemeral = .ok session.root ∧
      respondWithOneTimePrekeyStore hkdf identity signedPrekey store
        (some (keyId, expectedPublic)) ownDeviceId peerDeviceId peerAgreementKey peerEphemeral =
          (.ok session, ⟨store.keys.erase keyId⟩) := by
  rcases withMatching_cases SessionError.preKeyStore store keyId expectedPublic
    (fun otp => respondInner hkdf identity signedPrekey (some (keyId, otp)) ownDeviceId peerDeviceId
      peerAgreementKey peerEphemeral) with
    ⟨e, hstep⟩ | ⟨key, session, hstored, hmatch, hagreed, hstep⟩
  · exact Or.inl ⟨e, hstep⟩
  · right
    rw [respondInner_eq] at hagreed
    cases hroot : agreedRoot hkdf (responderSecrets identity signedPrekey (some (keyId, key))
        peerAgreementKey peerEphemeral) peerDeviceId ownDeviceId peerEphemeral with
    | error e =>
      rw [hroot] at hagreed
      exact absurd hagreed (by simp [Except.map])
    | ok root =>
      rw [hroot] at hagreed
      obtain rfl := Except.ok.inj hagreed
      exact ⟨key, _, hstored, hmatch, hroot, hstep⟩

/-- A response removes its prekey if and only if it is `Ok`, and its root is then derived from the
    stored key; else it changes nothing. -/
theorem respond_consumes (hkdf : Hkdf) (identity : IdentityKey x) (signedPrekey : SignedPrekey x)
    (store : OneTimePrekeyStore x) (keyId : UInt32) (expectedPublic : Key32)
    (ownDeviceId peerDeviceId : Id16) (peerAgreementKey peerEphemeral : Key32) :
    let r := respondWithOneTimePrekeyStore hkdf identity signedPrekey store
      (some (keyId, expectedPublic)) ownDeviceId peerDeviceId peerAgreementKey peerEphemeral
    ((∃ session, r.1 = .ok session) ↔ keyId ∈ store.keys ∧ keyId ∉ r.2.keys) ∧
    (∀ e, r.1 = .error e → r.2 = store) ∧
    ∀ session, r.1 = .ok session → r.2.keys = store.keys.erase keyId ∧
      ∃ key, store.keys[keyId]? = some key ∧ key.publicKey = expectedPublic ∧
        agreedRoot hkdf (responderSecrets identity signedPrekey (some (keyId, key))
          peerAgreementKey peerEphemeral) peerDeviceId ownDeviceId peerEphemeral =
            .ok session.root := by
  intro r
  rcases respond_cases hkdf identity signedPrekey store keyId expectedPublic ownDeviceId
    peerDeviceId peerAgreementKey peerEphemeral with
    ⟨e, hr⟩ | ⟨key, session, hstored, hmatch, hroot, hr⟩
  · have hr : r = (.error e, store) := hr
    rw [hr]
    refine ⟨iff_of_false (by simp) fun h => h.2 h.1, fun _ _ => rfl, fun session h => ?_⟩
    exact absurd h (by simp)
  · have hr : r = (.ok session, ⟨store.keys.erase keyId⟩) := hr
    rw [hr]
    refine ⟨iff_of_true ⟨session, rfl⟩ ⟨?_, ?_⟩, fun e h => absurd h (by simp), ?_⟩
    · exact (BTreeMap.mem_iff_get? _ _).mpr ⟨key, hstored⟩
    · exact fun h => ((BTreeMap.mem_erase_iff _ _ _).mp h).1 rfl
    · intro session' h
      obtain rfl := Except.ok.inj h
      exact ⟨rfl, key, hstored, hmatch, hroot⟩

/-- **The store is transactional.**  After any calls on a new store the keys inserted under an id
    are those consumed, in order, and the one that is present; a call that returns `Err` changes
    nothing and consumes nothing, and one that returns `Ok` inserts its key or consumes the key
    stored under its id.  On any store, a response with a one-time prekey removes the prekey if and
    only if it returns `Ok`, and then its root is derived from the stored key, whose public part is
    the expected one. -/
theorem one_time_prekeys_transactional {ε ρ : Type} (from' : PreKeyStoreError → ε)
    (ops : List (OneTimePrekeyOp x ε ρ)) :
    let s := after (oneTimePrekeyStep from') OneTimePrekeyStore.new ops
    (∀ keyId, putIn keyId (movements from' .new ops) =
      takenFrom keyId (movements from' .new ops) ++ (s.keys[keyId]?).toList) ∧
    (∀ op : OneTimePrekeyOp x ε ρ, (oneTimePrekeyStep from' s op).1.isOk = false →
      (oneTimePrekeyStep from' s op).2 = s ∧ moved from' s op = none) ∧
    (∀ op : OneTimePrekeyOp x ε ρ, (oneTimePrekeyStep from' s op).1.isOk = true →
      (∃ key, op = .insert key ∧ moved from' s op = some (.put key.keyId key)) ∨
      ∃ key, s.keys[op.keyId]? = some key ∧ Consumes op key (oneTimePrekeyStep from' s op).1 ∧
        moved from' s op = some (.taken op.keyId key)) ∧
    ∀ (hkdf : Hkdf) (identity : IdentityKey x) (signedPrekey : SignedPrekey x)
      (store : OneTimePrekeyStore x) (keyId : UInt32) (expectedPublic : Key32)
      (ownDeviceId peerDeviceId : Id16) (peerAgreementKey peerEphemeral : Key32),
      let r := respondWithOneTimePrekeyStore hkdf identity signedPrekey store
        (some (keyId, expectedPublic)) ownDeviceId peerDeviceId peerAgreementKey peerEphemeral
      ((∃ session, r.1 = .ok session) ↔ keyId ∈ store.keys ∧ keyId ∉ r.2.keys) ∧
      (∀ e, r.1 = .error e → r.2 = store) ∧
      ∀ session, r.1 = .ok session → r.2.keys = store.keys.erase keyId ∧
        ∃ key, store.keys[keyId]? = some key ∧ key.publicKey = expectedPublic ∧
          agreedRoot hkdf (responderSecrets identity signedPrekey (some (keyId, key))
            peerAgreementKey peerEphemeral) peerDeviceId ownDeviceId peerEphemeral =
              .ok session.root := by
  intro s
  refine ⟨?_, fun op herror => ?_, fun op hok => ?_, fun hkdf identity signedPrekey store keyId
    expectedPublic ownDeviceId peerDeviceId peerAgreementKey peerEphemeral => ?_⟩
  · have hnone : (fun keyId : UInt32 => (OneTimePrekeyStore.new (x := x)).keys[keyId]?) =
        fun _ => none := by
      funext keyId
      simp [OneTimePrekeyStore.new]
    have hstart :
        Conserved [] fun keyId : UInt32 => (OneTimePrekeyStore.new (x := x)).keys[keyId]? :=
      hnone ▸ Conserved.empty
    exact conserved_run hstart ops
  · rcases oneTimePrekeyStep_cases from' s op with
      ⟨-, hsame⟩ | ⟨key, -, -, hstep⟩ | ⟨key, -, hok, -⟩
    · exact ⟨hsame, moved_of_error herror⟩
    · rw [hstep] at herror
      exact absurd herror (by simp [OneTimePrekeyAnswer.isOk, Except.isOk, Except.toBool])
    · exact absurd hok (by simp [herror])
  · rcases oneTimePrekeyStep_cases from' s op with
      ⟨herror, -⟩ | ⟨key, rfl, -, hstep⟩ | ⟨key, hstored, -, hconsumes, -⟩
    · exact absurd hok (by simp [herror])
    · exact Or.inl ⟨key, rfl, by unfold moved; rw [hstep]; rfl⟩
    · exact Or.inr ⟨key, hstored, hconsumes, moved_of_consumes hstored hok hconsumes⟩
  · exact respond_consumes hkdf identity signedPrekey store keyId expectedPublic ownDeviceId
      peerDeviceId peerAgreementKey peerEphemeral

end NexaMessenger.Session
