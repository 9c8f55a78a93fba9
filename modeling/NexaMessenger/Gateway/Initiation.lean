import NexaMessenger.Gateway.Reservations
import NexaMessenger.Session.Agreement
import NexaMessenger.Signing

namespace NexaMessenger.Gateway

open Lib Identity NexaMessenger.Session

/-!
# Gateway — what is published can be used

The gateway checks a publication before it serves it, and an initiator checks the bundle again
before it computes a secret, each with its own code.  `usable_of_valid` says that the second check
never fails after the first one: an initiator that is given a published bundle, with or without a
claim on one of its one-time prekeys, fails at most on a shared secret or on the derivation.
-/

/-- The record of a bundle's signed prekey, as an initiator takes it from the bundle. -/
def bundleRecord (bundle : PreKeyBundle) : SignedPrekeyRecord :=
  ⟨bundle.signedPrekeyId, bundle.signedPrekey, bundle.identityAgreementKey,
    bundle.signedPrekeySignature⟩

/-- The failures of `initiate` that blame its bundle, the record or the one-time prekey. -/
def BlamesBundle : SessionError → Prop
  | .protocolVersion | .invalidBundle _ | .invalidPeerIdentity | .invalidSignedPrekey
  | .invalidOneTimePrekey => True
  | .invalidSharedSecret | .keyDerivation | .preKeyStore _ => False

/-- No initiator finds a fault with the bundle and the one-time prekey. -/
def Usable (ed : Ed25519) (bundle : PreKeyBundle) (oneTimePrekey : Option (UInt32 × Key32)) :
    Prop :=
  ∀ (x : X25519) (signer : Signer) (hkdf : Hkdf) (identity : IdentityKey x) (ownDeviceId : Id16)
    (ephemeral : InitiatorEphemeral x) (error : SessionError),
    initiate ed signer hkdf identity ownDeviceId ephemeral bundle (bundleRecord bundle)
      oneTimePrekey = .error error → ¬ BlamesBundle error

/-- What is derived from accepted inputs fails on a secret or in the derivation. -/
theorem agreedRoot_error {hkdf : Hkdf} {secrets : List Key32} {initiator responder : Id16}
    {ephemeral : Key32} {error : SessionError}
    (h : agreedRoot hkdf secrets initiator responder ephemeral = .error error) :
    error = .invalidSharedSecret ∨ error = .keyDerivation := by
  unfold agreedRoot at h
  split at h
  · exact Or.inl (Except.error.inj h).symm
  split at h
  · exact Or.inr (Except.error.inj h).symm
  · exact absurd h (by simp)

theorem usable_of_acceptable {ed : Ed25519} {bundle : PreKeyBundle}
    {oneTimePrekey : Option (UInt32 × Key32)}
    (h : Acceptable ed bundle (bundleRecord bundle) oneTimePrekey) :
    Usable ed bundle oneTimePrekey := by
  intro x signer hkdf identity ownDeviceId ephemeral error herror
  obtain ⟨init, hinitiate⟩ :=
    @initiate_eq x hkdf ed signer identity ownDeviceId ephemeral bundle _ oneTimePrekey h
  rw [hinitiate] at herror
  cases hroot : agreedRoot hkdf (initiatorSecrets identity ephemeral bundle oneTimePrekey)
      ownDeviceId bundle.deviceId ephemeral.publicKey with
  | ok root =>
    rw [hroot] at herror
    exact absurd herror (by simp [Except.map])
  | error e =>
    rw [hroot] at herror
    obtain rfl := Except.error.inj herror
    rcases agreedRoot_error hroot with rfl | rfl <;> exact id

/-- A valid publication has a bundle that initiators accept, with any one-time prekey it lists. -/
theorem acceptable_of_valid {ed : Ed25519} {p : PreKeyPublication} {device : Id16} {now : UInt64}
    (h : Valid ed p device now) {oneTimePrekey : Option (UInt32 × Key32)}
    (hlisted : ∀ otp, oneTimePrekey = some otp → ⟨otp.1, otp.2⟩ ∈ p.bundle.oneTimePrekeys) :
    Acceptable ed p.bundle (bundleRecord p.bundle) oneTimePrekey := by
  -- both sides check the same bytes under the same key
  have hsigned := h.signedPrekey
  rw [verifySignedPrekey_eq, Bool.and_eq_true] at hsigned
  exact ⟨version_of_validate h.bundle, h.bundle, hsigned.1, rfl, hsigned.2, rfl, rfl, hlisted⟩

/-- **A valid publication is usable**, with any one-time prekey that it lists. -/
theorem usable_of_valid {ed : Ed25519} {p : PreKeyPublication} {device : Id16} {now : UInt64}
    (h : Valid ed p device now) {oneTimePrekey : Option (UInt32 × Key32)}
    (hlisted : ∀ otp, oneTimePrekey = some otp → ⟨otp.1, otp.2⟩ ∈ p.bundle.oneTimePrekeys) :
    Usable ed p.bundle oneTimePrekey :=
  usable_of_acceptable (acceptable_of_valid h hlisted)

/-- A claim on a stored publication is of a one-time prekey that it lists. -/
theorem listed_of_claimed {ed : Ed25519} {ops : List RegistryOp} {call : ClaimCall}
    {p : PreKeyPublication} {c : OpkClaim}
    (hstored : (after (registryStep ed) PreKeyRegistry.empty ops).publications.lookup
      call.recipient = some p)
    (hclaim : ((after (registryStep ed) PreKeyRegistry.empty ops).claimOpk call).1 = .ok c) :
    (∃ device now, Valid ed p device now) ∧ ⟨c.keyId, c.publicKey⟩ ∈ p.bundle.oneTimePrekeys := by
  let s := after (registryStep ed) PreKeyRegistry.empty ops
  have hpublished := run_published ed ops
  obtain ⟨⟨p', hclaimable⟩, hslot, -⟩ := slot_of_claimed hclaim
  obtain rfl : p = p' := Option.some.inj (hstored.symm.trans hclaimable.stored)
  obtain ⟨a, ha, hdevice, rfl⟩ := hpublished.exists_acceptance hclaimable
  refine ⟨⟨a.device, a.time, hpublished.valid a ha⟩, ?_⟩
  -- the claim stands in the slot of the call, and what stands in a slot was listed
  have hrun : after (registryStep ed) PreKeyRegistry.empty (ops ++ [.claimOpk call]) =
      (s.claimOpk call).2 := by
    rw [after_concat, registryStep_claimOpk]
  rw [← hrun] at hslot
  obtain ⟨b, hb, hbdevice, hbgeneration, hlisted⟩ :=
    run_listed ed (ops ++ [.claimOpk call]) call.claimKey c hslot
  obtain ⟨hkey, -⟩ := (run_recorded ed (ops ++ [.claimOpk call])).consistent.claim _ _ hslot
  obtain ⟨hrecipient, hgeneration, -⟩ := ClaimKey.mk.inj hkey
  -- the publication it was listed in is the stored one
  have ha' : a ∈ acceptances (trace (registryStep ed) PreKeyRegistry.empty
      (ops ++ [.claimOpk call])) := by
    rw [trace_concat, acceptances, List.filterMap_append]
    exact List.mem_append_left _ ha
  obtain rfl : b = a := (run_published ed (ops ++ [.claimOpk call])).acceptance_unique ha' hb
    (by rw [hbdevice, hdevice, hrecipient])
    (by rw [hbgeneration, hclaimable.current, hgeneration])
  obtain ⟨key, hfind, hpublic⟩ := Option.map_eq_some_iff.mp hlisted
  have hid : key.keyId = c.keyId := by simpa using List.find?_some hfind
  rw [← hid, ← hpublic]
  exact List.mem_of_find?_eq_some hfind

/-- **Whatever the gateway publishes, a client can use.**  No initiator finds a fault with the
    bundle of a publication that `validate` accepts, nor with that of a stored publication together
    with a one-time prekey that `claim_opk` answers for it. -/
theorem published_bundles_usable (ed : Ed25519) :
    (∀ p device now, PreKeyPublication.validate ed p device now = .ok () →
      Usable ed p.bundle none) ∧
    ∀ ops call p c, let s := after (registryStep ed) PreKeyRegistry.empty ops
      s.publications.lookup call.recipient = some p → (s.claimOpk call).1 = .ok c →
        Usable ed p.bundle none ∧ Usable ed p.bundle (some (c.keyId, c.publicKey)) := by
  refine ⟨fun p device now h => ?_, fun ops call p c => ?_⟩
  · exact usable_of_valid (valid_of_validate h) fun otp h => absurd h (by simp)
  · intro s hstored hclaim
    obtain ⟨⟨device, now, hvalid⟩, hlisted⟩ := listed_of_claimed hstored hclaim
    refine ⟨usable_of_valid hvalid fun otp h => absurd h (by simp), usable_of_valid hvalid ?_⟩
    intro otp h
    obtain rfl := Option.some.inj h
    exact hlisted

/-- The sample publication is accepted, stored and claimed, and initiators can use it. -/
theorem sample_bundle_usable :
    Usable sampleEd25519 (samplePublication 1).bundle none ∧
      Usable sampleEd25519 (samplePublication 1).bundle (some (9, Vector.replicate 32 5)) := by
  obtain ⟨hpublished, hclaimed⟩ := published_bundles_usable sampleEd25519
  have hvalid : (samplePublication 1).validate sampleEd25519 (Vector.replicate 16 7) 0 = .ok () :=
    signPublication_validate (p := ⟨(samplePublication 0).bundle, 1, 0, 60000, zeros 64⟩)
      (by decide +kernel) samplePublication_signedPrekey rfl rfl
  have hstored : (after (registryStep sampleEd25519) PreKeyRegistry.empty
      [.publish (Vector.replicate 16 7) (samplePublication 1) 0]).publications.lookup
        (sampleClaim 1 8 9).recipient = some (samplePublication 1) := by
    rw [after_cons, registryStep_samplePublication rfl (by simp [PreKeyRegistry.empty])]
    exact AList.lookup_insert _
  have hclaim : ((after (registryStep sampleEd25519) PreKeyRegistry.empty
      [.publish (Vector.replicate 16 7) (samplePublication 1) 0]).claimOpk
        (sampleClaim 1 8 9)).1 = .ok ((sampleClaim 1 8 9).claim (Vector.replicate 32 5)) := by
    rw [after_cons, registryStep_samplePublication rfl (by simp [PreKeyRegistry.empty])]
    decide +kernel
  exact ⟨hpublished _ _ _ hvalid, (hclaimed _ _ _ _ hstored hclaim).2⟩

end NexaMessenger.Gateway
