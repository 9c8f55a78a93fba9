import NexaMessenger.Session.Establish

namespace NexaMessenger.Session

open Lib Identity

/-!
# Session — both sides derive one root

What a side does once its inputs are accepted depends on the list of shared secrets, the two
device ids and the ephemeral key only: it is `agreedRoot`.  `initiate_eq` and `respondInner_eq`
say so for the two sides, each with the secrets it computes itself; as X25519 commutes these are
the same secrets, in the same order.
-/

/-- The root of a list of shared secrets. -/
def agreedRoot (hkdf : Hkdf) (secrets : List Key32) (initiatorDeviceId responderDeviceId : Id16)
    (ephemeralPublic : Key32) : Except SessionError SessionRoot :=
  if secrets.any isZero then .error .invalidSharedSecret
  else
    match deriveRoot hkdf (secrets.flatMap (·.toList)) initiatorDeviceId responderDeviceId
      ephemeralPublic with
    | none => .error .keyDerivation
    | some root => .ok root

/-- A first secret that is not zero keeps the key material from being zero. -/
theorem deriveRoot_isSome {hkdf : Hkdf} (htotal : hkdf.Total) {dh : Key32} {rest : List Key32}
    (hdh : isZero dh = false) (initiatorDeviceId responderDeviceId : Id16)
    (ephemeralPublic : Key32) :
    (deriveRoot hkdf ((dh :: rest).flatMap (·.toList)) initiatorDeviceId responderDeviceId
      ephemeralPublic).isSome := by
  -- one byte that is not zero is enough
  have hikm : ((dh :: rest).flatMap (·.toList)).all (· = 0) = false := by
    rw [List.flatMap_cons, List.all_append]
    rw [isZero] at hdh
    rw [hdh, Bool.false_and]
  rw [deriveRoot, hikm]
  exact htotal _ _ _

/-- The root is derived, unless a secret is zero. -/
theorem agreedRoot_cases {hkdf : Hkdf} (htotal : hkdf.Total) (dh : Key32) (rest : List Key32)
    (initiatorDeviceId responderDeviceId : Id16) (ephemeralPublic : Key32) :
    (∃ root, agreedRoot hkdf (dh :: rest) initiatorDeviceId responderDeviceId ephemeralPublic =
      .ok root) ∨
    agreedRoot hkdf (dh :: rest) initiatorDeviceId responderDeviceId ephemeralPublic =
      .error .invalidSharedSecret := by
  unfold agreedRoot
  by_cases hzero : (dh :: rest).any isZero = true
  · rw [if_pos hzero]
    exact .inr rfl
  · rw [if_neg hzero]
    left
    have hdh : isZero dh = false := by
      rw [List.any_cons, Bool.or_eq_true, not_or] at hzero
      exact Bool.not_eq_true _ ▸ hzero.1
    obtain ⟨root, hroot⟩ := Option.isSome_iff_exists.mp (@deriveRoot_isSome hkdf htotal dh rest hdh
      initiatorDeviceId responderDeviceId ephemeralPublic)
    rw [hroot]
    exact ⟨root, rfl⟩

section
variable {ρ : Type} (hkdf : Hkdf) (dh1 dh2 dh3 : Key32) (initiatorDeviceId responderDeviceId : Id16)
  (ephemeralPublic : Key32) (session : SessionRoot → ρ)

/-- The session of a side, once the root is derived. -/
def withRoot (ikm : Bytes) : Except SessionError ρ :=
  match deriveRoot hkdf ikm initiatorDeviceId responderDeviceId ephemeralPublic with
  | none => .error .keyDerivation
  | some root => .ok (session root)

/-- A side without a one-time prekey derives the root of three secrets. -/
theorem agreedRoot_three :
    (if isZero dh1 || isZero dh2 || isZero dh3 then .error .invalidSharedSecret
      else withRoot hkdf initiatorDeviceId responderDeviceId ephemeralPublic session
        (dh1.toList ++ dh2.toList ++ dh3.toList)) =
    (agreedRoot hkdf [dh1, dh2, dh3] initiatorDeviceId responderDeviceId ephemeralPublic).map
      session := by
  have hsame : [dh1, dh2, dh3].any isZero = (isZero dh1 || isZero dh2 || isZero dh3) := by
    simp [Bool.or_assoc]
  have hikm : [dh1, dh2, dh3].flatMap (·.toList) = dh1.toList ++ dh2.toList ++ dh3.toList := by
    simp
  rw [agreedRoot, hsame, hikm, withRoot]
  split
  · rfl
  · cases deriveRoot hkdf (dh1.toList ++ dh2.toList ++ dh3.toList) initiatorDeviceId
      responderDeviceId ephemeralPublic <;> rfl

/-- A side with a one-time prekey derives the root of four. -/
theorem agreedRoot_four (dh4 : Key32) :
    (if isZero dh1 || isZero dh2 || isZero dh3 then .error .invalidSharedSecret
      else if isZero dh4 then .error .invalidSharedSecret
      else withRoot hkdf initiatorDeviceId responderDeviceId ephemeralPublic session
        (dh1.toList ++ dh2.toList ++ dh3.toList ++ dh4.toList)) =
    (agreedRoot hkdf [dh1, dh2, dh3, dh4] initiatorDeviceId responderDeviceId
      ephemeralPublic).map session := by
  have hsame : [dh1, dh2, dh3, dh4].any isZero =
      ((isZero dh1 || isZero dh2 || isZero dh3) || isZero dh4) := by
    simp [Bool.or_assoc]
  have hikm : [dh1, dh2, dh3, dh4].flatMap (·.toList) =
      dh1.toList ++ dh2.toList ++ dh3.toList ++ dh4.toList := by
    simp
  rw [agreedRoot, hsame, hikm, withRoot]
  -- the code looks at the fourth secret only when the first three are not zero
  cases isZero dh1 || isZero dh2 || isZero dh3
  · cases isZero dh4
    · cases deriveRoot hkdf (dh1.toList ++ dh2.toList ++ dh3.toList ++ dh4.toList)
        initiatorDeviceId responderDeviceId ephemeralPublic <;> rfl
    · rfl
  · rfl

end

section
variable {x : X25519} {hkdf : Hkdf}

/-! ### The two sides -/

/-- The secrets of a responder. -/
def responderSecrets (identity : IdentityKey x) (signedPrekey : SignedPrekey x)
    (oneTimePrekey : Option (UInt32 × OneTimePrekey x)) (peerAgreementKey peerEphemeral : Key32) :
    List Key32 :=
  [signedPrekey.diffieHellman peerAgreementKey, identity.agreementDiffieHellman peerEphemeral,
    signedPrekey.diffieHellman peerEphemeral] ++
  (oneTimePrekey.map fun otp => otp.2.diffieHellman peerEphemeral).toList

/-- The secrets of an initiator. -/
def initiatorSecrets (identity : IdentityKey x) (ephemeral : InitiatorEphemeral x)
    (bundle : PreKeyBundle) (oneTimePrekeyPublic : Option (UInt32 × Key32)) : List Key32 :=
  [identity.agreementDiffieHellman bundle.signedPrekey,
    ephemeral.diffieHellman bundle.identityAgreementKey,
    ephemeral.diffieHellman bundle.signedPrekey] ++
  (oneTimePrekeyPublic.map fun otp => ephemeral.diffieHellman otp.2).toList

theorem respondInner_eq (identity : IdentityKey x) (signedPrekey : SignedPrekey x)
    (oneTimePrekey : Option (UInt32 × OneTimePrekey x)) (ownDeviceId peerDeviceId : Id16)
    (peerAgreementKey peerEphemeral : Key32) :
    respondInner hkdf identity signedPrekey oneTimePrekey ownDeviceId peerDeviceId peerAgreementKey
      peerEphemeral =
    (agreedRoot hkdf (responderSecrets identity signedPrekey oneTimePrekey peerAgreementKey
      peerEphemeral) peerDeviceId ownDeviceId peerEphemeral).map fun root =>
        ⟨root, peerDeviceId, oneTimePrekey.map (·.1)⟩ := by
  cases oneTimePrekey with
  | none =>
    exact agreedRoot_three hkdf _ _ _ _ _ _ fun root => ResponderSession.mk root peerDeviceId none
  | some otp =>
    obtain ⟨id, otp⟩ := otp
    refine Eq.trans ?_ (agreedRoot_four hkdf _ _ _ _ _ _
      (fun root => ResponderSession.mk root peerDeviceId (some id))
      (otp.diffieHellman peerEphemeral))
    unfold respondInner
    dsimp only
    split
    · rfl
    · cases isZero (otp.diffieHellman peerEphemeral) <;> rfl

/-- A valid bundle is of the protocol's version, so the two checks of an initiator are one. -/
theorem version_of_validate {bundle : PreKeyBundle} (h : bundle.validate = .ok ()) :
    bundle.protocolVersion.value = protocolVersion := by
  unfold PreKeyBundle.validate at h
  split at h
  · exact absurd h (by simp)
  · rename_i hversion
    exact not_not.mp hversion

/-- What an initiator has checked before it computes a secret. -/
structure Acceptable (ed : Ed25519) (bundle : PreKeyBundle) (record : SignedPrekeyRecord)
    (oneTimePrekeyPublic : Option (UInt32 × Key32)) : Prop where
  version : bundle.protocolVersion.value = protocolVersion
  valid : bundle.validate = .ok ()
  isKey : ed.isKey bundle.identitySigningKey = true
  agreement : bundle.identityAgreementKey = record.agreementPublicKey
  verifies : record.verify ed bundle.identitySigningKey = true
  keyId : record.keyId = bundle.signedPrekeyId
  publicKey : record.publicKey = bundle.signedPrekey
  listed : ∀ otp, oneTimePrekeyPublic = some otp → ⟨otp.1, otp.2⟩ ∈ bundle.oneTimePrekeys

theorem initiate_eq {ed : Ed25519} (signer : Signer) (identity : IdentityKey x)
    (ownDeviceId : Id16) (ephemeral : InitiatorEphemeral x) {bundle : PreKeyBundle}
    {record : SignedPrekeyRecord} {oneTimePrekeyPublic : Option (UInt32 × Key32)}
    (h : Acceptable ed bundle record oneTimePrekeyPublic) :
    ∃ init, initiate ed signer hkdf identity ownDeviceId ephemeral bundle record
      oneTimePrekeyPublic =
    (agreedRoot hkdf (initiatorSecrets identity ephemeral bundle oneTimePrekeyPublic) ownDeviceId
      bundle.deviceId ephemeral.publicKey).map fun root =>
        ⟨root, bundle.deviceId, oneTimePrekeyPublic.map (·.1), init⟩ := by
  let unsigned : SessionInit := ⟨identity.publicKey signer, identity.agreementPublicKey,
    ephemeral.publicKey, bundle.signedPrekeyId, oneTimePrekeyPublic.map (·.1), zeros 64⟩
  let init := { unsigned with signature := identity.sign signer unsigned.signingBytes }
  refine ⟨init, ?_⟩
  unfold initiate
  -- the checks pass, so what is left is the derivation
  have hrecord : ¬ (bundle.identityAgreementKey ≠ record.agreementPublicKey ∨
      (!record.verify ed bundle.identitySigningKey) = true ∨ record.keyId ≠ bundle.signedPrekeyId ∨
      record.publicKey ≠ bundle.signedPrekey) := by
    simp [h.agreement, h.verifies, h.keyId, h.publicKey]
  rw [if_neg (not_not.mpr h.version), h.valid]
  dsimp only
  rw [if_neg (by simp [h.isKey]), if_neg hrecord]
  cases oneTimePrekeyPublic with
  | none =>
    exact agreedRoot_three hkdf _ _ _ _ _ _ fun root =>
      InitiatorSession.mk root bundle.deviceId none init
  | some otp =>
    obtain ⟨id, publicKey⟩ := otp
    -- the one-time prekey is on the list of the bundle
    have hlisted : (bundle.oneTimePrekeys.any fun entry =>
        entry.keyId = id && entry.publicKey = publicKey) = true := by
      rw [List.any_eq_true]
      exact ⟨_, h.listed _ rfl, by simp⟩
    refine Eq.trans ?_ (agreedRoot_four hkdf _ _ _ _ _ _
      (fun root => InitiatorSession.mk root bundle.deviceId (some id) init)
      (ephemeral.diffieHellman publicKey))
    dsimp only
    rw [hlisted]
    split
    · rfl
    · cases isZero (ephemeral.diffieHellman publicKey) <;> rfl

/-! ### Agreement -/

/-- A bundle advertises the public keys of a responder, and his one-time prekey if there is one. -/
structure Advertises (signer : Signer) (bundle : PreKeyBundle) (deviceId : Id16)
    (identity : IdentityKey x) (keyId : UInt32) (signedPrekey : SignedPrekey x)
    (oneTimePrekey : Option (UInt32 × OneTimePrekey x)) : Prop where
  device : bundle.deviceId = deviceId
  signingKey : bundle.identitySigningKey = identity.publicKey signer
  agreementKey : bundle.identityAgreementKey = identity.agreementPublicKey
  keyId : bundle.signedPrekeyId = keyId
  signedPrekey : bundle.signedPrekey = signedPrekey.publicKey
  oneTimePrekey : ∀ otp, oneTimePrekey = some otp →
    ⟨otp.1, otp.2.publicKey⟩ ∈ bundle.oneTimePrekeys

/-- Both sides end with one root and one used prekey, or both refuse a zero secret. -/
def Agree (initiated : Except SessionError InitiatorSession)
    (responded : Except SessionError ResponderSession) : Prop :=
  (∃ i r, initiated = .ok i ∧ responded = .ok r ∧ i.root = r.root ∧
    i.usedOneTimePrekeyId = r.usedOneTimePrekeyId) ∨
  (initiated = .error .invalidSharedSecret ∧ responded = .error .invalidSharedSecret)

/-- A valid bundle of a responder and the record he published are acceptable. -/
theorem Advertises.acceptable {ed : Ed25519} {signer : Signer} (haccepts : ed.Accepts signer)
    {bundle : PreKeyBundle} {deviceId : Id16} {identity : IdentityKey x} {keyId : UInt32}
    {signedPrekey : SignedPrekey x} {oneTimePrekey : Option (UInt32 × OneTimePrekey x)}
    (h : Advertises signer bundle deviceId identity keyId signedPrekey oneTimePrekey)
    (hvalid : bundle.validate = .ok ()) :
    Acceptable ed bundle (publishableSignedPrekey signer identity keyId signedPrekey)
      (oneTimePrekey.map fun otp => (otp.1, otp.2.publicKey)) where
  version := version_of_validate hvalid
  valid := hvalid
  isKey := by
    rw [h.signingKey]
    exact (haccepts identity.signingKey []).1
  agreement := h.agreementKey
  verifies := by
    rw [h.signingKey]
    exact publishable_verifies haccepts identity keyId signedPrekey
  keyId := h.keyId.symm
  publicKey := h.signedPrekey.symm
  listed := by
    intro otp hotp
    obtain ⟨own, hown, rfl⟩ := Option.map_eq_some_iff.mp hotp
    exact h.oneTimePrekey own hown

/-- Both sides compute the same secrets, in the same order. -/
theorem secrets_agree (hx : x.Commutes) {signer : Signer} (initiator : IdentityKey x)
    (ephemeral : InitiatorEphemeral x) {bundle : PreKeyBundle} {deviceId : Id16}
    {responder : IdentityKey x} {keyId : UInt32} {signedPrekey : SignedPrekey x}
    {oneTimePrekey : Option (UInt32 × OneTimePrekey x)}
    (h : Advertises signer bundle deviceId responder keyId signedPrekey oneTimePrekey) :
    initiatorSecrets initiator ephemeral bundle
      (oneTimePrekey.map fun otp => (otp.1, otp.2.publicKey)) =
    responderSecrets responder signedPrekey oneTimePrekey initiator.agreementPublicKey
      ephemeral.publicKey := by
  -- each secret of the initiator is the one that the responder computes with its own key
  have hown (k : KeyPair x) : ephemeral.diffieHellman k.publicKey =
      k.diffieHellman ephemeral.publicKey := KeyPair.diffieHellman_comm hx _ _
  unfold initiatorSecrets responderSecrets
  rw [h.signedPrekey, h.agreementKey, hown signedPrekey.toKeyPair]
  rw [show initiator.agreementDiffieHellman signedPrekey.publicKey =
    signedPrekey.diffieHellman initiator.agreementPublicKey from
      KeyPair.diffieHellman_comm hx initiator.agreement signedPrekey.toKeyPair]
  rw [show ephemeral.diffieHellman responder.agreementPublicKey =
    responder.agreementDiffieHellman ephemeral.publicKey from hown responder.agreement]
  congr 2
  rw [Option.map_map]
  cases oneTimePrekey with
  | none => rfl
  | some otp => exact congrArg some (hown otp.2.toKeyPair)

/-- What the two sides derive from the same secrets agrees. -/
theorem agree_of_root (htotal : hkdf.Total) (dh : Key32) (rest : List Key32)
    (initiatorDeviceId responderDeviceId : Id16) (ephemeralPublic : Key32)
    (used : Option UInt32) (init : SessionInit) (peer peer' : Id16) :
    Agree
      ((agreedRoot hkdf (dh :: rest) initiatorDeviceId responderDeviceId ephemeralPublic).map
        fun root => ⟨root, peer, used, init⟩)
      ((agreedRoot hkdf (dh :: rest) initiatorDeviceId responderDeviceId ephemeralPublic).map
        fun root => ⟨root, peer', used⟩) := by
  rcases agreedRoot_cases htotal dh rest initiatorDeviceId responderDeviceId ephemeralPublic with
    ⟨root, hroot⟩ | hzero
  · rw [hroot]
    exact .inl ⟨_, _, rfl, rfl, rfl, rfl⟩
  · rw [hzero]
    exact .inr ⟨rfl, rfl⟩

/-- A store that has the prekey responds as `respond` does with it. -/
theorem respondWithOneTimePrekeyStore_fst (identity : IdentityKey x)
    (signedPrekey : SignedPrekey x) {store : OneTimePrekeyStore x}
    {oneTimePrekey : Option (UInt32 × OneTimePrekey x)}
    (hstore : ∀ otp, oneTimePrekey = some otp → store.keys[otp.1]? = some otp.2)
    (ownDeviceId peerDeviceId : Id16) (peerAgreementKey peerEphemeral : Key32) :
    (respondWithOneTimePrekeyStore hkdf identity signedPrekey store
      (oneTimePrekey.map fun otp => (otp.1, otp.2.publicKey)) ownDeviceId peerDeviceId
      peerAgreementKey peerEphemeral).1 =
    respond hkdf identity signedPrekey oneTimePrekey ownDeviceId peerDeviceId peerAgreementKey
      peerEphemeral := by
  cases oneTimePrekey with
  | none => rfl
  | some otp =>
    obtain ⟨id, otp⟩ := otp
    have hkey : store.keys[id]? = some otp := hstore _ rfl
    show (store.withMatching id otp.publicKey _ _).1 = respondInner _ _ _ _ _ _ _ _
    rw [OneTimePrekeyStore.withMatching, hkey]
    dsimp only
    rw [if_neg (not_not.mpr rfl)]
    cases respondInner hkdf identity signedPrekey (some (id, otp)) ownDeviceId peerDeviceId
      peerAgreementKey peerEphemeral <;> rfl

/-- **Initiator and responder agree**, with a one-time prekey and without, whether the responder
    has it at hand or in its store. -/
theorem sides_agree {ed : Ed25519} {signer : Signer} (hx : x.Commutes)
    (haccepts : ed.Accepts signer) (htotal : hkdf.Total) (initiator : IdentityKey x)
    (ephemeral : InitiatorEphemeral x) (responder : IdentityKey x) (signedPrekey : SignedPrekey x)
    (keyId : UInt32) (oneTimePrekey : Option (UInt32 × OneTimePrekey x))
    (store : OneTimePrekeyStore x) (initiatorDeviceId responderDeviceId : Id16)
    (bundle : PreKeyBundle) (hvalid : bundle.validate = .ok ())
    (hbundle : Advertises signer bundle responderDeviceId responder keyId signedPrekey
      oneTimePrekey)
    (hstore : ∀ otp, oneTimePrekey = some otp → store.keys[otp.1]? = some otp.2) :
    let onePublic := oneTimePrekey.map fun otp => (otp.1, otp.2.publicKey)
    let initiated := initiate ed signer hkdf initiator initiatorDeviceId ephemeral bundle
      (publishableSignedPrekey signer responder keyId signedPrekey) onePublic
    Agree initiated (respond hkdf responder signedPrekey oneTimePrekey responderDeviceId
      initiatorDeviceId initiator.agreementPublicKey ephemeral.publicKey) ∧
    Agree initiated (respondWithOneTimePrekeyStore hkdf responder signedPrekey store onePublic
      responderDeviceId initiatorDeviceId initiator.agreementPublicKey ephemeral.publicKey).1 := by
  have hagree : Agree
      (initiate ed signer hkdf initiator initiatorDeviceId ephemeral bundle
        (publishableSignedPrekey signer responder keyId signedPrekey)
        (oneTimePrekey.map fun otp => (otp.1, otp.2.publicKey)))
      (respond hkdf responder signedPrekey oneTimePrekey responderDeviceId initiatorDeviceId
        initiator.agreementPublicKey ephemeral.publicKey) := by
    -- both sides are the derivation of one root from one list of secrets
    obtain ⟨init, hinitiate⟩ := @initiate_eq x hkdf ed signer initiator initiatorDeviceId ephemeral
      _ _ _ (hbundle.acceptable haccepts hvalid)
    rw [hinitiate, respond, respondInner_eq, secrets_agree hx initiator ephemeral hbundle,
      hbundle.device, Option.map_map]
    exact agree_of_root htotal _ _ _ _ _ _ init _ _
  refine ⟨hagree, ?_⟩
  -- the store answers as `respond` does with the key it holds
  rw [respondWithOneTimePrekeyStore_fst responder signedPrekey hstore]
  exact hagree

end

/-! ### A run with the sample primitives -/

/-- The pair of the secret that repeats one byte. -/
def samplePair (b : UInt8) : KeyPair sampleX25519 := ⟨Vector.replicate 32 b, _, rfl⟩

def sampleIdentity (b : UInt8) : IdentityKey sampleX25519 := ⟨Vector.replicate 32 b, samplePair b⟩

def sampleOneTimePrekey : OneTimePrekey sampleX25519 := { samplePair 4 with keyId := 9 }

def sampleStore : OneTimePrekeyStore sampleX25519 :=
  ⟨(∅ : BTreeMap UInt32 (OneTimePrekey sampleX25519)).insert 9 sampleOneTimePrekey⟩

/-- The bundle of the identity of twos with the signed prekey of threes. -/
def sampleBundle : PreKeyBundle where
  protocolVersion := ⟨1⟩
  deviceId := Vector.replicate 16 7
  identitySigningKey := Vector.replicate 32 2
  identityAgreementKey := Vector.replicate 32 2
  signedPrekeyId := 5
  signedPrekey := Vector.replicate 32 3
  signedPrekeySignature := zeros 64
  oneTimePrekeys := [⟨9, Vector.replicate 32 4⟩]

theorem sampleBundle_advertises : Advertises sampleSigner sampleBundle (Vector.replicate 16 7)
    (sampleIdentity 2) 5 ⟨samplePair 3⟩ (some (9, sampleOneTimePrekey)) := by
  refine ⟨rfl, rfl, rfl, rfl, rfl, ?_⟩
  intro otp hotp
  obtain rfl := Option.some.inj hotp
  exact List.mem_singleton.mpr rfl

/-- The sides agree on a session with the one-time prekey of fours. -/
theorem sample_sides_agree :
    Agree
      (initiate sampleEd25519 sampleSigner sampleHkdf (sampleIdentity 1) (Vector.replicate 16 6)
        ⟨samplePair 8⟩ sampleBundle
        (publishableSignedPrekey sampleSigner (sampleIdentity 2) 5 ⟨samplePair 3⟩)
        (some (9, Vector.replicate 32 4)))
      (respondWithOneTimePrekeyStore sampleHkdf (sampleIdentity 2) ⟨samplePair 3⟩ sampleStore
        (some (9, Vector.replicate 32 4)) (Vector.replicate 16 7) (Vector.replicate 16 6)
        (Vector.replicate 32 1) (Vector.replicate 32 8)).1 := by
  refine (sides_agree sampleX25519_commutes sampleEd25519_accepts sampleHkdf_total
    (sampleIdentity 1) ⟨samplePair 8⟩ (sampleIdentity 2) ⟨samplePair 3⟩ 5
    (some (9, sampleOneTimePrekey)) sampleStore _ _ sampleBundle (by decide +kernel)
    sampleBundle_advertises ?_).2
  intro otp hotp
  obtain rfl := Option.some.inj hotp
  show sampleStore.keys[(9 : UInt32)]? = _
  rw [sampleStore, BTreeMap.get?_insert, if_pos rfl]

end NexaMessenger.Session
