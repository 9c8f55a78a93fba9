import NexaMessenger.Identity.Keys

namespace NexaMessenger.Session

open Lib Identity

/-!
# Session — the two sides of session establishment

`initiate` and `respond` of the session crate, and `respondWithOneTimePrekeyStore`, which takes
the one-time prekey from the store.  Each side computes three or four shared secrets, refuses a
zero one, and derives the root from their concatenation.
-/

/-- `DOMAIN`. -/
def domain : Bytes := ascii "M/SESSION/v1"

/-- `INIT_DOMAIN`. -/
def initDomain : Bytes := ascii "M/SESSION-INIT/v1"

inductive SessionError
  | protocolVersion | invalidBundle (e : PreKeyBundleError) | invalidSignedPrekey
  | invalidPeerIdentity | invalidOneTimePrekey | invalidSharedSecret | keyDerivation
  | preKeyStore (e : PreKeyStoreError)
deriving DecidableEq, Repr

structure InitiatorEphemeral (x : X25519) extends KeyPair x

/-- `SessionRoot`: its bytes. -/
abbrev SessionRoot := Key32

structure SessionInit where
  identitySigningKey : Key32
  identityAgreementKey : Key32
  ephemeralPublicKey : Key32
  signedPrekeyId : UInt32
  oneTimePrekeyId : Option UInt32
  signature : U8Array 64
deriving DecidableEq, Repr

/-- `SessionInit::signing_bytes`. -/
def SessionInit.signingBytes (i : SessionInit) : Bytes :=
  initDomain ++ i.identitySigningKey.toList ++ i.identityAgreementKey.toList ++
    i.ephemeralPublicKey.toList ++ toBe 4 i.signedPrekeyId.toNat ++
    match i.oneTimePrekeyId with
    | some id => 1 :: toBe 4 id.toNat
    | none => [0]

/-- `SessionInit::verify`. -/
def SessionInit.verify (ed : Ed25519) (i : SessionInit) : Bool :=
  ed.isKey i.identitySigningKey && ed.verify i.identitySigningKey i.signingBytes i.signature

structure InitiatorSession where
  root : SessionRoot
  peerDeviceId : Id16
  usedOneTimePrekeyId : Option UInt32
  init : SessionInit
deriving DecidableEq, Repr

structure ResponderSession where
  root : SessionRoot
  peerDeviceId : Id16
  usedOneTimePrekeyId : Option UInt32
deriving DecidableEq, Repr

/-- `is_zero`. -/
def isZero (value : Key32) : Bool := value.toList.all (· = 0)

/-- `derive_root`. -/
def deriveRoot (hkdf : Hkdf) (ikm : Bytes) (initiatorDeviceId responderDeviceId : Id16)
    (ephemeralPublic : Key32) : Option SessionRoot :=
  if ikm.all (· = 0) then none
  else hkdf.expand domain ikm (toBe 2 protocolVersion.toNat ++ initiatorDeviceId.toList ++
    responderDeviceId.toList ++ ephemeralPublic.toList)

section
variable {x : X25519}

/-- `initiate`. -/
def initiate (ed : Ed25519) (signer : Signer) (hkdf : Hkdf) (ownIdentity : IdentityKey x)
    (ownDeviceId : Id16) (ownEphemeral : InitiatorEphemeral x) (bundle : PreKeyBundle)
    (signedPrekeyRecord : SignedPrekeyRecord) (oneTimePrekeyPublic : Option (UInt32 × Key32)) :
    Except SessionError InitiatorSession :=
  if bundle.protocolVersion.value ≠ protocolVersion then .error .protocolVersion
  else
  match bundle.validate with
  | .error e => .error (.invalidBundle e)
  | .ok () =>
  if !ed.isKey bundle.identitySigningKey then .error .invalidPeerIdentity
  else if bundle.identityAgreementKey ≠ signedPrekeyRecord.agreementPublicKey ∨
      !signedPrekeyRecord.verify ed bundle.identitySigningKey ∨
      signedPrekeyRecord.keyId ≠ bundle.signedPrekeyId ∨
      signedPrekeyRecord.publicKey ≠ bundle.signedPrekey then .error .invalidSignedPrekey
  else
  let dh1 := ownIdentity.agreementDiffieHellman bundle.signedPrekey
  let dh2 := ownEphemeral.diffieHellman bundle.identityAgreementKey
  let dh3 := ownEphemeral.diffieHellman bundle.signedPrekey
  if isZero dh1 || isZero dh2 || isZero dh3 then .error .invalidSharedSecret
  else
  let ikm := dh1.toList ++ dh2.toList ++ dh3.toList
  let used : Except SessionError (Option UInt32 × Bytes) :=
    match oneTimePrekeyPublic with
    | some (id, publicKey) =>
      -- only a prekey that the bundle lists is used
      if !bundle.oneTimePrekeys.any fun entry =>
          entry.keyId = id && entry.publicKey = publicKey then
        .error .invalidOneTimePrekey
      else
        let dh4 := ownEphemeral.diffieHellman publicKey
        if isZero dh4 then .error .invalidSharedSecret else .ok (some id, ikm ++ dh4.toList)
    | none => .ok (none, ikm)
  match used with
  | .error e => .error e
  | .ok (usedId, ikm) =>
  match deriveRoot hkdf ikm ownDeviceId bundle.deviceId ownEphemeral.publicKey with
  | none => .error .keyDerivation
  | some root =>
    -- the signature is over the init without it
    let init : SessionInit := ⟨ownIdentity.publicKey signer, ownIdentity.agreementPublicKey,
      ownEphemeral.publicKey, bundle.signedPrekeyId, usedId, zeros 64⟩
    .ok ⟨root, bundle.deviceId, usedId,
      { init with signature := ownIdentity.sign signer init.signingBytes }⟩

/-- `respond_inner`. -/
def respondInner (hkdf : Hkdf) (ownIdentity : IdentityKey x) (ownSignedPrekey : SignedPrekey x)
    (ownOneTimePrekey : Option (UInt32 × OneTimePrekey x)) (ownDeviceId peerDeviceId : Id16)
    (peerIdentityAgreementKey peerEphemeralPublic : Key32) :
    Except SessionError ResponderSession :=
  -- the pairs of `initiate`, each from the other side
  let dh1 := ownSignedPrekey.diffieHellman peerIdentityAgreementKey
  let dh2 := ownIdentity.agreementDiffieHellman peerEphemeralPublic
  let dh3 := ownSignedPrekey.diffieHellman peerEphemeralPublic
  if isZero dh1 || isZero dh2 || isZero dh3 then .error .invalidSharedSecret
  else
  let ikm := dh1.toList ++ dh2.toList ++ dh3.toList
  let used : Except SessionError (Option UInt32 × Bytes) :=
    match ownOneTimePrekey with
    | some (id, otp) =>
      let dh4 := otp.diffieHellman peerEphemeralPublic
      if isZero dh4 then .error .invalidSharedSecret else .ok (some id, ikm ++ dh4.toList)
    | none => .ok (none, ikm)
  match used with
  | .error e => .error e
  | .ok (usedId, ikm) =>
  match deriveRoot hkdf ikm peerDeviceId ownDeviceId peerEphemeralPublic with
  | none => .error .keyDerivation
  | some root => .ok ⟨root, peerDeviceId, usedId⟩

/-- `respond`. -/
def respond (hkdf : Hkdf) (ownIdentity : IdentityKey x) (ownSignedPrekey : SignedPrekey x)
    (ownOneTimePrekey : Option (UInt32 × OneTimePrekey x)) (ownDeviceId peerDeviceId : Id16)
    (peerIdentityAgreementKey peerEphemeralPublic : Key32) :
    Except SessionError ResponderSession :=
  respondInner hkdf ownIdentity ownSignedPrekey ownOneTimePrekey ownDeviceId peerDeviceId
    peerIdentityAgreementKey peerEphemeralPublic

/-- `respond_with_one_time_prekey_store`. -/
def respondWithOneTimePrekeyStore (hkdf : Hkdf) (ownIdentity : IdentityKey x)
    (ownSignedPrekey : SignedPrekey x) (store : OneTimePrekeyStore x)
    (oneTimePrekey : Option (UInt32 × Key32)) (ownDeviceId peerDeviceId : Id16)
    (peerIdentityAgreementKey peerEphemeralPublic : Key32) :
    Except SessionError ResponderSession × OneTimePrekeyStore x :=
  match oneTimePrekey with
  | some (id, publicKey) =>
    store.withMatching id publicKey .preKeyStore fun otp =>
      respondInner hkdf ownIdentity ownSignedPrekey (some (id, otp)) ownDeviceId peerDeviceId
        peerIdentityAgreementKey peerEphemeralPublic
  | none =>
    (respond hkdf ownIdentity ownSignedPrekey none ownDeviceId peerDeviceId
      peerIdentityAgreementKey peerEphemeralPublic, store)

end

end NexaMessenger.Session
