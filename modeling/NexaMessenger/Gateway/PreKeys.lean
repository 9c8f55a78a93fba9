import NexaMessenger.Lib.Machine
import NexaMessenger.Lib.Word
import NexaMessenger.Lib.HashMap
import NexaMessenger.Crypto

namespace NexaMessenger.Gateway

open Lib

/-!
# Gateway — the registry of published prekeys

The gateway's `PreKeyRegistry`: one signed publication per device, the devices that revoked,
and two tables of claims of one-time prekeys, by the slot `(device, generation, key id)` that
is claimed and by the request that claims it.

A call holds the mutex from its first read of the tables to its last write, so the registry is
a machine (`registryStep`).  Clock readings are part of the input, as in the source, where
the handlers read the clock.
-/

/-- `PUBLICATION_DOMAIN`. -/
def publicationDomain : Bytes := ascii "M/PREKEY-PUBLICATION/v1"

/-- The domain of the signature over a signed prekey. -/
def signedPrekeyDomain : Bytes := ascii "NEXA/SPK/v2"

/-- `MAX_LIFETIME_MS`: thirty days. -/
def maxLifetimeMs : UInt64 := 30 * 24 * 60 * 60 * 1000

/-- `MAX_CLOCK_SKEW_MS`: five minutes. -/
def maxClockSkewMs : UInt64 := 5 * 60 * 1000

structure PreKeyPublication where
  bundle : PreKeyBundle
  generation : UInt64
  issuedAtMs : UInt64
  expiresAtMs : UInt64
  signature : U8Array 64
deriving DecidableEq, Repr

inductive PublicationError
  | invalidBundle | invalidVersion | invalidTime | expired | tooLong | invalidSignature
  | wrongDevice | staleGeneration | notFound | alreadyRevoked | alreadyClaimed
  | invalidRequest | poisoned
deriving DecidableEq, Repr

/-! ### Publications -/

namespace PreKeyPublication

/-- `PreKeyPublication::signing_bytes`. -/
def signingBytes (p : PreKeyPublication) : Bytes :=
  let b := p.bundle
  publicationDomain ++ toBe 2 b.protocolVersion.value.toNat ++ b.deviceId.toList ++
    b.identitySigningKey.toList ++ b.identityAgreementKey.toList ++
    toBe 4 b.signedPrekeyId.toNat ++ b.signedPrekey.toList ++ b.signedPrekeySignature.toList ++
    beBytes p.generation ++ beBytes p.issuedAtMs ++ beBytes p.expiresAtMs ++
    toBe 4 (b.oneTimePrekeys.length % 2 ^ 32) ++
    b.oneTimePrekeys.flatMap fun key => toBe 4 key.keyId.toNat ++ key.publicKey.toList

/-- `PreKeyPublication::verify_signature`. -/
def verifySignature (ed : Ed25519) (p : PreKeyPublication) : Bool :=
  ed.isKey p.bundle.identitySigningKey &&
    ed.verify p.bundle.identitySigningKey p.signingBytes p.signature

end PreKeyPublication

/-- `verify_signed_prekey`. -/
def verifySignedPrekey (ed : Ed25519) (bundle : PreKeyBundle) : Bool :=
  ed.isKey bundle.identitySigningKey &&
    ed.verify bundle.identitySigningKey
      (signedPrekeyDomain ++ toBe 4 bundle.signedPrekeyId.toNat ++ bundle.signedPrekey.toList ++
        bundle.identityAgreementKey.toList)
      bundle.signedPrekeySignature

/-- `PreKeyPublication::validate`. -/
def PreKeyPublication.validate (ed : Ed25519) (p : PreKeyPublication) (expectedDevice : Id16)
    (nowMs : UInt64) : Except PublicationError Unit :=
  match p.bundle.validate with
  | .error _ => .error .invalidBundle
  | .ok () =>
    if p.bundle.protocolVersion.value ≠ protocolVersion then .error .invalidVersion
    else if p.bundle.deviceId ≠ expectedDevice then .error .wrongDevice
    else if satAdd nowMs maxClockSkewMs < p.issuedAtMs ∨ p.expiresAtMs ≤ p.issuedAtMs then
      .error .invalidTime
    else if maxLifetimeMs < satSub p.expiresAtMs p.issuedAtMs then .error .tooLong
    else if p.expiresAtMs ≤ nowMs then .error .expired
    else if !p.verifySignature ed || !verifySignedPrekey ed p.bundle then .error .invalidSignature
    else .ok ()

/-! ### The registry -/

structure OpkClaim where
  requestId : Id16
  claimantDevice : Id16
  recipientDevice : Id16
  generation : UInt64
  keyId : UInt32
  publicKey : Key32
deriving DecidableEq, Repr

structure ClaimKey where
  device : Id16
  generation : UInt64
  keyId : UInt32
deriving DecidableEq, Repr

structure RequestKey where
  claimant : Id16
  requestId : Id16
deriving DecidableEq, Repr

/-- `RegistryState`, the state behind the lock of a `PreKeyRegistry`. -/
structure PreKeyRegistry where
  publications : HashMap Id16 PreKeyPublication
  revoked : HashMap Id16 UInt64
  claims : HashMap ClaimKey OpkClaim
  requests : HashMap RequestKey ClaimKey

namespace PreKeyRegistry

/-- `PreKeyRegistry::default()`. -/
def empty : PreKeyRegistry := ⟨∅, ∅, ∅, ∅⟩

/-- `PreKeyRegistry::publish`. -/
def publish (ed : Ed25519) (s : PreKeyRegistry) (expectedDevice : Id16)
    (publication : PreKeyPublication) (nowMs : UInt64) :
    Except PublicationError Unit × PreKeyRegistry :=
  let device := publication.bundle.deviceId
  match publication.validate ed expectedDevice nowMs with
  | .error e => (.error e, s)
  | .ok () =>
    if (s.revoked.lookup device).isSome then (.error .alreadyRevoked, s)
    else
      match s.publications.lookup device with
      | some current =>
        if publication.generation ≤ current.generation then (.error .staleGeneration, s)
        else (.ok (), { s with publications := s.publications.insert device publication })
      | none => (.ok (), { s with publications := s.publications.insert device publication })

/-- `PreKeyRegistry::revoke`. -/
def revoke (s : PreKeyRegistry) (device : Id16) (generation nowMs : UInt64) :
    Except PublicationError Unit × PreKeyRegistry :=
  match s.publications.lookup device with
  | none => (.error .notFound, s)
  | some current =>
    if current.generation ≠ generation then (.error .staleGeneration, s)
    else if (s.revoked.lookup device).isSome then (.error .alreadyRevoked, s)
    else (.ok (), { s with revoked := s.revoked.insert device nowMs })

/-- `PreKeyRegistry::get_active`. -/
def getActive (s : PreKeyRegistry) (device : Id16) (nowMs : UInt64) : Option PreKeyPublication :=
  if (s.revoked.lookup device).isSome then none
  else (s.publications.lookup device).filter fun publication => nowMs < publication.expiresAtMs

end PreKeyRegistry

/-- The public key a bundle lists under a key id. -/
def listedKey (bundle : PreKeyBundle) (keyId : UInt32) : Option Key32 :=
  (bundle.oneTimePrekeys.find? fun key => key.keyId = keyId).map (·.publicKey)

/-- The arguments of a `claim_opk` call. -/
structure ClaimCall where
  recipient : Id16
  generation : UInt64
  keyId : UInt32
  claimant : Id16
  requestId : Id16
  nowMs : UInt64
deriving DecidableEq, Repr

/-- The slot a call is about. -/
def ClaimCall.claimKey (call : ClaimCall) : ClaimKey :=
  ⟨call.recipient, call.generation, call.keyId⟩

def ClaimCall.requestKey (call : ClaimCall) : RequestKey := ⟨call.claimant, call.requestId⟩

/-- The claim a call makes on a slot that lists `publicKey`. -/
def ClaimCall.claim (call : ClaimCall) (publicKey : Key32) : OpkClaim where
  requestId := call.requestId
  claimantDevice := call.claimant
  recipientDevice := call.recipient
  generation := call.generation
  keyId := call.keyId
  publicKey := publicKey

/-- `PreKeyRegistry::claim_opk`. -/
def PreKeyRegistry.claimOpk (s : PreKeyRegistry) (call : ClaimCall) :
    Except PublicationError OpkClaim × PreKeyRegistry :=
  if call.requestId = zeros 16 then (.error .invalidRequest, s)
  else if (s.revoked.lookup call.recipient).isSome then (.error .notFound, s)
  else
    match s.publications.lookup call.recipient with
    | none => (.error .notFound, s)
    | some publication =>
      if publication.expiresAtMs ≤ call.nowMs then (.error .notFound, s)
      else if publication.generation ≠ call.generation then (.error .staleGeneration, s)
      else
        match s.claims.lookup call.claimKey with
        | some existing =>
          -- a retry of the request that holds the slot gets its claim again
          if existing.claimantDevice = call.claimant ∧ existing.requestId = call.requestId then
            (.ok existing, s)
          else (.error .alreadyClaimed, s)
        | none =>
          if (s.requests.lookup call.requestKey).isSome then (.error .invalidRequest, s)
          else
            match listedKey publication.bundle call.keyId with
            | none => (.error .notFound, s)
            | some publicKey =>
              (.ok (call.claim publicKey),
                { s with claims := s.claims.insert call.claimKey (call.claim publicKey)
                         requests := s.requests.insert call.requestKey call.claimKey })

/-! ### The registry as a machine -/

inductive RegistryOp
  | publish (expectedDevice : Id16) (publication : PreKeyPublication) (nowMs : UInt64)
  | revoke (device : Id16) (generation nowMs : UInt64)
  | getActive (device : Id16) (nowMs : UInt64)
  | claimOpk (call : ClaimCall)
deriving DecidableEq, Repr

inductive RegistryAnswer
  | published (result : Except PublicationError Unit)
  | revoked (result : Except PublicationError Unit)
  | active (publication : Option PreKeyPublication)
  | claimed (result : Except PublicationError OpkClaim)

def registryStep (ed : Ed25519) (s : PreKeyRegistry) : RegistryOp → RegistryAnswer × PreKeyRegistry
  | .publish expectedDevice publication nowMs =>
    let (r, s') := s.publish ed expectedDevice publication nowMs; (.published r, s')
  | .revoke device generation nowMs =>
    let (r, s') := s.revoke device generation nowMs; (.revoked r, s')
  | .getActive device nowMs => (.active (s.getActive device nowMs), s)
  | .claimOpk call => let (r, s') := s.claimOpk call; (.claimed r, s')

section
variable (ed : Ed25519) (s : PreKeyRegistry)

@[simp] theorem registryStep_publish (expectedDevice : Id16) (publication : PreKeyPublication)
    (nowMs : UInt64) :
    registryStep ed s (.publish expectedDevice publication nowMs) =
      (.published (s.publish ed expectedDevice publication nowMs).1,
        (s.publish ed expectedDevice publication nowMs).2) := rfl

@[simp] theorem registryStep_revoke (device : Id16) (generation nowMs : UInt64) :
    registryStep ed s (.revoke device generation nowMs) =
      (.revoked (s.revoke device generation nowMs).1, (s.revoke device generation nowMs).2) := rfl

@[simp] theorem registryStep_getActive (device : Id16) (nowMs : UInt64) :
    registryStep ed s (.getActive device nowMs) = (.active (s.getActive device nowMs), s) := rfl

@[simp] theorem registryStep_claimOpk (call : ClaimCall) :
    registryStep ed s (.claimOpk call) = (.claimed (s.claimOpk call).1, (s.claimOpk call).2) := rfl

end

/-! ### What each call can do -/

/-- A publication that `publish` takes: it is valid for its device, the device has not revoked,
    and its generation is above the stored one. -/
structure Accepts (ed : Ed25519) (s : PreKeyRegistry) (expectedDevice : Id16)
    (publication : PreKeyPublication) (nowMs : UInt64) : Prop where
  valid : publication.validate ed expectedDevice nowMs = .ok ()
  unrevoked : s.revoked.lookup publication.bundle.deviceId = none
  newer : ∀ current, s.publications.lookup publication.bundle.deviceId = some current →
    current.generation < publication.generation

/-- A `publish` either fails and changes nothing, or takes the publication. -/
theorem publish_cases (ed : Ed25519) (s : PreKeyRegistry) (expectedDevice : Id16)
    (publication : PreKeyPublication) (nowMs : UInt64) :
    (∃ e, s.publish ed expectedDevice publication nowMs = (.error e, s)) ∨
    (Accepts ed s expectedDevice publication nowMs ∧
      s.publish ed expectedDevice publication nowMs =
        (.ok (), { s with publications :=
          s.publications.insert publication.bundle.deviceId publication })) := by
  have hopen := PreKeyRegistry.publish.eq_1 ed s expectedDevice publication nowMs
  cases hvalid : publication.validate ed expectedDevice nowMs with
  | error e => exact .inl ⟨e, by simp only [hopen, hvalid]⟩
  | ok =>
    simp only [hvalid] at hopen
    by_cases hrevoked : (s.revoked.lookup publication.bundle.deviceId).isSome
    · exact .inl ⟨_, by rw [hopen, if_pos hrevoked]⟩
    have hnone := Option.not_isSome_iff_eq_none.mp hrevoked
    rw [if_neg hrevoked] at hopen
    cases hcurrent : s.publications.lookup publication.bundle.deviceId with
    | none =>
      refine .inr ⟨⟨hvalid, hnone, ?_⟩, by rw [hopen, hcurrent]⟩
      intro current h
      rw [hcurrent] at h
      exact absurd h (by simp)
    | some current =>
      simp only [hcurrent] at hopen
      -- the generation has to be larger than the stored one
      by_cases hstale : publication.generation ≤ current.generation
      · exact .inl ⟨_, by rw [hopen, if_pos hstale]⟩
      · refine .inr ⟨⟨hvalid, hnone, ?_⟩, by rw [hopen, if_neg hstale]⟩
        intro c h
        obtain rfl : current = c := Option.some.inj (hcurrent.symm.trans h)
        exact UInt64.not_le.mp hstale

theorem Accepts.publish {ed : Ed25519} {s : PreKeyRegistry} {device : Id16}
    {p : PreKeyPublication} {nowMs : UInt64} (h : Accepts ed s device p nowMs) :
    s.publish ed device p nowMs =
      (.ok (), { s with publications := s.publications.insert p.bundle.deviceId p }) := by
  unfold PreKeyRegistry.publish
  dsimp only
  rw [h.valid, h.unrevoked]
  cases hcurrent : s.publications.lookup p.bundle.deviceId with
  | none => rfl
  | some current =>
    have hnewer := UInt64.not_le.mpr (h.newer current hcurrent)
    simp [hnewer]

/-- A `revoke` fails and changes nothing, or marks a device that has a publication. -/
theorem revoke_cases (s : PreKeyRegistry) (device : Id16) (generation nowMs : UInt64) :
    (∃ e, s.revoke device generation nowMs = (.error e, s)) ∨
    ((∃ current, s.publications.lookup device = some current ∧
        current.generation = generation) ∧
      s.revoked.lookup device = none ∧
      s.revoke device generation nowMs =
        (.ok (), { s with revoked := s.revoked.insert device nowMs })) := by
  unfold PreKeyRegistry.revoke
  cases hcurrent : s.publications.lookup device with
  | none => exact .inl ⟨.notFound, rfl⟩
  | some current =>
    by_cases hgen : current.generation = generation
    · by_cases hrevoked : (s.revoked.lookup device).isSome
      · exact .inl ⟨.alreadyRevoked, by simp [hgen, hrevoked]⟩
      · exact .inr ⟨⟨current, rfl, hgen⟩, Option.not_isSome_iff_eq_none.mp hrevoked, by
          simp [hgen, hrevoked]⟩
    · exact .inl ⟨.staleGeneration, by simp [hgen]⟩

/-- The call finds a publication it may claim from: the request id is not zero, the device has
    not revoked, and its publication has not expired and is of the generation asked for. -/
structure Claimable (s : PreKeyRegistry) (call : ClaimCall) (publication : PreKeyPublication) :
    Prop where
  request : call.requestId ≠ zeros 16
  unrevoked : s.revoked.lookup call.recipient = none
  stored : s.publications.lookup call.recipient = some publication
  unexpired : call.nowMs < publication.expiresAtMs
  current : publication.generation = call.generation

/-- The call reserves a slot: nobody holds it, the request id is new for the claimant, and the
    publication lists `publicKey` there. -/
structure Reserves (s : PreKeyRegistry) (call : ClaimCall) (publicKey : Key32) : Prop where
  claimable : ∃ publication, Claimable s call publication ∧
    listedKey publication.bundle call.keyId = some publicKey
  slot : s.claims.lookup call.claimKey = none
  unused : s.requests.lookup call.requestKey = none

/-- The registry after a call has reserved a slot. -/
def PreKeyRegistry.reserve (s : PreKeyRegistry) (call : ClaimCall) (publicKey : Key32) :
    PreKeyRegistry :=
  { s with claims := s.claims.insert call.claimKey (call.claim publicKey)
           requests := s.requests.insert call.requestKey call.claimKey }

/-- A `claim_opk` fails and changes nothing, or repeats a claim, or reserves a slot. -/
theorem claimOpk_cases (s : PreKeyRegistry) (call : ClaimCall) :
    (∃ e, s.claimOpk call = (.error e, s)) ∨
    (∃ publication existing, Claimable s call publication ∧
      s.claims.lookup call.claimKey = some existing ∧
      existing.claimantDevice = call.claimant ∧ existing.requestId = call.requestId ∧
      s.claimOpk call = (.ok existing, s)) ∨
    (∃ publicKey, Reserves s call publicKey ∧
      s.claimOpk call = (.ok (call.claim publicKey), s.reserve call publicKey)) := by
  have hopen := PreKeyRegistry.claimOpk.eq_1 s call
  -- the checks before the tables of claims are read
  by_cases hrequest : call.requestId = zeros 16
  · exact .inl ⟨.invalidRequest, by rw [hopen, if_pos hrequest]⟩
  by_cases hrevoked : (s.revoked.lookup call.recipient).isSome
  · exact .inl ⟨.notFound, by rw [hopen, if_neg hrequest, if_pos hrevoked]⟩
  rw [if_neg hrequest, if_neg hrevoked] at hopen
  cases hstored : s.publications.lookup call.recipient with
  | none => exact .inl ⟨.notFound, by rw [hopen, hstored]⟩
  | some publication =>
    simp only [hstored] at hopen
    by_cases hexpired : publication.expiresAtMs ≤ call.nowMs
    · exact .inl ⟨.notFound, by rw [hopen, if_pos hexpired]⟩
    by_cases hgen : publication.generation ≠ call.generation
    · exact .inl ⟨.staleGeneration, by rw [hopen, if_neg hexpired, if_pos hgen]⟩
    rw [if_neg hexpired, if_neg hgen] at hopen
    have hclaimable : Claimable s call publication :=
      ⟨hrequest, Option.not_isSome_iff_eq_none.mp hrevoked, hstored,
        UInt64.not_le.mp hexpired, not_not.mp hgen⟩
    cases hslot : s.claims.lookup call.claimKey with
    | some existing =>
      simp only [hslot] at hopen
      -- a slot that is taken is answered to the request that holds it only
      by_cases hsame : existing.claimantDevice = call.claimant ∧
          existing.requestId = call.requestId
      · exact .inr (.inl ⟨publication, existing, hclaimable, rfl, hsame.1, hsame.2, by
          rw [hopen, if_pos hsame]⟩)
      · exact .inl ⟨.alreadyClaimed, by rw [hopen, if_neg hsame]⟩
    | none =>
      simp only [hslot] at hopen
      -- a free slot needs a request that holds no other
      by_cases hused : (s.requests.lookup call.requestKey).isSome
      · exact .inl ⟨.invalidRequest, by rw [hopen, if_pos hused]⟩
      rw [if_neg hused] at hopen
      cases hlisted : listedKey publication.bundle call.keyId with
      | none => exact .inl ⟨.notFound, by rw [hopen, hlisted]⟩
      | some publicKey =>
        refine .inr (.inr ⟨publicKey, ⟨⟨publication, hclaimable, hlisted⟩, hslot,
          Option.not_isSome_iff_eq_none.mp hused⟩, ?_⟩)
        rw [hopen, hlisted]
        rfl

end NexaMessenger.Gateway
