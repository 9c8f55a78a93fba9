import NexaMessenger.Gateway.Auth
import NexaMessenger.Gateway.PreKeys
import NexaMessenger.Session.Establish

namespace NexaMessenger

open Lib Gateway Identity Session

/-!
# Signing — what a device's Ed25519 key signs

A device signs four kinds of content with one key: authenticated requests, prekey publications,
signed prekeys and session inits.  The byte strings signed start with a domain each, and no two
of them begin alike (`signingBytes_take`); within a kind every field has a fixed length or is
preceded by its length.  So equal byte strings mean equal contents (`signingBytes_injective`),
and a signature made for one is good for no other.
-/

/-- The four kinds of content that are signed. -/
inductive SignedContent
  | request (method path : Bytes) (deviceId : Id16) (publicKey : Key32) (timestampMs : UInt64)
      (nonce : Id16) (bodyHash : Key32)
  | publication (p : PreKeyPublication)
  | signedPrekey (keyId : UInt32) (publicKey agreementPublicKey : Key32)
  | sessionInit (i : SessionInit)

namespace SignedContent

/-- The byte string that is signed. -/
def signingBytes : SignedContent → Bytes
  | request method path deviceId publicKey timestampMs nonce bodyHash =>
    Auth.signingBytes method path deviceId publicKey timestampMs nonce bodyHash.toList
  | publication p => p.signingBytes
  | signedPrekey keyId publicKey agreementPublicKey =>
    SignedPrekeyRecord.signingBytes keyId publicKey agreementPublicKey
  | sessionInit i => i.signingBytes

/-- The lengths that are narrowed when they are written fit. -/
def Fits : SignedContent → Prop
  | request method path _ _ _ _ _ => method.length < 2 ^ 16 ∧ path.length < 2 ^ 32
  | publication p => p.bundle.oneTimePrekeys.length < 2 ^ 32
  | signedPrekey .. => True
  | sessionInit _ => True

/-- The signed fields: everything but the signature itself. -/
def signedFields : SignedContent → SignedContent
  | publication p => publication { p with signature := zeros 64 }
  | sessionInit i => sessionInit { i with signature := zeros 64 }
  | content => content

/-- How the byte strings of a kind begin. -/
def tag : SignedContent → Bytes
  | request .. => ascii "M/r"
  | publication _ => ascii "M/P"
  | signedPrekey .. => ascii "NEX"
  | sessionInit _ => ascii "M/S"

theorem signingBytes_take (c : SignedContent) : c.signingBytes.take 3 = c.tag := by
  cases c <;> rfl

/-! ### One kind at a time -/

theorem request_injective {method method' path path' : Bytes} {deviceId deviceId' : Id16}
    {publicKey publicKey' : Key32} {timestampMs timestampMs' : UInt64} {nonce nonce' : Id16}
    {bodyHash bodyHash' : Key32} (hmethod : method.length < 2 ^ 16)
    (hmethod' : method'.length < 2 ^ 16) (hpath : path.length < 2 ^ 32)
    (hpath' : path'.length < 2 ^ 32)
    (h : Auth.signingBytes method path deviceId publicKey timestampMs nonce bodyHash.toList =
      Auth.signingBytes method' path' deviceId' publicKey' timestampMs' nonce' bodyHash'.toList) :
    request method path deviceId publicKey timestampMs nonce bodyHash =
      request method' path' deviceId' publicKey' timestampMs' nonce' bodyHash' := by
  unfold Auth.signingBytes at h
  rw [Nat.mod_eq_of_lt hmethod, Nat.mod_eq_of_lt hmethod', Nat.mod_eq_of_lt hpath,
    Nat.mod_eq_of_lt hpath'] at h
  simp only [List.append_assoc] at h
  have h := List.append_cancel_left h
  -- each length comes before what it measures, so both byte strings are cut at the same places
  obtain ⟨hlen, h⟩ := List.append_inj h (by simp)
  obtain ⟨hsameMethod, h⟩ := List.append_inj h (toBe_injective hmethod hmethod' hlen)
  obtain ⟨hlen, h⟩ := List.append_inj h (by simp)
  obtain ⟨hsamePath, h⟩ := List.append_inj h (toBe_injective hpath hpath' hlen)
  obtain ⟨hdevice, h⟩ := List.append_inj h (by simp)
  obtain ⟨hkey, h⟩ := List.append_inj h (by simp)
  obtain ⟨htime, h⟩ := List.append_inj h (by simp)
  obtain ⟨hnonce, hbody⟩ := List.append_inj h (by simp)
  rw [hsameMethod, hsamePath, Vector.toList_inj.mp hdevice, Vector.toList_inj.mp hkey,
    beBytes_injective htime, Vector.toList_inj.mp hnonce, Vector.toList_inj.mp hbody]

/-- What a one-time prekey of a publication is written to. -/
theorem oneTimePrekey_injective : Function.Injective fun key : OneTimePrekeyPublic =>
    toBe 4 key.keyId.toNat ++ key.publicKey.toList := by
  rintro ⟨keyId, publicKey⟩ ⟨keyId', publicKey'⟩ h
  obtain ⟨hid, hkey⟩ := List.append_inj h (by simp)
  obtain rfl : keyId = keyId' := toBe_injective32 hid
  obtain rfl : publicKey = publicKey' := Vector.toList_inj.mp hkey
  rfl

theorem publication_injective {p p' : PreKeyPublication}
    (hp : p.bundle.oneTimePrekeys.length < 2 ^ 32) (hp' : p'.bundle.oneTimePrekeys.length < 2 ^ 32)
    (h : p.signingBytes = p'.signingBytes) :
    { p with signature := zeros 64 } = { p' with signature := zeros 64 } := by
  obtain ⟨⟨version, device, signing, agreement, keyId, signedPrekey, signature, keys⟩, generation,
    issued, expires, _⟩ := p
  obtain ⟨⟨version', device', signing', agreement', keyId', signedPrekey', signature', keys'⟩,
    generation', issued', expires', _⟩ := p'
  unfold PreKeyPublication.signingBytes at h
  dsimp only at hp hp' h ⊢
  rw [Nat.mod_eq_of_lt hp, Nat.mod_eq_of_lt hp'] at h
  simp only [List.append_assoc] at h
  have h := List.append_cancel_left h
  obtain ⟨hversion, h⟩ := List.append_inj h (by simp)
  obtain ⟨hdevice, h⟩ := List.append_inj h (by simp)
  obtain ⟨hsigning, h⟩ := List.append_inj h (by simp)
  obtain ⟨hagreement, h⟩ := List.append_inj h (by simp)
  obtain ⟨hkeyId, h⟩ := List.append_inj h (by simp)
  obtain ⟨hsignedPrekey, h⟩ := List.append_inj h (by simp)
  obtain ⟨hsignature, h⟩ := List.append_inj h (by simp)
  obtain ⟨hgeneration, h⟩ := List.append_inj h (by simp)
  obtain ⟨hissued, h⟩ := List.append_inj h (by simp)
  obtain ⟨hexpires, h⟩ := List.append_inj h (by simp)
  obtain ⟨hcount, hkeys⟩ := List.append_inj h (by simp)
  -- the entries of the list are of one length, and the list is as long as its count says
  have hsameKeys := flatMap_injective (n := 36) (fun key => by simp) oneTimePrekey_injective
    (toBe_injective hp hp' hcount) hkeys
  obtain ⟨version⟩ := version
  obtain ⟨version'⟩ := version'
  have hsameVersion : version = version' := toBe_injective16 hversion
  rw [hsameVersion, Vector.toList_inj.mp hdevice, Vector.toList_inj.mp hsigning,
    Vector.toList_inj.mp hagreement, toBe_injective32 hkeyId, Vector.toList_inj.mp hsignedPrekey,
    Vector.toList_inj.mp hsignature, beBytes_injective hgeneration, beBytes_injective hissued,
    beBytes_injective hexpires, hsameKeys]

theorem signedPrekey_injective {keyId keyId' : UInt32}
    {publicKey publicKey' agreement agreement' : Key32}
    (h : SignedPrekeyRecord.signingBytes keyId publicKey agreement =
      SignedPrekeyRecord.signingBytes keyId' publicKey' agreement') :
    signedPrekey keyId publicKey agreement = signedPrekey keyId' publicKey' agreement' := by
  unfold SignedPrekeyRecord.signingBytes at h
  simp only [List.append_assoc] at h
  have h := List.append_cancel_left h
  obtain ⟨hid, h⟩ := List.append_inj h (by simp)
  obtain ⟨hkey, hagreement⟩ := List.append_inj h (by simp)
  rw [toBe_injective32 hid, Vector.toList_inj.mp hkey, Vector.toList_inj.mp hagreement]

theorem sessionInit_injective {i i' : SessionInit} (h : i.signingBytes = i'.signingBytes) :
    { i with signature := zeros 64 } = { i' with signature := zeros 64 } := by
  obtain ⟨signing, agreement, ephemeral, keyId, oneTime, _⟩ := i
  obtain ⟨signing', agreement', ephemeral', keyId', oneTime', _⟩ := i'
  unfold SessionInit.signingBytes at h
  simp only [List.append_assoc] at h
  have h := List.append_cancel_left h
  obtain ⟨hsigning, h⟩ := List.append_inj h (by simp)
  obtain ⟨hagreement, h⟩ := List.append_inj h (by simp)
  obtain ⟨hephemeral, h⟩ := List.append_inj h (by simp)
  obtain ⟨hkeyId, hone⟩ := List.append_inj h (by simp)
  -- the optional id is preceded by a byte that says whether it is there
  obtain rfl : oneTime = oneTime' := by
    cases oneTime with
    | none =>
      cases oneTime' with
      | none => rfl
      | some id' => exact absurd (List.cons.inj hone).1 (by decide)
    | some id =>
      cases oneTime' with
      | none => exact absurd (List.cons.inj hone).1 (by decide)
      | some id' => rw [toBe_injective32 (List.cons.inj hone).2]
  rw [Vector.toList_inj.mp hsigning, Vector.toList_inj.mp hagreement,
    Vector.toList_inj.mp hephemeral, toBe_injective32 hkeyId]

/-! ### All kinds -/

/-- **Signatures cannot be moved.** Equal byte strings are of one kind, and equal in every signed
    field. -/
theorem signingBytes_injective {c c' : SignedContent} (hc : c.Fits) (hc' : c'.Fits)
    (h : c.signingBytes = c'.signingBytes) : c.signedFields = c'.signedFields := by
  -- the first three bytes tell the kinds apart
  have htag : c.tag = c'.tag := by
    rw [← signingBytes_take, h, signingBytes_take]
  cases c with
  | request =>
    cases c' with
    | request => exact request_injective hc.1 hc'.1 hc.2 hc'.2 h
    | publication | signedPrekey | sessionInit => exact absurd htag (by simp only [tag]; decide)
  | publication p =>
    cases c' with
    | publication p' => exact congrArg publication (publication_injective hc hc' h)
    | request | signedPrekey | sessionInit => exact absurd htag (by simp only [tag]; decide)
  | signedPrekey =>
    cases c' with
    | signedPrekey => exact signedPrekey_injective h
    | request | publication | sessionInit => exact absurd htag (by simp only [tag]; decide)
  | sessionInit i =>
    cases c' with
    | sessionInit i' => exact congrArg sessionInit (sessionInit_injective h)
    | request | publication | signedPrekey => exact absurd htag (by simp only [tag]; decide)

/-- Two requests with the same signed bytes; the second is the first. -/
theorem sample_same_request :
    (request (ascii "GET") (ascii "/v1/ws") (zeros 16) (zeros 32) 7 (zeros 16)
      (zeros 32)).signedFields =
    (request [71, 69, 84] (ascii "/v1/ws") (zeros 16) (zeros 32) 7 (zeros 16)
      (zeros 32)).signedFields :=
  signingBytes_injective ⟨by decide, by decide⟩ ⟨by decide, by decide⟩ rfl

end SignedContent

/-- The gateway checks a bundle's signed prekey against the bytes that the device signs. -/
theorem verifySignedPrekey_eq (ed : Ed25519) (bundle : PreKeyBundle) :
    verifySignedPrekey ed bundle =
      (ed.isKey bundle.identitySigningKey && SignedPrekeyRecord.verify ed
        ⟨bundle.signedPrekeyId, bundle.signedPrekey, bundle.identityAgreementKey,
          bundle.signedPrekeySignature⟩ bundle.identitySigningKey) := rfl

end NexaMessenger
