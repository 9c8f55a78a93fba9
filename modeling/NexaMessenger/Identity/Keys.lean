import NexaMessenger.Lib.BTreeMap
import NexaMessenger.Crypto

namespace NexaMessenger.Identity

open Lib

/-!
# Identity — the keys of a device

The key types of the identity crate: a device's identity key, its signed prekey, one-time prekeys
and the records that publish them.  A key pair carries the proof that its public key is the one
of its secret, so a pair that does not match cannot be built.

`OneTimePrekeyStore` keeps one-time prekeys by id; `withMatching` uses one up only when the
operation it is for succeeds.  Its lock is never poisoned: nothing under it panics.
-/

/-! ### Key pairs -/

/-- An X25519 secret with its public key. -/
structure KeyPair (x : X25519) where
  secret : Key32
  publicKey : Key32
  publicKey_eq : publicKey = x.publicKey secret

/-- `diffie_hellman` of each of the key types. -/
def KeyPair.diffieHellman {x : X25519} (k : KeyPair x) (peerPublic : Key32) : Key32 :=
  x.diffieHellman k.secret peerPublic

/-- `IdentityKey`: an Ed25519 key for signatures and an X25519 pair for agreement. -/
structure IdentityKey (x : X25519) where
  signingKey : Key32
  agreement : KeyPair x

structure SignedPrekey (x : X25519) extends KeyPair x

structure OneTimePrekey (x : X25519) extends KeyPair x where
  keyId : UInt32

namespace IdentityKey

variable {x : X25519}

/-- `IdentityKey::public_key`. -/
def publicKey (signer : Signer) (identity : IdentityKey x) : Key32 :=
  signer.verifyingKey identity.signingKey

/-- `IdentityKey::sign`. -/
def sign (signer : Signer) (identity : IdentityKey x) (message : Bytes) : U8Array 64 :=
  signer.sign identity.signingKey message

/-- `IdentityKey::agreement_public_key`. -/
def agreementPublicKey (identity : IdentityKey x) : Key32 := identity.agreement.publicKey

/-- `IdentityKey::agreement_diffie_hellman`. -/
def agreementDiffieHellman (identity : IdentityKey x) (peerPublic : Key32) : Key32 :=
  identity.agreement.diffieHellman peerPublic

end IdentityKey

/-- Two pairs agree. -/
theorem KeyPair.diffieHellman_comm {x : X25519} (h : x.Commutes) (k k' : KeyPair x) :
    k.diffieHellman k'.publicKey = k'.diffieHellman k.publicKey := by
  unfold KeyPair.diffieHellman
  rw [k'.publicKey_eq, k.publicKey_eq]
  exact h k.secret k'.secret

/-! ### Signed prekeys -/

structure SignedPrekeyRecord where
  keyId : UInt32
  publicKey : Key32
  agreementPublicKey : Key32
  signature : U8Array 64
deriving DecidableEq, Repr

/-- The domain of the signature over a signed prekey. -/
def signedPrekeyDomain : Bytes := ascii "NEXA/SPK/v2"

namespace SignedPrekeyRecord

/-- `SignedPrekeyRecord::signing_bytes`. -/
def signingBytes (keyId : UInt32) (publicKey agreementPublicKey : Key32) : Bytes :=
  signedPrekeyDomain ++ toBe 4 keyId.toNat ++ publicKey.toList ++ agreementPublicKey.toList

/-- `SignedPrekeyRecord::verify`. -/
def verify (ed : Ed25519) (record : SignedPrekeyRecord) (identityPublic : Key32) : Bool :=
  ed.verify identityPublic
    (signingBytes record.keyId record.publicKey record.agreementPublicKey) record.signature

end SignedPrekeyRecord

/-- `publishable_signed_prekey`. -/
def publishableSignedPrekey {x : X25519} (signer : Signer) (identity : IdentityKey x)
    (keyId : UInt32) (prekey : SignedPrekey x) : SignedPrekeyRecord where
  keyId := keyId
  publicKey := prekey.publicKey
  agreementPublicKey := identity.agreementPublicKey
  signature := identity.sign signer
    (SignedPrekeyRecord.signingBytes keyId prekey.publicKey identity.agreementPublicKey)

/-- A published record verifies under the identity that published it. -/
theorem publishable_verifies {x : X25519} {ed : Ed25519} {signer : Signer} (h : ed.Accepts signer)
    (identity : IdentityKey x) (keyId : UInt32) (prekey : SignedPrekey x) :
    (publishableSignedPrekey signer identity keyId prekey).verify ed
      (identity.publicKey signer) = true :=
  (h identity.signingKey _).2

/-! ### One-time prekeys -/

inductive PreKeyStoreError
  | duplicateKeyId | notFound | publicKeyMismatch | poisoned
deriving DecidableEq, Repr

/-- `OneTimePrekeyStore`: the map behind its lock. -/
structure OneTimePrekeyStore (x : X25519) where
  keys : BTreeMap UInt32 (OneTimePrekey x)

/-- `OneTimePrekeyStore::with_matching`: the key is removed if the operation succeeds. -/
def OneTimePrekeyStore.withMatching {x : X25519} {ρ ε : Type} (store : OneTimePrekeyStore x)
    (keyId : UInt32) (expectedPublic : Key32) (from' : PreKeyStoreError → ε)
    (operation : OneTimePrekey x → Except ε ρ) : Except ε ρ × OneTimePrekeyStore x :=
  match store.keys[keyId]? with
  | none => (.error (from' .notFound), store)
  | some key =>
    if key.publicKey ≠ expectedPublic then (.error (from' .publicKeyMismatch), store)
    else
      match operation key with
      | .error e => (.error e, store)
      | .ok result => (.ok result, ⟨store.keys.erase keyId⟩)

end NexaMessenger.Identity
