import NexaMessenger.Protocol

namespace NexaMessenger

open Lib

/-!
# Crypto — the primitives the code is built on

HKDF-SHA256, ChaCha20-Poly1305, SHA-256, Ed25519 and X25519 come from third-party crates.  They
are parameters of everything that uses them, with the interface the code calls; what a result
needs to know of them it states as a hypothesis.
-/

/-- `Hkdf::<Sha256>::new(Some(salt), ikm).expand(info, out)` for a 32-byte `out`. -/
structure Hkdf where
  expand (salt ikm info : Bytes) : Option Key32

/-- The same for a 64-byte `out`. -/
structure Hkdf64 where
  expand (salt ikm info : Bytes) : Option (U8Array 64)

/-- `ChaCha20Poly1305` under a key: `encrypt` and `decrypt` of a `Payload { msg, aad }`. -/
structure Aead where
  encrypt (key : Key32) (nonce : U8Array 12) (msg aad : Bytes) : Option Bytes
  decrypt (key : Key32) (nonce : U8Array 12) (msg aad : Bytes) : Option Bytes

/-- `Sha256::digest`. -/
structure Sha256 where
  digest (data : Bytes) : Key32

/-- Ed25519 verification: `isKey` says whether `VerifyingKey::from_bytes` succeeds, `verify`
    whether that key's `verify` does. -/
structure Ed25519 where
  isKey (key : Key32) : Bool
  verify (key : Key32) (msg : Bytes) (signature : U8Array 64) : Bool

/-- The secret side of Ed25519: `verifyingKey` of a `SigningKey`, and `sign`. -/
structure Signer where
  verifyingKey (secret : Key32) : Key32
  sign (secret : Key32) (msg : Bytes) : U8Array 64

/-- X25519: `PublicKey::from` a secret, and `diffie_hellman` of a secret and a public key. -/
structure X25519 where
  publicKey (secret : Key32) : Key32
  diffieHellman (secret publicKey : Key32) : Key32

/-! ### What is assumed of them -/

/-- The keys of the signer are keys, and verification accepts their signatures. -/
def Ed25519.Accepts (ed : Ed25519) (signer : Signer) : Prop :=
  ∀ secret msg, ed.isKey (signer.verifyingKey secret) = true ∧
    ed.verify (signer.verifyingKey secret) msg (signer.sign secret msg) = true

/-- Both parties compute the same shared secret. -/
def X25519.Commutes (x : X25519) : Prop :=
  ∀ a b, x.diffieHellman a (x.publicKey b) = x.diffieHellman b (x.publicKey a)

/-- What was sealed opens under the same key, nonce and associated data. -/
def Aead.OpensOwn (aead : Aead) : Prop :=
  ∀ key nonce msg aad body, aead.encrypt key nonce msg aad = some body →
    aead.decrypt key nonce body aad = some msg

/-- 32 bytes are never too many. -/
def Hkdf.Total (hkdf : Hkdf) : Prop := ∀ salt ikm info, (hkdf.expand salt ikm info).isSome

/-- Neither are 64. -/
def Hkdf64.Total (hkdf : Hkdf64) : Prop := ∀ salt ikm info, (hkdf.expand salt ikm info).isSome

/-! ### Sample primitives

Instances that compute, with the properties the results assume of the real ones. -/

/-- An HKDF that writes down the lengths of salt and info, and the info. -/
def sampleHkdf : Hkdf where
  expand salt _ info := some (arrayOf 32
    (UInt8.ofNat salt.length :: UInt8.ofNat info.length :: info))

/-- An HKDF that keeps the first 64 bytes of the info. -/
def sampleHkdf64 : Hkdf64 where
  expand _ _ info := some (arrayOf 64 info)

/-- An AEAD that writes the key, the associated data and its length before the message. -/
def sampleAead : Aead where
  encrypt key _ msg aad := some (key.toList ++ (beBytes (UInt64.ofNat aad.length) ++ aad ++ msg))
  decrypt key _ msg aad :=
    (key.toList ++ (beBytes (UInt64.ofNat aad.length) ++ aad)).isPrefixOf? msg

/-- A hash that keeps the first 32 bytes. -/
def sampleSha256 : Sha256 where
  digest data := arrayOf 32 data

/-- The signature of the sample scheme: the key and the last 32 bytes of the message. -/
def sampleSign (key : Key32) (msg : Bytes) : U8Array 64 :=
  arrayOf 64 (key.toList ++ msg.drop (msg.length - 32))

/-- A signature scheme whose signatures anyone can compute. -/
def sampleEd25519 : Ed25519 where
  isKey _ := true
  verify key msg signature := signature = sampleSign key msg

/-- A signer for it: the verifying key is the secret. -/
def sampleSigner : Signer where
  verifyingKey secret := secret
  sign := sampleSign

/-- Bytewise addition, which commutes; the public key is the secret. -/
def sampleX25519 : X25519 where
  publicKey secret := secret
  diffieHellman secret publicKey := Vector.zipWith (· + ·) secret publicKey

theorem sampleEd25519_verify {key : Key32} {msg : Bytes} {signature : U8Array 64}
    (h : signature = sampleSign key msg) : sampleEd25519.verify key msg signature = true := by
  simp only [sampleEd25519, h, decide_true]

theorem sampleEd25519_accepts : sampleEd25519.Accepts sampleSigner := by
  intro secret msg
  exact ⟨rfl, sampleEd25519_verify rfl⟩

theorem sampleX25519_commutes : sampleX25519.Commutes := by
  intro a b
  show Vector.zipWith (· + ·) a b = Vector.zipWith (· + ·) b a
  apply Vector.ext
  intro i hi
  rw [Vector.getElem_zipWith, Vector.getElem_zipWith, UInt8.add_comm]

theorem sampleHkdf_total : sampleHkdf.Total := by
  intro salt ikm info
  rfl

/-- Two outputs of the sample HKDF are equal for equal lengths and equal info only. -/
theorem sampleHkdf_injective {salt salt' ikm ikm' info info' : Bytes}
    (h : sampleHkdf.expand salt ikm info = sampleHkdf.expand salt' ikm' info')
    (hlen : info.length ≤ 30) (hlen' : info'.length ≤ 30) :
    UInt8.ofNat salt.length = UInt8.ofNat salt'.length ∧ info = info' := by
  have hout := Option.some.inj h
  have hget (i : Nat) (hi : i < 32) :
      (UInt8.ofNat salt.length :: UInt8.ofNat info.length :: info).getD i 0 =
        (UInt8.ofNat salt'.length :: UInt8.ofNat info'.length :: info').getD i 0 := by
    rw [← getElem_arrayOf _ i hi, ← getElem_arrayOf _ i hi, hout]
  have hsalt := hget 0 (by decide)
  have hinfo := hget 1 (by decide)
  simp only [List.getD_cons_zero, List.getD_cons_succ] at hsalt hinfo
  have hlength : info.length = info'.length := by
    have := congrArg UInt8.toNat hinfo
    rw [UInt8.toNat_ofNat', UInt8.toNat_ofNat'] at this
    omega
  refine ⟨hsalt, List.ext_getElem hlength fun i hi hi' => ?_⟩
  have := hget (i + 2) (by omega)
  simpa [List.getElem?_eq_getElem, hi, hi'] using this

/-- The sample AEAD opens exactly its own outputs. -/
theorem sampleAead_decrypt_iff {key : Key32} {nonce : U8Array 12} {body msg aad : Bytes} :
    sampleAead.decrypt key nonce body aad = some msg ↔
      sampleAead.encrypt key nonce msg aad = some body := by
  show List.isPrefixOf? _ _ = _ ↔ some _ = _
  rw [List.isPrefixOf?_eq_some_iff_append_eq, Option.some.injEq]
  simp only [List.append_assoc]

theorem sampleAead_opensOwn : sampleAead.OpensOwn :=
  fun _ _ _ _ _ h => sampleAead_decrypt_iff.mpr h

/-- What the sample AEAD opens has the associated data written in it, after key and length. -/
theorem sampleAead_decrypt_aad {key : Key32} {nonce : U8Array 12} {body msg aad : Bytes}
    (h : sampleAead.decrypt key nonce body aad = some msg) :
    (body.drop 40).take aad.length = aad := by
  obtain rfl := Option.some.inj (sampleAead_decrypt_iff.mp h)
  rw [List.drop_append, List.drop_eq_nil_of_le (by simp), Vector.length_toList, List.nil_append,
    List.append_assoc, List.drop_left' (by simp), List.take_left' rfl]

/-- No two keys or messages give the same output of the sample AEAD. -/
theorem sampleAead_encrypt_injective {key key' : Key32} {nonce nonce' : U8Array 12}
    {msg msg' aad body : Bytes} (h : sampleAead.encrypt key nonce msg aad = some body)
    (h' : sampleAead.encrypt key' nonce' msg' aad = some body) : key = key' ∧ msg = msg' := by
  have heq := Option.some.inj (h.trans h'.symm)
  obtain ⟨hkey, hrest⟩ := List.append_inj heq (by simp)
  exact ⟨Vector.toList_inj.mp hkey, List.append_cancel_left hrest⟩

end NexaMessenger
