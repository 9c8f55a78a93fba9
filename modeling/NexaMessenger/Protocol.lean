import NexaMessenger.Lib.Cursor
import Mathlib.Data.Finset.Insert

namespace NexaMessenger

open Lib

/-!
# Protocol types — what devices and gateway exchange

The server-facing types of the protocol crate: the encrypted message with its binary
encoding, the ratchet header that carries a message counter, and the prekey bundle with the
checks it passes before it is accepted or published.

`usize` is 64 bits wide and modelled by `Nat`; `usizeMax` is its largest value.
-/

/-- A 16-byte device, message or conversation id. -/
abbrev Id16 := U8Array 16

/-- A 32-byte key. -/
abbrev Key32 := U8Array 32

/-- `[0; n]`. -/
def zeros (n : Nat) : U8Array n := Vector.replicate n 0

/-- `usize::MAX`. -/
def usizeMax : Nat := 2 ^ 64 - 1

/-- `PROTOCOL_VERSION`. -/
def protocolVersion : UInt16 := 1

structure ProtocolVersion where
  value : UInt16
deriving DecidableEq, Repr

/-! ### Encrypted messages -/

structure EncryptedMessage where
  version : ProtocolVersion
  messageId : Id16
  conversationId : Id16
  senderDeviceId : Id16
  recipientDeviceId : Id16
  ratchetHeader : Bytes
  ciphertext : Bytes
  sentAtMs : UInt64
deriving DecidableEq, Repr

inductive MessageCodecError
  | truncated | invalidVersion | lengthOverflow | lengthMismatch | trailingBytes
deriving DecidableEq, Repr

/-- `read_u16`. -/
def readU16 (bytes : Bytes) : Cursor MessageCodecError UInt16 :=
  (fun b => UInt16.ofNat (ofBe b)) <$> Cursor.take usizeMax .truncated .panic bytes 2

/-- `read_u32`. -/
def readU32 (bytes : Bytes) : Cursor MessageCodecError UInt32 :=
  (fun b => UInt32.ofNat (ofBe b)) <$> Cursor.take usizeMax .truncated .panic bytes 4

/-- `read_u64`. -/
def readU64 (bytes : Bytes) : Cursor MessageCodecError UInt64 :=
  ofBeBytes <$> Cursor.take usizeMax .truncated .panic bytes 8

/-- `read_array_16`. -/
def readArray16 (bytes : Bytes) : Cursor MessageCodecError Id16 :=
  arrayOf 16 <$> Cursor.take usizeMax .truncated .panic bytes 16

/-- `read_vec`, the one read that checks its sum of indices. -/
def readVec (bytes : Bytes) (len : Nat) : Cursor MessageCodecError Bytes :=
  Cursor.take usizeMax .truncated (.error .lengthOverflow) bytes len

namespace EncryptedMessage

/-- `EncryptedMessage::new`. -/
def new (messageId conversationId senderDeviceId recipientDeviceId : Id16)
    (ratchetHeader ciphertext : Bytes) (sentAtMs : UInt64) : EncryptedMessage where
  version := ⟨protocolVersion⟩
  messageId := messageId
  conversationId := conversationId
  senderDeviceId := senderDeviceId
  recipientDeviceId := recipientDeviceId
  ratchetHeader := ratchetHeader
  ciphertext := ciphertext
  sentAtMs := sentAtMs

/-- `EncryptedMessage::encode`: both vectors carry a 32-bit length before their bytes. -/
def encode (m : EncryptedMessage) : Except MessageCodecError Bytes :=
  if 2 ^ 32 ≤ m.ratchetHeader.length then .error .lengthOverflow
  else if 2 ^ 32 ≤ m.ciphertext.length then .error .lengthOverflow
  else if usizeMax < 2 + 16 * 4 + 4 + m.ratchetHeader.length + 4 + m.ciphertext.length + 8 then
    .error .lengthOverflow
  else .ok (toBe 2 m.version.value.toNat ++ m.messageId.toList ++ m.conversationId.toList ++
    m.senderDeviceId.toList ++ m.recipientDeviceId.toList ++
    toBe 4 m.ratchetHeader.length ++ m.ratchetHeader ++
    toBe 4 m.ciphertext.length ++ m.ciphertext ++ beBytes m.sentAtMs)

/-- The length of the encoding: 82 bytes of framing around the two vectors. -/
theorem encode_length {m : EncryptedMessage} (hh : m.ratchetHeader.length < 2 ^ 32)
    (hc : m.ciphertext.length < 2 ^ 32) :
    ∃ b, m.encode = .ok b ∧ b.length = 82 + m.ratchetHeader.length + m.ciphertext.length := by
  have htotal : ¬ usizeMax <
      2 + 16 * 4 + 4 + m.ratchetHeader.length + 4 + m.ciphertext.length + 8 := by
    unfold usizeMax; omega
  refine ⟨_, by rw [encode, if_neg (by omega), if_neg (by omega), if_neg htotal], ?_⟩
  simp only [List.length_append, length_toBe, Vector.length_toList, length_beBytes]
  omega

/-- The reads of `EncryptedMessage::decode`. -/
def decodeFields (bytes : Bytes) : Cursor MessageCodecError EncryptedMessage := do
  let version ← readU16 bytes
  Cursor.check (version = protocolVersion) .invalidVersion
  let messageId ← readArray16 bytes
  let conversationId ← readArray16 bytes
  let senderDeviceId ← readArray16 bytes
  let recipientDeviceId ← readArray16 bytes
  let headerLen ← readU32 bytes
  let ratchetHeader ← readVec bytes headerLen.toNat
  let ciphertextLen ← readU32 bytes
  let ciphertext ← readVec bytes ciphertextLen.toNat
  let sentAtMs ← readU64 bytes
  pure ⟨⟨version⟩, messageId, conversationId, senderDeviceId, recipientDeviceId, ratchetHeader,
    ciphertext, sentAtMs⟩

/-- `EncryptedMessage::decode`. -/
def decode (bytes : Bytes) : Except (Fault MessageCodecError) EncryptedMessage :=
  Cursor.finish bytes .trailingBytes (decodeFields bytes)

end EncryptedMessage

/-- `encode_message_ack`. -/
def encodeMessageAck (messageId : Id16) : Bytes := messageId.toList

/-- `decode_message_ack`. -/
def decodeMessageAck (bytes : Bytes) : Except MessageCodecError Id16 :=
  if bytes.length ≠ 16 then
    if bytes.length < 16 then .error .truncated else .error .lengthMismatch
  else .ok (arrayOf 16 bytes)

/-! ### Ratchet headers -/

structure RatchetHeader where
  version : UInt16
  messageCounter : UInt64
deriving DecidableEq, Repr

inductive RatchetHeaderError
  | truncated | invalidVersion | trailingBytes
deriving DecidableEq, Repr

namespace RatchetHeader

/-- `RATCHET_HEADER_VERSION`. -/
def headerVersion : UInt16 := 1

/-- `RatchetHeader::ENCODED_LEN`. -/
def encodedLen : Nat := 10

def new (messageCounter : UInt64) : RatchetHeader := ⟨headerVersion, messageCounter⟩

def encode (h : RatchetHeader) : Bytes := toBe 2 h.version.toNat ++ beBytes h.messageCounter

def decode (bytes : Bytes) : Except RatchetHeaderError RatchetHeader :=
  if bytes.length < encodedLen then .error .truncated
  else if encodedLen < bytes.length then .error .trailingBytes
  else
    let version := UInt16.ofNat (ofBe (slice bytes 0 2))
    if version ≠ headerVersion then .error .invalidVersion
    else .ok ⟨version, ofBeBytes (slice bytes 2 10)⟩

/-- Decoding reads back the counter that was encoded. -/
theorem decode_encode_new (c : UInt64) : decode (new c).encode = .ok (new c) := by
  have hlen : ((new c).encode).length = encodedLen := by simp [encode, encodedLen]
  have hver : slice (new c).encode 0 2 = toBe 2 headerVersion.toNat := rfl
  have hctr : slice (new c).encode 2 10 = beBytes c := by
    rw [encode, slice_append_right _ _ _ _ (by simp)]
    exact List.take_of_length_le (by simp [new])
  rw [decode, if_neg (by omega), if_neg (by omega), hver, hctr, ofBeBytes_beBytes]
  rfl

/-- Only an encoding of the current version is decoded. -/
theorem eq_encode_of_decode {bytes : Bytes} {h : RatchetHeader} (hdecode : decode bytes = .ok h) :
    bytes = (new h.messageCounter).encode := by
  unfold decode at hdecode
  split at hdecode
  · exact absurd hdecode (by simp)
  split at hdecode
  · exact absurd hdecode (by simp)
  rename_i hshort hlong
  have hlength : bytes.length = 10 := by unfold encodedLen at hshort hlong; omega
  dsimp only at hdecode
  split at hdecode
  · exact absurd hdecode (by simp)
  rename_i hversion
  obtain rfl := Except.ok.inj hdecode
  -- version and counter, each its two and eight bytes of the input
  have hver : toBe 2 headerVersion.toNat = slice bytes 0 2 := by
    rw [← not_not.mp hversion, toBe_ofBe16 (length_slice bytes 0 2 (by omega))]
  have hctr : beBytes (ofBeBytes (slice bytes 2 10)) = slice bytes 2 10 :=
    beBytes_ofBeBytes (length_slice bytes 2 10 (by omega))
  rw [encode, new, hver, hctr, slice, slice, List.drop_zero, Nat.sub_zero,
    List.take_of_length_le (l := bytes.drop 2) (by rw [List.length_drop]; omega),
    List.take_append_drop]

end RatchetHeader

/-! ### Prekey bundles -/

structure OneTimePrekeyPublic where
  keyId : UInt32
  publicKey : Key32
deriving DecidableEq, Repr

structure PreKeyBundle where
  protocolVersion : ProtocolVersion
  deviceId : Id16
  identitySigningKey : Key32
  identityAgreementKey : Key32
  signedPrekeyId : UInt32
  signedPrekey : Key32
  signedPrekeySignature : U8Array 64
  oneTimePrekeys : List OneTimePrekeyPublic
deriving DecidableEq, Repr

inductive PreKeyBundleError
  | invalidVersion | zeroDeviceId | zeroIdentityKey | zeroAgreementKey | zeroSignedPrekey
  | tooManyOneTimePrekeys | duplicateOneTimePrekeyId | zeroOneTimePrekey
deriving DecidableEq, Repr

namespace PreKeyBundle

/-- `MAX_ONE_TIME_PREKEYS`. -/
def maxOneTimePrekeys : Nat := 1024

/-- The loop of `PreKeyBundle::validate` over the one-time prekeys; `ids` are the key ids
    seen so far. -/
def validateOneTimePrekeys (ids : Finset UInt32) :
    List OneTimePrekeyPublic → Except PreKeyBundleError Unit
  | [] => .ok ()
  | key :: rest =>
    if key.publicKey = zeros 32 then .error .zeroOneTimePrekey
    else if key.keyId ∈ ids then .error .duplicateOneTimePrekeyId
    else validateOneTimePrekeys (insert key.keyId ids) rest

/-- `PreKeyBundle::validate`. -/
def validate (b : PreKeyBundle) : Except PreKeyBundleError Unit :=
  if b.protocolVersion.value ≠ NexaMessenger.protocolVersion then .error .invalidVersion
  else if b.deviceId = zeros 16 then .error .zeroDeviceId
  else if b.identitySigningKey = zeros 32 then .error .zeroIdentityKey
  else if b.identityAgreementKey = zeros 32 then .error .zeroAgreementKey
  else if b.signedPrekey = zeros 32 then .error .zeroSignedPrekey
  else if maxOneTimePrekeys < b.oneTimePrekeys.length then .error .tooManyOneTimePrekeys
  else validateOneTimePrekeys ∅ b.oneTimePrekeys

end PreKeyBundle

end NexaMessenger
