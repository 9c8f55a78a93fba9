import NexaMessenger.Protocol

namespace NexaMessenger

open Lib

/-!
# Protocol — the codec of encrypted messages

`EncryptedMessage::decode` accepts exactly the encodings of messages of the protocol's version
(`codec_bijective`): each of its reads takes the words of one field, and what a sequence of
reads takes is what the fields are written to, one after the other.  The acknowledgement of a
message is its id (`decodeMessageAck_eq_ok_iff`).
-/

variable {bytes : Bytes}

/-! ### The reads -/

theorem readU16_parses (h : bytes.length ≤ usizeMax) :
    Parses bytes (readU16 bytes) fun value word => word = toBe 2 value.toNat := by
  apply Parses.field h
  · intro a
    exact length_toBe 2 _
  · intro a
    rw [ofBe_toBe a.toNat_lt, UInt16.ofNat_toNat]
  · intro b hb
    exact toBe_ofBe16 hb

theorem readU32_parses (h : bytes.length ≤ usizeMax) :
    Parses bytes (readU32 bytes) fun value word => word = toBe 4 value.toNat := by
  apply Parses.field h
  · intro a
    exact length_toBe 4 _
  · intro a
    rw [ofBe_toBe a.toNat_lt, UInt32.ofNat_toNat]
  · intro b hb
    exact toBe_ofBe32 hb

theorem readU64_parses (h : bytes.length ≤ usizeMax) :
    Parses bytes (readU64 bytes) fun value word => word = beBytes value := by
  apply Parses.field h
  · exact length_beBytes
  · exact ofBeBytes_beBytes
  · intro b hb
    exact beBytes_ofBeBytes hb

theorem readArray16_parses (h : bytes.length ≤ usizeMax) :
    Parses bytes (readArray16 bytes) fun value word => word = value.toList := by
  apply Parses.field h
  · intro a
    exact Vector.length_toList
  · exact arrayOf_toList
  · intro b hb
    exact toList_arrayOf hb

theorem readVec_parses (h : bytes.length ≤ usizeMax) (len : Nat) :
    Parses bytes (readVec bytes len) fun value word => word = value ∧ value.length = len :=
  Parses.take h _ _ len

/-- A vector after its length. -/
theorem readSized_parses (h : bytes.length ≤ usizeMax) :
    Parses bytes (readU32 bytes >>= fun len => readVec bytes len.toNat) fun value word =>
      value.length < 2 ^ 32 ∧ word = toBe 4 value.length ++ value := by
  refine ((readU32_parses h).bind fun len _ _ => readVec_parses h len.toNat).congr ?_
  intro value word
  constructor
  · rintro ⟨len, _, _, rfl, ⟨rfl, hlen⟩, rfl⟩
    rw [hlen]
    exact ⟨len.toNat_lt, rfl⟩
  · rintro ⟨hlen, rfl⟩
    have hword : (UInt32.ofNat value.length).toNat = value.length := UInt32.toNat_ofNat_of_lt' hlen
    refine ⟨UInt32.ofNat value.length, _, value, rfl, ⟨rfl, hword.symm⟩, ?_⟩
    rw [hword]

/-! ### Messages -/

namespace EncryptedMessage

/-- `encode` fails on vectors of `2 ^ 32` bytes or more only. -/
theorem encode_eq_ok_iff {m : EncryptedMessage} {b : Bytes} :
    m.encode = .ok b ↔ m.ratchetHeader.length < 2 ^ 32 ∧ m.ciphertext.length < 2 ^ 32 ∧
      b = toBe 2 m.version.value.toNat ++ (m.messageId.toList ++ (m.conversationId.toList ++
        (m.senderDeviceId.toList ++ (m.recipientDeviceId.toList ++
        (toBe 4 m.ratchetHeader.length ++ (m.ratchetHeader ++
        (toBe 4 m.ciphertext.length ++ (m.ciphertext ++ beBytes m.sentAtMs)))))))) := by
  by_cases hh : m.ratchetHeader.length < 2 ^ 32
  · by_cases hc : m.ciphertext.length < 2 ^ 32
    · have htotal : ¬ usizeMax <
          2 + 16 * 4 + 4 + m.ratchetHeader.length + 4 + m.ciphertext.length + 8 := by
        unfold usizeMax; omega
      rw [encode, if_neg (by omega), if_neg (by omega), if_neg htotal]
      simp only [List.append_assoc, Except.ok.injEq, hh, hc, true_and]
      exact eq_comm
    · rw [encode, if_neg (by omega), if_pos (by omega)]
      exact ⟨fun h => absurd h (by simp), fun h => absurd h.2.1 hc⟩
  · rw [encode, if_pos (by omega)]
    exact ⟨fun h => absurd h (by simp), fun h => absurd h.1 hh⟩

/-- The words `decode` reads are the encodings of messages of the protocol's version. -/
theorem decodeFields_parses (h : bytes.length ≤ usizeMax) :
    Parses bytes (decodeFields bytes) fun m word =>
      m.version.value = protocolVersion ∧ m.encode = .ok word := by
  have hreads : Parses bytes (decodeFields bytes) fun (m : EncryptedMessage) word =>
      (m.version.value = protocolVersion ∧ m.ratchetHeader.length < 2 ^ 32 ∧
        m.ciphertext.length < 2 ^ 32) ∧
      word = toBe 2 m.version.value.toNat ++ (m.messageId.toList ++ (m.conversationId.toList ++
        (m.senderDeviceId.toList ++ (m.recipientDeviceId.toList ++
        ((toBe 4 m.ratchetHeader.length ++ m.ratchetHeader) ++
        ((toBe 4 m.ciphertext.length ++ m.ciphertext) ++ (beBytes m.sentAtMs ++ []))))))) := by
    apply Parses.bind_field (fun m : EncryptedMessage => m.version.value) (readU16_parses h)
    intro version
    apply Parses.bind_check
    case hfail =>
      rintro hversion m word ⟨⟨⟨hm, -, -⟩, rfl⟩, -⟩
      exact of_decide_eq_false hversion hm
    intro hversion
    apply Parses.bind_field EncryptedMessage.messageId (readArray16_parses h)
    intro messageId
    apply Parses.bind_field EncryptedMessage.conversationId (readArray16_parses h)
    intro conversationId
    apply Parses.bind_field EncryptedMessage.senderDeviceId (readArray16_parses h)
    intro sender
    apply Parses.bind_field EncryptedMessage.recipientDeviceId (readArray16_parses h)
    intro recipient
    rw [← bind_assoc]
    apply Parses.bind_field_where EncryptedMessage.ratchetHeader (readSized_parses h)
    · rintro m ⟨⟨⟨⟨⟨⟨-, hheader, -⟩, -⟩, -⟩, -⟩, -⟩, -⟩
      exact hheader
    intro header hheader
    rw [← bind_assoc]
    apply Parses.bind_field_where EncryptedMessage.ciphertext (readSized_parses h)
    · rintro m ⟨⟨⟨⟨⟨⟨⟨-, -, htext⟩, -⟩, -⟩, -⟩, -⟩, -⟩, -⟩
      exact htext
    intro text htext
    apply Parses.bind_field EncryptedMessage.sentAtMs (readU64_parses h)
    intro sentAt
    -- the conditions on the way name every field of the message
    apply Parses.pure_record
    · simp only [of_decide_eq_true hversion, hheader, htext, and_self]
    · rintro m ⟨⟨⟨⟨⟨⟨⟨⟨-, rfl⟩, rfl⟩, rfl⟩, rfl⟩, rfl⟩, rfl⟩, rfl⟩, rfl⟩
      rfl
  -- the fields in order are what `encode` writes
  refine hreads.congr fun m word => ?_
  rw [encode_eq_ok_iff]
  simp only [List.append_assoc, List.append_nil, and_assoc]

/-- **The codec is a bijection** between the messages of the protocol's version whose vectors are
    shorter than `2 ^ 32` bytes and the byte strings `decode` accepts, and `decode` never panics:
    what is encoded is read back, and what is read is the encoding of the result. -/
theorem codec_bijective :
    (∀ m : EncryptedMessage, m.version.value = protocolVersion →
      m.ratchetHeader.length < 2 ^ 32 → m.ciphertext.length < 2 ^ 32 →
        ∃ b, m.encode = .ok b ∧ decode b = .ok m) ∧
    ∀ b : Bytes, b.length ≤ usizeMax → decode b ≠ .error .panic ∧
      ∀ m, decode b = .ok m ↔ m.version.value = protocolVersion ∧ m.encode = .ok b := by
  constructor
  · intro m hversion hh hc
    obtain ⟨b, hb, hlength⟩ := encode_length hh hc
    have hfits : b.length ≤ usizeMax := by
      rw [hlength]
      unfold usizeMax
      omega
    exact ⟨b, hb, ((decodeFields_parses hfits).finish_iff _ m).mpr ⟨hversion, hb⟩⟩
  · intro b hb
    exact ⟨(decodeFields_parses hb).finish_safe _, (decodeFields_parses hb).finish_iff _⟩

/-- A message of two bytes is read back, and the empty byte string is refused without a panic. -/
theorem sample_round_trip :
    (∃ b, (new (zeros 16) (zeros 16) (zeros 16) (zeros 16) [1] [2] 3).encode = .ok b ∧
      decode b = .ok (new (zeros 16) (zeros 16) (zeros 16) (zeros 16) [1] [2] 3)) ∧
    decode [] ≠ .error .panic :=
  ⟨codec_bijective.1 _ rfl (by decide) (by decide), (codec_bijective.2 [] (by decide)).1⟩

end EncryptedMessage

/-! ### Acknowledgements -/

/-- `decode_message_ack` accepts exactly what `encode_message_ack` writes. -/
theorem decodeMessageAck_eq_ok_iff {messageId : Id16} :
    decodeMessageAck bytes = .ok messageId ↔ bytes = encodeMessageAck messageId := by
  unfold decodeMessageAck encodeMessageAck
  constructor
  · intro h
    split at h
    · split at h
      · exact absurd h (by simp)
      · exact absurd h (by simp)
    · rename_i hlength
      obtain rfl := Except.ok.inj h
      exact (toList_arrayOf (not_not.mp hlength)).symm
  · rintro rfl
    rw [if_neg (not_not.mpr Vector.length_toList), arrayOf_toList]

end NexaMessenger
