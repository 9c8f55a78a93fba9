import NexaMessenger.Envelope
import NexaMessenger.Relay.Answers

namespace NexaMessenger.Relay

open Lib

/-!
# Relay — what is admitted, and what a client can use of it

The relay's `valid_message` and the client's `WireEnvelope::validate` look at the same fields with
limits of their own: the relay takes headers of up to 16 KiB and ciphertexts of up to 4 MiB, the
client headers of up to 256 bytes, also empty ones, and ciphertexts of up to 16 MiB.

* `valid_of_mem_queue` — whatever a reachable store holds has passed `valid_message`.
* `validators_agree` — inside both limits the two checks are one.
-/

/-- What `valid_message` checks. -/
structure ValidMessage (m : EncryptedMessage) : Prop where
  version : m.version = ⟨protocolVersion⟩
  messageId : m.messageId ≠ zeros 16
  conversationId : m.conversationId ≠ zeros 16
  sender : m.senderDeviceId ≠ zeros 16
  recipient : m.recipientDeviceId ≠ zeros 16
  header : m.ratchetHeader ≠ []
  headerLength : m.ratchetHeader.length ≤ maxRatchetHeader
  ciphertext : m.ciphertext ≠ []
  ciphertextLength : m.ciphertext.length ≤ maxCiphertext

theorem validMessage_iff {m : EncryptedMessage} : validMessage m = true ↔ ValidMessage m := by
  simp only [validMessage, Bool.and_eq_true, decide_eq_true_eq, Bool.not_eq_true',
    List.isEmpty_eq_false_iff]
  constructor
  · rintro ⟨⟨⟨⟨⟨⟨⟨⟨hv, hm⟩, hc⟩, hs⟩, hr⟩, hh⟩, hhl⟩, ht⟩, htl⟩
    exact ⟨hv, hm, hc, hs, hr, hh, hhl, ht, htl⟩
  · rintro ⟨hv, hm, hc, hs, hr, hh, hhl, ht, htl⟩
    exact ⟨⟨⟨⟨⟨⟨⟨⟨hv, hm⟩, hc⟩, hs⟩, hr⟩, hh⟩, hhl⟩, ht⟩, htl⟩

/-! ### Only valid messages are stored -/

theorem valid_of_push {s : RelayStore} {message : EncryptedMessage} {now : UInt64}
    (h : (s.push message now).1 = .accepted) : ValidMessage message := by
  rw [← validMessage_iff]
  by_contra hinvalid
  rw [RelayStore.push, if_pos (by simpa using hinvalid)] at h
  exact absurd h (by simp)

theorem valid_of_accepted {s : RelayStore} {ops : List RelayOp} {message : EncryptedMessage}
    (h : message ∈ accepted (trace step s ops)) : ValidMessage message := by
  obtain ⟨pre, now, post, htrace⟩ := exists_of_mem_accepted h
  have hmem : (RelayOp.push message now, RelayAnswer.pushed .accepted) ∈ trace step s ops := by
    rw [htrace]
    simp
  obtain ⟨before, after, -, hanswer⟩ := exists_of_mem_trace step hmem
  rw [step_push] at hanswer
  exact valid_of_push (RelayAnswer.pushed.inj hanswer).symm

/-- The queues of a reachable store hold valid messages. -/
theorem valid_of_mem_queue (ops : List RelayOp) {d : Id16} {x : StoredMessage}
    (h : x ∈ (after step RelayStore.empty ops).queue d) : ValidMessage x.message :=
  valid_of_accepted ((run_retains ops).only d x h)

/-! ### The two validators -/

/-- A message that is short enough for both is valid for both or for none, but for the device ids
    and an empty header, which only the relay looks at. -/
theorem valid_iff_envelope {m : EncryptedMessage} :
    ValidMessage m ∧ m.ratchetHeader.length ≤ maxHeader ↔
      (WireEnvelope.ofMessage m).validate = .ok () ∧ m.senderDeviceId ≠ zeros 16 ∧
        m.recipientDeviceId ≠ zeros 16 ∧ m.ratchetHeader ≠ [] ∧
        m.ciphertext.length ≤ maxCiphertext := by
  have hheader : maxHeader ≤ maxRatchetHeader := by decide
  have hciphertext : maxCiphertext ≤ WireEnvelope.maxCiphertext := by decide
  rw [WireEnvelope.validate_eq_ok_iff, WireEnvelope.validateMetadata_eq_ok_iff]
  constructor
  · rintro ⟨h, hshort⟩
    exact ⟨⟨⟨h.version, hshort, h.messageId, h.conversationId⟩, h.ciphertext,
      h.ciphertextLength.trans hciphertext⟩, h.sender, h.recipient, h.header, h.ciphertextLength⟩
  · rintro ⟨⟨⟨hv, hshort, hm, hc⟩, ht, -⟩, hs, hr, hh, htl⟩
    exact ⟨⟨hv, hm, hc, hs, hr, hh, hshort.trans hheader, ht, htl⟩, hshort⟩

/-- **The validators agree inside both limits.**  A message with a header of at most 256 bytes is
    valid for the relay exactly when its envelope is valid, its device ids are not zero, its header
    is not empty and its ciphertext has at most 4 MiB.  So of the stored messages those with such a
    header have associated data, and of the encoded envelopes with nonzero device ids the relay
    takes those with a header and with such a ciphertext. -/
theorem validators_agree (toAllocvec : WireEnvelope → Option Bytes) (ops : List RelayOp) :
    (∀ m, validMessage m = true ∧ m.ratchetHeader.length ≤ maxHeader ↔
      (WireEnvelope.ofMessage m).validate = .ok () ∧ m.senderDeviceId ≠ zeros 16 ∧
        m.recipientDeviceId ≠ zeros 16 ∧ m.ratchetHeader ≠ [] ∧
        m.ciphertext.length ≤ maxCiphertext) ∧
    (∀ d, ∀ x ∈ (after step RelayStore.empty ops).queue d,
      (∃ a, (WireEnvelope.ofMessage x.message).aad = .ok a) ↔
        x.message.ratchetHeader.length ≤ maxHeader) ∧
    ∀ m b, (WireEnvelope.ofMessage m).encode toAllocvec = .ok b → m.senderDeviceId ≠ zeros 16 →
      m.recipientDeviceId ≠ zeros 16 →
      (validMessage m = true ↔ m.ratchetHeader ≠ [] ∧ m.ciphertext.length ≤ maxCiphertext) := by
  simp only [validMessage_iff]
  refine ⟨fun m => valid_iff_envelope, fun d x hx => ?_, fun m b hencode hs hr => ?_⟩
  · have hvalid := valid_of_mem_queue ops hx
    constructor
    · rintro ⟨a, haad⟩
      exact (WireEnvelope.validateMetadata_eq_ok_iff.mp (WireEnvelope.aad_eq_ok_iff.mp haad).1).2.1
    · intro hshort
      have hmetadata := (WireEnvelope.validate_eq_ok_iff.mp
        (valid_iff_envelope.mp ⟨hvalid, hshort⟩).1).1
      exact ⟨_, WireEnvelope.aad_eq_ok_iff.mpr ⟨hmetadata, rfl⟩⟩
  · have henvelope := WireEnvelope.valid_of_encode hencode
    constructor
    · exact fun h => ⟨h.header, h.ciphertextLength⟩
    · rintro ⟨hh, htl⟩
      exact (valid_iff_envelope.mpr ⟨henvelope, hs, hr, hh, htl⟩).1

/-- **The validators do not agree.**  The relay stores a message with a header of 257 bytes, for
    which there is no associated data; and it refuses two messages of valid envelopes, one with an
    empty header and one with a ciphertext of more than 4 MiB. -/
theorem validators_disagree :
    let long := { letter 1 2 0 with ratchetHeader := List.replicate 257 0 }
    let bare := { letter 1 2 0 with ratchetHeader := [] }
    let large := { letter 1 2 0 with ciphertext := List.replicate (maxCiphertext + 1) 0 }
    (validMessage long = true ∧ (RelayStore.empty.push long 0).1 = .accepted ∧
      (WireEnvelope.ofMessage long).validate ≠ .ok () ∧
      ∀ a, (WireEnvelope.ofMessage long).aad ≠ .ok a) ∧
    ((WireEnvelope.ofMessage bare).validate = .ok () ∧ validMessage bare = false) ∧
    ((WireEnvelope.ofMessage large).validate = .ok () ∧ validMessage large = false) := by
  intro long bare large
  have hheader : long.ratchetHeader.length = 257 := List.length_replicate
  have hciphertext : large.ciphertext.length = maxCiphertext + 1 := List.length_replicate
  have hletter : ValidMessage (letter 1 2 0) :=
    validMessage_iff.mp (letter_valid 0 (by decide) (by decide) (by decide) (by decide))
  have hvalid : validMessage long = true := by
    refine validMessage_iff.mpr { hletter with header := ?_, headerLength := ?_ }
    · exact List.cons_ne_nil _ _
    · rw [hheader]; decide
  -- the header is too long for the metadata
  have hmetadata : (WireEnvelope.ofMessage long).validateMetadata ≠ .ok () := fun h => by
    have hshort : long.ratchetHeader.length ≤ maxHeader :=
      (WireEnvelope.validateMetadata_eq_ok_iff.mp h).2.1
    rw [hheader] at hshort
    exact absurd hshort (by decide)
  have hsize : messageSize long = 340 := by
    obtain ⟨b, hb, hlen⟩ := EncryptedMessage.encode_length (m := long) (by rw [hheader]; decide)
      (by decide)
    rw [messageSize, hb]
    exact hlen.trans (by rw [hheader]; rfl)
  refine ⟨⟨hvalid, ?_, fun h => ?_, fun a h => ?_⟩, ⟨by rfl, by rfl⟩, ?_, ?_⟩
  · rw [push_fresh hvalid (by decide) (lookup_empty_eq _) (by decide) (by rw [hsize]; decide)]
  · exact hmetadata (WireEnvelope.validate_eq_ok_iff.mp h).1
  · exact hmetadata (WireEnvelope.aad_eq_ok_iff.mp h).1
  · refine WireEnvelope.validate_eq_ok_iff.mpr ⟨by rfl, List.cons_ne_nil _ _, ?_⟩
    exact hciphertext.trans_le (by decide)
  · refine Bool.eq_false_iff.mpr fun h => ?_
    have hlength := (validMessage_iff.mp h).ciphertextLength
    rw [hciphertext] at hlength
    omega

end NexaMessenger.Relay
