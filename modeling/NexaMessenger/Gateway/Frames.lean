import NexaMessenger.MessageCodec
import NexaMessenger.Relay.Admission
import NexaMessenger.Transport

namespace NexaMessenger.Gateway

open Lib Relay
open Transport (Frame FrameKind headerLen maxFrame)

/-!
# Gateway — stored messages fit the socket

A message goes to its recipient as the payload of a frame, over a websocket with a message limit
of its own.  Three limits meet here: the relay's on header and ciphertext, the frame's on its
payload, and the socket's on a message.  `deliverable_of_valid` says that they fit, so whatever the
relay accepts can be sent, and a peer reads back what was stored.
-/

/-- `WS_MAX_MESSAGE`. -/
def wsMaxMessage : Nat := maxFrame + 8

/-- `Frame::new` and `to_bytes`; which of them fails is not told. -/
def frameBytes (kind : FrameKind) (flags : UInt8) (payload : Bytes) : Option Bytes := do
  let frame ← (Frame.new kind flags payload).toOption
  frame.toBytes.toOption

/-- The steps of `send_encrypted` up to the socket write; which of them fails is not told. -/
def sendEncrypted (message : EncryptedMessage) : Option Bytes := do
  let payload ← message.encode.toOption
  let frame ← (Frame.new .encryptedMessage 0 payload).toOption
  frame.toBytes.toOption

/-- The message is sent in bytes that the socket takes and that a peer reads back. -/
def Deliverable (message : EncryptedMessage) : Prop :=
  ∃ bytes frame, sendEncrypted message = some bytes ∧ bytes.length ≤ wsMaxMessage ∧
    Frame.fromBytes bytes = .ok frame ∧ frame.kind = .ok .encryptedMessage ∧
    EncryptedMessage.decode frame.payload = .ok message

/-- A payload that fits is sent in a frame that the socket takes and that a peer reads back. -/
theorem frameBytes_spec (kind : FrameKind) (flags : UInt8) {payload : Bytes}
    (hnonempty : payload ≠ []) (hbounded : payload.length ≤ maxFrame) :
    ∃ bytes frame, frameBytes kind flags payload = some bytes ∧ bytes.length ≤ wsMaxMessage ∧
      Frame.fromBytes bytes = .ok frame ∧ frame.kind = .ok kind ∧ frame.payload = payload := by
  have hnew : Frame.new kind flags payload = .ok
      ⟨⟨Transport.protocolVersion, kind.toByte, flags, UInt32.ofNat payload.length⟩, payload⟩ := by
    rw [Frame.new, if_neg (fun hempty => hnonempty (List.isEmpty_iff.mp hempty)),
      if_neg (not_lt.mpr hbounded)]
  generalize hframe : (⟨⟨Transport.protocolVersion, kind.toByte, flags,
    UInt32.ofNat payload.length⟩, payload⟩ : Frame) = frame at hnew
  have hvalid := Frame.valid_of_new hnew
  have hbytes := Frame.toBytes_eq_ok_iff.mpr ⟨hvalid, rfl⟩
  refine ⟨frame.write, frame, ?_, ?_, ?_, ?_, ?_⟩
  · show (Frame.new kind flags payload).toOption >>= _ = _
    rw [hnew]
    show frame.toBytes.toOption = _
    rw [hbytes]
    rfl
  · have hpayload := hvalid.bounded
    rw [Frame.length_write]
    unfold wsMaxMessage headerLen
    omega
  · exact Frame.fromBytes_eq_ok_iff.mpr ⟨Frame.validate_eq_ok_iff.mpr hvalid, hbytes⟩
  · rw [← hframe]
    exact FrameKind.tryFrom_toByte kind
  · rw [← hframe]

/-- The payload of a valid message, and that it fits a frame. -/
theorem exists_payload {message : EncryptedMessage} (h : ValidMessage message) :
    ∃ payload, message.encode = .ok payload ∧ payload ≠ [] ∧ payload.length ≤ maxFrame ∧
      EncryptedMessage.decode payload = .ok message := by
  have hheader := h.headerLength
  have hciphertext := h.ciphertextLength
  unfold maxRatchetHeader at hheader
  unfold maxCiphertext at hciphertext
  obtain ⟨payload, hencode, hlength⟩ :=
    EncryptedMessage.encode_length (m := message) (by omega) (by omega)
  have hfits : payload.length ≤ usizeMax := by
    rw [hlength]
    unfold usizeMax
    omega
  refine ⟨payload, hencode, ?_, ?_, ?_⟩
  · refine List.length_pos_iff.mp ?_
    omega
  · -- 82 bytes of framing, 16 KiB and 4 MiB are less than 16 MiB
    unfold maxFrame
    omega
  · refine ((EncryptedMessage.decodeFields_parses hfits).finish_iff _ message).mpr ⟨?_, hencode⟩
    rw [h.version]

/-- **A valid message is deliverable.** -/
theorem deliverable_of_valid {message : EncryptedMessage} (h : ValidMessage message) :
    Deliverable message := by
  obtain ⟨payload, hencode, hnonempty, hbounded, hdecode⟩ := exists_payload h
  -- the frame around the payload
  obtain ⟨bytes, frame, hbytes, hlength, hread, hkind, rfl⟩ :=
    frameBytes_spec .encryptedMessage 0 hnonempty hbounded
  refine ⟨bytes, frame, ?_, hlength, hread, hkind, hdecode⟩
  rw [sendEncrypted, hencode]
  exact hbytes

/-- **Stored messages are deliverable.**  In every reachable store, what a push accepts, what the
    queues hold and what a pull hands out is sent in bytes that the socket takes, and a peer reads
    exactly the message back. -/
theorem stored_messages_deliverable (ops : List RelayOp) :
    let s := after step RelayStore.empty ops
    (∀ message now, (s.push message now).1 = .accepted → Deliverable message) ∧
    (∀ d, ∀ x ∈ s.queue d, Deliverable x.message) ∧
    ∀ d now, ∀ message ∈ (s.pull d now).1, Deliverable message := by
  intro s
  refine ⟨fun message now h => ?_, fun d x hx => ?_, fun d now message hmessage => ?_⟩
  · exact deliverable_of_valid (valid_of_push h)
  · exact deliverable_of_valid (valid_of_mem_queue ops hx)
  · rw [pull_answer] at hmessage
    obtain ⟨x, hx, rfl⟩ := List.mem_map.mp hmessage
    exact deliverable_of_valid (valid_of_mem_queue ops (List.mem_filter.mp hx).1)

end NexaMessenger.Gateway
