import NexaMessenger.Lib.Varint
import NexaMessenger.Envelope

namespace NexaMessenger

open Lib

/-!
# Envelope — the wire encoding

`WireEnvelope` is written by postcard, in declaration order: words and lengths of vectors as
varints, arrays as they are.  postcard takes a varint in any of its spellings and does not look
at what follows the value (`Postcard`).

So `decode` undoes `encode`, but it also accepts byte strings that are not encodings:
`wire_encoding_canonical_iff` says which ones are, by looking at the bytes alone (`Tight`).
-/

namespace WireEnvelope

/-- The arrays of an envelope, in order. -/
def ids (e : WireEnvelope) : Bytes :=
  e.messageId.toList ++ (e.conversationId.toList ++ (e.senderDeviceId.toList ++
    e.recipientDeviceId.toList))

@[simp] theorem length_ids (e : WireEnvelope) : e.ids.length = 64 := by
  simp only [ids, List.length_append, Vector.length_toList]

/-- What the serializer writes. -/
def wire (e : WireEnvelope) : Bytes :=
  varint e.version.value.toNat ++ (e.ids ++
    (varint e.ratchetHeader.length ++ (e.ratchetHeader ++
    (varint e.ciphertext.length ++ (e.ciphertext ++ varint e.sentAtMs.toNat)))))

/-- What the deserializer reads as the envelope. -/
def Spelled (e : WireEnvelope) (word : Bytes) : Prop :=
  ∃ version header text sentAt, Spells 16 e.version.value.toNat version ∧
    Spells 64 e.ratchetHeader.length header ∧ Spells 64 e.ciphertext.length text ∧
    Spells 64 e.sentAtMs.toNat sentAt ∧
    word = version ++ (e.ids ++ (header ++ (e.ratchetHeader ++ (text ++ (e.ciphertext ++ sentAt)))))

end WireEnvelope

/-- postcard's `to_allocvec` and `from_bytes` on envelopes: the deserializer reads a value from the
    front of its input, and does not report what follows. -/
structure Postcard (toAllocvec : WireEnvelope → Option Bytes)
    (fromBytes : Bytes → Option WireEnvelope) : Prop where
  writes : ∀ e, toAllocvec e = some e.wire
  reads : ∀ b e, fromBytes b = some e ↔ ∃ word rest, e.Spelled word ∧ b = word ++ rest

/-! ### A deserializer -/

/-- The reads of a deserializer that does what postcard documents. -/
def readEnvelope (bytes : Bytes) : Cursor Unit WireEnvelope := do
  let version ← UInt16.ofNat <$> Cursor.varint 16 () bytes
  let messageId ← arrayOf 16 <$> Cursor.take bytes.length () .panic bytes 16
  let conversationId ← arrayOf 16 <$> Cursor.take bytes.length () .panic bytes 16
  let senderDeviceId ← arrayOf 16 <$> Cursor.take bytes.length () .panic bytes 16
  let recipientDeviceId ← arrayOf 16 <$> Cursor.take bytes.length () .panic bytes 16
  let ratchetHeader ← Cursor.vector 64 () bytes
  let ciphertext ← Cursor.vector 64 () bytes
  let sentAtMs ← UInt64.ofNat <$> Cursor.varint 64 () bytes
  pure ⟨⟨version⟩, messageId, conversationId, senderDeviceId, recipientDeviceId, ratchetHeader,
    ciphertext, sentAtMs⟩

def sampleFromBytes (bytes : Bytes) : Option WireEnvelope :=
  match (readEnvelope bytes).run 0 with
  | .error _ => none
  | .ok (e, _) => some e

/-- The envelope of the round trip test of the source. -/
def sampleWire : WireEnvelope where
  version := ⟨protocolVersion⟩
  messageId := Vector.replicate 16 1
  conversationId := Vector.replicate 16 2
  senderDeviceId := Vector.replicate 16 3
  recipientDeviceId := Vector.replicate 16 4
  ratchetHeader := [5, 6]
  ciphertext := [7, 8, 9]
  sentAtMs := 123

theorem readEnvelope_parses (bytes : Bytes) :
    Parses bytes (readEnvelope bytes) WireEnvelope.Spelled := by
  have hid : Parses bytes (arrayOf 16 <$> Cursor.take bytes.length () .panic bytes 16)
      fun value word => word = value.toList := by
    apply Parses.field (Nat.le_refl _)
    · exact fun _ => Vector.length_toList
    · exact arrayOf_toList
    · exact fun _ => toList_arrayOf
  apply Parses.congr
  · apply Parses.bind_part (C := fun _ => True) (fun e : WireEnvelope => e.version.value)
      (Parses.word 16 (fun _ => UInt16.ofNat_toNat) (fun _ => UInt16.toNat_ofNat_of_lt') () bytes)
    intro version
    apply Parses.bind_part WireEnvelope.messageId hid
    intro messageId
    apply Parses.bind_part WireEnvelope.conversationId hid
    intro conversationId
    apply Parses.bind_part WireEnvelope.senderDeviceId hid
    intro senderDeviceId
    apply Parses.bind_part WireEnvelope.recipientDeviceId hid
    intro recipientDeviceId
    apply Parses.bind_part WireEnvelope.ratchetHeader (Parses.vector 64 () bytes)
    intro ratchetHeader
    apply Parses.bind_part WireEnvelope.ciphertext (Parses.vector 64 () bytes)
    intro ciphertext
    apply Parses.bind_part WireEnvelope.sentAtMs
      (Parses.word 64 (fun _ => UInt64.ofNat_toNat) (fun _ => UInt64.toNat_ofNat_of_lt') () bytes)
    intro sentAtMs
    apply Parses.pure_record
    · simp
    · rintro e ⟨⟨⟨⟨⟨⟨⟨⟨-, rfl⟩, rfl⟩, rfl⟩, rfl⟩, rfl⟩, rfl⟩, rfl⟩, rfl⟩
      rfl
  · -- the parts in order, the arrays taken together
    intro e word
    constructor
    · rintro ⟨-, version, _, hversion, ⟨_, _, rfl, ⟨_, _, rfl, ⟨_, _, rfl, ⟨_, _, rfl,
        ⟨_, _, ⟨header, hheader, rfl⟩, ⟨_, _, ⟨text, htext, rfl⟩, ⟨sentAt, _, hsentAt, rfl, rfl⟩,
        rfl⟩, rfl⟩, rfl⟩, rfl⟩, rfl⟩, rfl⟩, rfl⟩
      refine ⟨version, header, text, sentAt, hversion, hheader, htext, hsentAt, ?_⟩
      simp only [WireEnvelope.ids, List.append_assoc, List.append_nil]
    · rintro ⟨version, header, text, sentAt, hversion, hheader, htext, hsentAt, rfl⟩
      refine ⟨trivial, version, _, hversion, ⟨_, _, rfl, ⟨_, _, rfl, ⟨_, _, rfl, ⟨_, _, rfl,
        ⟨_, _, ⟨header, hheader, rfl⟩, ⟨_, _, ⟨text, htext, rfl⟩, ⟨sentAt, [], hsentAt, rfl, rfl⟩,
        rfl⟩, rfl⟩, rfl⟩, rfl⟩, rfl⟩, rfl⟩, ?_⟩
      simp only [WireEnvelope.ids, List.append_assoc, List.append_nil]

theorem samplePostcard : Postcard (fun e => some e.wire) sampleFromBytes where
  writes _ := rfl
  reads b e := by
    have hrun := (readEnvelope_parses b).ok_iff 0 (Nat.zero_le _) e
    simp only [List.drop_zero, Nat.zero_add] at hrun
    unfold sampleFromBytes
    constructor
    · intro h
      split at h
      · exact absurd h (by simp)
      · rename_i value next hread
        obtain rfl := Option.some.inj h
        obtain ⟨word, hword, ⟨rest, hrest⟩, -⟩ := (hrun next).mp hread
        exact ⟨word, rest, hword, hrest.symm⟩
    · rintro ⟨word, rest, hword, rfl⟩
      have hread := (hrun word.length).mpr ⟨word, hword, List.prefix_append _ _, rfl⟩
      rw [hread]

/-- What the serializer writes for it. -/
def sampleBytes : Bytes :=
  [1] ++ List.replicate 16 1 ++ List.replicate 16 2 ++ List.replicate 16 3 ++
    List.replicate 16 4 ++ [2, 5, 6] ++ [3, 7, 8, 9] ++ [123]

theorem encode_sampleWire : sampleWire.encode (fun e => some e.wire) = .ok sampleBytes := by
  have hwire : sampleWire.wire = sampleBytes := by
    unfold WireEnvelope.wire
    rw [varint_of_lt (by decide), varint_of_lt (by decide), varint_of_lt (by decide),
      varint_of_lt (by decide)]
    decide
  rw [← hwire]
  rfl

/-! ### The layout of the bytes -/

/-- The varints of an encoding, and what follows the last one.  Between the first and the second
    there are the arrays, and each length is followed by its vector. -/
def layout (b : Bytes) : Option (List Bytes × Bytes) := do
  let (version, b) ← splitVarint b
  let (header, b) ← splitVarint (b.drop 64)
  let (text, b) ← splitVarint (b.drop (varintValue header))
  let (sentAt, rest) ← splitVarint (b.drop (varintValue text))
  pure ([version, header, text, sentAt], rest)

/-- No varint has a byte that it does not need, and nothing follows the last one. -/
def Tight (b : Bytes) : Prop :=
  ∃ parts ∈ layout b, (∀ s ∈ parts.1, MinimalVarint s) ∧ parts.2 = []

instance (b : Bytes) : Decidable (Tight b) :=
  inferInstanceAs (Decidable (∃ parts ∈ layout b, _))

theorem layout_append {version ids header vector text cipher sentAt : Bytes}
    (hversion : IsVarint version) (hids : ids.length = 64) (hheader : IsVarint header)
    (hvector : varintValue header = vector.length) (htext : IsVarint text)
    (hcipher : varintValue text = cipher.length) (hsentAt : IsVarint sentAt) (rest : Bytes) :
    layout (version ++ (ids ++ (header ++ (vector ++ (text ++ (cipher ++ (sentAt ++ rest))))))) =
      some ([version, header, text, sentAt], rest) := by
  unfold layout
  rw [splitVarint_append hversion]
  simp only [Option.bind_eq_bind, Option.bind_some]
  rw [← hids, List.drop_left, splitVarint_append hheader]
  simp only [Option.bind_some]
  rw [hvector, List.drop_left, splitVarint_append htext]
  simp only [Option.bind_some]
  rw [hcipher, List.drop_left, splitVarint_append hsentAt]
  rfl

namespace WireEnvelope

variable {e : WireEnvelope}

/-- What the serializer writes the deserializer reads. -/
theorem spelled_wire (hvalid : e.validate = .ok ()) : e.Spelled e.wire := by
  obtain ⟨hmeta, -, htext⟩ := validate_eq_ok_iff.mp hvalid
  have hheader := (validateMetadata_eq_ok_iff.mp hmeta).2.1
  unfold maxHeader at hheader
  unfold maxCiphertext at htext
  refine ⟨_, _, _, _, spells_varint (by decide) e.version.value.toNat_lt,
    spells_varint (by decide) ?_, spells_varint (by decide) ?_,
    spells_varint (by decide) e.sentAtMs.toNat_lt, rfl⟩
  · omega
  · omega

/-- Of what the deserializer reads as an envelope, what the serializer writes is tight. -/
theorem Spelled.eq_wire_iff {word : Bytes} (h : e.Spelled word) (rest : Bytes) :
    Tight (word ++ rest) ↔ e.wire = word ++ rest := by
  obtain ⟨version, header, text, sentAt, hversion, hheader, htext, hsentAt, rfl⟩ := h
  simp only [List.append_assoc]
  have hlayout := layout_append hversion.1 e.length_ids hheader.1 hheader.2.1 htext.1 htext.2.1
    hsentAt.1 rest
  constructor
  · rintro ⟨parts, hparts, hmin, hrest⟩
    obtain rfl := Option.some.inj (hlayout.symm.trans hparts)
    obtain rfl : rest = [] := hrest
    rw [List.append_nil, hversion.eq_varint (hmin _ (by simp)),
      hheader.eq_varint (hmin _ (by simp)), htext.eq_varint (hmin _ (by simp)),
      hsentAt.eq_varint (hmin _ (by simp))]
    rfl
  · intro hwire
    -- the layout of what the serializer writes is known too
    have hwritten := layout_append (isVarint_varint e.version.value.toNat) e.length_ids
      (isVarint_varint e.ratchetHeader.length) (varintValue_varint _)
      (isVarint_varint e.ciphertext.length) (varintValue_varint _)
      (isVarint_varint e.sentAtMs.toNat) []
    rw [List.append_nil] at hwritten
    change layout e.wire = _ at hwritten
    rw [hwire, hlayout] at hwritten
    obtain ⟨hvarints, rfl⟩ := Prod.mk.inj (Option.some.inj hwritten)
    refine ⟨_, hlayout, ?_, rfl⟩
    rw [hvarints]
    simp only [List.forall_mem_cons]
    exact ⟨minimal_varint _, minimal_varint _, minimal_varint _, minimal_varint _, by simp⟩

variable {toAllocvec : WireEnvelope → Option Bytes} {fromBytes : Bytes → Option WireEnvelope}

theorem decode_eq_ok_iff {b : Bytes} :
    decode fromBytes b = .ok e ↔ fromBytes b = some e ∧ e.validate = .ok () := by
  unfold decode
  cases hread : fromBytes b with
  | none => simp
  | some value =>
    dsimp only
    cases hvalid : value.validate with
    | error error =>
      refine iff_of_false (by simp) ?_
      rintro ⟨hsome, hok⟩
      obtain rfl := Option.some.inj hsome
      exact absurd (hvalid.symm.trans hok) (by simp)
    | ok u =>
      constructor
      · intro h
        obtain rfl := Except.ok.inj h
        exact ⟨rfl, hvalid⟩
      · rintro ⟨hsome, -⟩
        rw [Option.some.inj hsome]

theorem encode_eq_ok_iff (hpostcard : Postcard toAllocvec fromBytes) {b : Bytes} :
    e.encode toAllocvec = .ok b ↔ e.validate = .ok () ∧ e.wire = b := by
  unfold encode
  rw [hpostcard.writes e]
  cases e.validate with
  | error error => simp
  | ok u => simp

/-- **The encoding is not canonical.**  A valid envelope is encoded and read back; but a byte string
    that is read as an envelope is the encoding of it exactly if no varint in it has a byte that
    it does not need and no byte follows the envelope.  Of these an envelope has one. -/
theorem wire_encoding_canonical_iff (hpostcard : Postcard toAllocvec fromBytes) :
    (∀ e : WireEnvelope, e.validate = .ok () →
      ∃ b, e.encode toAllocvec = .ok b ∧ decode fromBytes b = .ok e) ∧
    (∀ b e, decode fromBytes b = .ok e → (e.encode toAllocvec = .ok b ↔ Tight b)) ∧
    ∀ b b' e, decode fromBytes b = .ok e → decode fromBytes b' = .ok e → Tight b → Tight b' →
      b = b' := by
  have hiff (b : Bytes) (e : WireEnvelope) (h : decode fromBytes b = .ok e) :
      e.encode toAllocvec = .ok b ↔ Tight b := by
    obtain ⟨hread, hvalid⟩ := decode_eq_ok_iff.mp h
    obtain ⟨word, rest, hword, rfl⟩ := (hpostcard.reads b e).mp hread
    rw [encode_eq_ok_iff hpostcard, hword.eq_wire_iff]
    exact and_iff_right hvalid
  refine ⟨?_, hiff, ?_⟩
  · intro e hvalid
    refine ⟨e.wire, (encode_eq_ok_iff hpostcard).mpr ⟨hvalid, rfl⟩,
      decode_eq_ok_iff.mpr ⟨?_, hvalid⟩⟩
    exact (hpostcard.reads _ e).mpr ⟨e.wire, [], spelled_wire hvalid, (List.append_nil _).symm⟩
  · intro b b' e h h' htight htight'
    have hb := (hiff b e h).mpr htight
    exact Except.ok.inj (hb.symm.trans ((hiff b' e h').mpr htight'))

end WireEnvelope

/-- One more byte, or a version of two bytes: the envelope is read all the same, but encoded it is
    neither of these. -/
theorem wire_encoding_not_canonical :
    (WireEnvelope.decode sampleFromBytes (sampleBytes ++ [0]) = .ok sampleWire ∧
      sampleWire.encode (fun e => some e.wire) ≠ .ok (sampleBytes ++ [0])) ∧
    WireEnvelope.decode sampleFromBytes ([129, 0] ++ sampleBytes.tail) = .ok sampleWire ∧
      sampleWire.encode (fun e => some e.wire) ≠ .ok ([129, 0] ++ sampleBytes.tail) := by
  rw [encode_sampleWire]
  exact ⟨⟨by decide, by decide⟩, by decide, by decide⟩

/-- Of the bytes of the sample and these with one more, both of which are read, the first are the
    encoding. -/
theorem wire_encoding_canonical_iff_sample :
    sampleWire.encode (fun e => some e.wire) = .ok sampleBytes ∧
      sampleWire.encode (fun e => some e.wire) ≠ .ok (sampleBytes ++ [0]) := by
  obtain ⟨-, hiff, -⟩ := WireEnvelope.wire_encoding_canonical_iff samplePostcard
  constructor
  · exact (hiff sampleBytes sampleWire (by decide)).mpr (by decide)
  · intro h
    exact absurd ((hiff _ sampleWire (by decide)).mp h) (by decide)

end NexaMessenger
