import NexaMessenger.Lib.Cursor
import NexaMessenger.Protocol

namespace NexaMessenger.Transport

open Lib

/-!
# Transport — frames

The wire frame of the transport crate: eight bytes of header (version, kind, flags, length of the
payload) and an opaque payload.  The length stands twice, in the header and as the length of the
vector, and `validate` says when the two agree and the frame may be sent.

* `fromBytes_cons` — on eight header bytes and a payload, `fromBytes` is `validate` of the frame
  that the header announces: its own three checks are among those of `validate`.
* `frame_codec_bijective` — hence the frames that are valid and the byte strings that are accepted
  are in bijection, and indexing never fails.
-/

/-- `PROTOCOL_VERSION` of the transport. -/
def protocolVersion : UInt16 := 1

/-- `HEADER_LEN`. -/
def headerLen : Nat := 8

/-- `MAX_FRAME`: 16 MiB. -/
def maxFrame : Nat := 16 * 1024 * 1024

inductive FrameKind
  | clientHello | encryptedMessage | messageAck | messageBatch | preKeyBundle | preKeyRequest
  | ping | pong
deriving DecidableEq, Repr

inductive FrameError
  | invalidVersion | unknownKind | emptyPayload | payloadTooLarge | lengthMismatch | truncated
deriving DecidableEq, Repr

namespace FrameKind

/-- `kind as u8`. -/
def toByte : FrameKind → UInt8
  | clientHello => 1
  | encryptedMessage => 2
  | messageAck => 3
  | messageBatch => 4
  | preKeyBundle => 5
  | preKeyRequest => 6
  | ping => 7
  | pong => 8

/-- `FrameKind::try_from`. -/
def tryFrom (value : UInt8) : Except FrameError FrameKind :=
  match value with
  | 1 => .ok clientHello
  | 2 => .ok encryptedMessage
  | 3 => .ok messageAck
  | 4 => .ok messageBatch
  | 5 => .ok preKeyBundle
  | 6 => .ok preKeyRequest
  | 7 => .ok ping
  | 8 => .ok pong
  | _ => .error .unknownKind

theorem tryFrom_toByte (kind : FrameKind) : tryFrom kind.toByte = .ok kind := by
  cases kind <;> rfl

end FrameKind

structure FrameHeader where
  version : UInt16
  kind : UInt8
  flags : UInt8
  payloadLen : UInt32
deriving DecidableEq, Repr

structure Frame where
  header : FrameHeader
  payload : Bytes
deriving DecidableEq, Repr

namespace Frame

/-- `Frame::new`. -/
def new (kind : FrameKind) (flags : UInt8) (payload : Bytes) : Except FrameError Frame :=
  if payload.isEmpty then .error .emptyPayload
  else if maxFrame < payload.length then .error .payloadTooLarge
  else .ok ⟨⟨protocolVersion, kind.toByte, flags, UInt32.ofNat payload.length⟩, payload⟩

/-- `Frame::kind`. -/
def kind (f : Frame) : Except FrameError FrameKind := FrameKind.tryFrom f.header.kind

/-- `Frame::validate`. -/
def validate (f : Frame) : Except FrameError Unit :=
  if f.header.version ≠ protocolVersion then .error .invalidVersion
  else
    match f.kind with
    | .error e => .error e
    | .ok _ =>
      if f.payload.isEmpty then .error .emptyPayload
      else if maxFrame < f.payload.length then .error .payloadTooLarge
      else if f.header.payloadLen.toNat ≠ f.payload.length then .error .lengthMismatch
      else .ok ()

/-- `Frame::to_bytes`. -/
def toBytes (f : Frame) : Except FrameError Bytes :=
  match f.validate with
  | .error e => .error e
  | .ok () =>
    if usizeMax < headerLen + f.payload.length then .error .payloadTooLarge
    else .ok (toBe 2 f.header.version.toNat ++ [f.header.kind] ++ [f.header.flags] ++
      toBe 4 f.header.payloadLen.toNat ++ f.payload)

/-- `Frame::from_bytes`. -/
def fromBytes (bytes : Bytes) : Except (Fault FrameError) Frame :=
  if bytes.length < headerLen then .error (.error .truncated)
  else do
    let version := UInt16.ofNat (ofBe [← indexByte bytes 0, ← indexByte bytes 1])
    let kind ← indexByte bytes 2
    let flags ← indexByte bytes 3
    let payloadLen := UInt32.ofNat (ofBe [← indexByte bytes 4, ← indexByte bytes 5,
      ← indexByte bytes 6, ← indexByte bytes 7])
    if payloadLen.toNat = 0 then .error (.error .emptyPayload)
    else if maxFrame < payloadLen.toNat then .error (.error .payloadTooLarge)
    else do
      let expected ← addIndex usizeMax (.error .payloadTooLarge) headerLen payloadLen.toNat
      if bytes.length ≠ expected then .error (.error .lengthMismatch)
      else do
        let payload ← indexRange bytes headerLen bytes.length
        let frame : Frame := ⟨⟨version, kind, flags, payloadLen⟩, payload⟩
        match frame.validate with
        | .error e => .error (.error e)
        | .ok () => .ok frame

/-! ### What the three functions accept -/

/-- What `validate` checks. -/
structure Valid (f : Frame) : Prop where
  version : f.header.version = protocolVersion
  kind : ∃ kind, FrameKind.tryFrom f.header.kind = .ok kind
  nonempty : f.payload ≠ []
  bounded : f.payload.length ≤ maxFrame
  length : f.header.payloadLen.toNat = f.payload.length

theorem validate_eq_ok_iff {f : Frame} : f.validate = .ok () ↔ Valid f := by
  unfold validate Frame.kind
  constructor
  · intro h
    split at h
    · exact absurd h (by simp)
    rename_i hversion
    split at h
    · exact absurd h (by simp)
    rename_i kind hkind
    split at h
    · exact absurd h (by simp)
    rename_i hempty
    split at h
    · exact absurd h (by simp)
    rename_i hlarge
    split at h
    · exact absurd h (by simp)
    rename_i hlength
    exact ⟨not_not.mp hversion, ⟨kind, hkind⟩, fun hnil => hempty (List.isEmpty_iff.mpr hnil),
      not_lt.mp hlarge, not_not.mp hlength⟩
  · rintro ⟨hversion, ⟨kind, hkind⟩, hnonempty, hbounded, hlength⟩
    rw [if_neg (not_not.mpr hversion), hkind]
    dsimp only
    rw [if_neg (fun hempty => hnonempty (List.isEmpty_iff.mp hempty)), if_neg (not_lt.mpr hbounded),
      if_neg (not_not.mpr hlength)]

/-- A frame that `new` builds is valid. -/
theorem valid_of_new {kind : FrameKind} {flags : UInt8} {payload : Bytes} {f : Frame}
    (h : new kind flags payload = .ok f) : Valid f := by
  unfold new at h
  split at h
  · exact absurd h (by simp)
  rename_i hempty
  split at h
  · exact absurd h (by simp)
  rename_i hlarge
  obtain rfl := Except.ok.inj h
  have hbounded : payload.length ≤ maxFrame := not_lt.mp hlarge
  refine ⟨rfl, ⟨kind, FrameKind.tryFrom_toByte kind⟩,
    fun hnil => hempty (List.isEmpty_iff.mpr hnil), hbounded, ?_⟩
  -- 16 MiB fit in 32 bits
  refine UInt32.toNat_ofNat_of_lt' (lt_of_le_of_lt hbounded ?_)
  decide

/-- The bytes of a frame: the header and the payload. -/
def write (f : Frame) : Bytes :=
  toBe 2 f.header.version.toNat ++ (f.header.kind :: f.header.flags ::
    (toBe 4 f.header.payloadLen.toNat ++ f.payload))

theorem length_write (f : Frame) : f.write.length = headerLen + f.payload.length := by
  simp only [write, List.length_append, List.length_cons, length_toBe]
  unfold headerLen
  omega

theorem toBytes_eq_ok_iff {f : Frame} {b : Bytes} :
    f.toBytes = .ok b ↔ Valid f ∧ b = f.write := by
  rw [← validate_eq_ok_iff, toBytes]
  cases hvalid : f.validate with
  | error e => exact ⟨fun h => absurd h (by simp), fun h => absurd h.1 (by simp)⟩
  | ok u =>
    have hbounded := (validate_eq_ok_iff.mp hvalid).bounded
    dsimp only
    rw [if_neg (by unfold usizeMax headerLen; unfold maxFrame at hbounded; omega)]
    simp only [write, List.append_assoc, List.cons_append, List.nil_append,
      Except.ok.injEq, true_and]
    exact eq_comm

/-- The header that eight bytes spell. -/
def readHeader (b0 b1 kind flags l0 l1 l2 l3 : UInt8) : FrameHeader where
  version := UInt16.ofNat (ofBe [b0, b1])
  kind := kind
  flags := flags
  payloadLen := UInt32.ofNat (ofBe [l0, l1, l2, l3])

/-- `fromBytes` on eight header bytes and a payload. -/
theorem fromBytes_eq (b0 b1 kind flags l0 l1 l2 l3 : UInt8) (payload : Bytes) :
    fromBytes (b0 :: b1 :: kind :: flags :: l0 :: l1 :: l2 :: l3 :: payload) =
      let header := readHeader b0 b1 kind flags l0 l1 l2 l3
      if header.payloadLen.toNat = 0 then .error (.error .emptyPayload)
      else if maxFrame < header.payloadLen.toNat then .error (.error .payloadTooLarge)
      else if payload.length + headerLen ≠ headerLen + header.payloadLen.toNat then
        .error (.error .lengthMismatch)
      else
        match validate ⟨header, payload⟩ with
        | .error e => .error (.error e)
        | .ok () => .ok ⟨header, payload⟩ := by
  have hpayload : indexRange (ε := FrameError)
      (b0 :: b1 :: kind :: flags :: l0 :: l1 :: l2 :: l3 :: payload) headerLen
      (payload.length + headerLen) = .ok payload := by
    rw [indexRange, if_pos (by simp [headerLen])]
    simp [slice, headerLen]
  unfold fromBytes
  rw [if_neg (by simp [headerLen])]
  -- the eight bytes are there, so the reads come to the tests on the length
  show (if _ then _ else _) = _
  dsimp only
  split
  · rename_i hzero
    exact (if_pos hzero).symm
  rename_i hzero
  refine Eq.trans ?_ (if_neg hzero).symm
  split
  · rename_i hlarge
    exact (if_pos hlarge).symm
  rename_i hlarge
  refine Eq.trans ?_ (if_neg hlarge).symm
  rw [addIndex, if_pos (by unfold maxFrame at hlarge; unfold headerLen usizeMax; omega)]
  show (if _ then _ else _) = _
  split
  · rename_i hlength
    exact (if_pos hlength).symm
  rename_i hlength
  refine Eq.trans ?_ (if_neg hlength).symm
  show (indexRange _ headerLen (payload.length + headerLen) >>= _) = _
  rw [hpayload]
  rfl

/-- **`fromBytes` is `validate`** of the frame that the header announces. -/
theorem fromBytes_cons (b0 b1 kind flags l0 l1 l2 l3 : UInt8) (payload : Bytes) (f : Frame) :
    fromBytes (b0 :: b1 :: kind :: flags :: l0 :: l1 :: l2 :: l3 :: payload) = .ok f ↔
      f = ⟨readHeader b0 b1 kind flags l0 l1 l2 l3, payload⟩ ∧ Valid f := by
  rw [fromBytes_eq]
  generalize readHeader b0 b1 kind flags l0 l1 l2 l3 = header
  dsimp only
  constructor
  · intro h
    split at h
    · exact absurd h (by simp)
    split at h
    · exact absurd h (by simp)
    split at h
    · exact absurd h (by simp)
    split at h
    · exact absurd h (by simp)
    · rename_i hvalid
      obtain rfl := Except.ok.inj h
      exact ⟨rfl, validate_eq_ok_iff.mp hvalid⟩
  · rintro ⟨rfl, hvalid⟩
    have hlength := hvalid.length
    have hbounded := hvalid.bounded
    have hpos := List.length_pos_iff.mpr hvalid.nonempty
    dsimp only at hlength hbounded hpos
    -- a valid frame passes the three tests before it
    rw [if_neg (by omega), if_neg (by omega), if_neg (by omega), validate_eq_ok_iff.mpr hvalid]

/-- What is too short for a header is refused. -/
theorem fromBytes_short {b : Bytes} (h : b.length < headerLen) :
    fromBytes b = .error (.error .truncated) := if_pos h

/-- The first eight bytes of a string that has so many. -/
theorem exists_header {b : Bytes} (h : headerLen ≤ b.length) :
    ∃ b0 b1 kind flags l0 l1 l2 l3 payload,
      b = b0 :: b1 :: kind :: flags :: l0 :: l1 :: l2 :: l3 :: payload := by
  match b, h with
  | b0 :: b1 :: kind :: flags :: l0 :: l1 :: l2 :: l3 :: payload, _ =>
    exact ⟨b0, b1, kind, flags, l0, l1, l2, l3, payload, rfl⟩

/-- Writing the header that eight bytes spell gives them back. -/
theorem write_readHeader (b0 b1 kind flags l0 l1 l2 l3 : UInt8) (payload : Bytes) :
    write ⟨readHeader b0 b1 kind flags l0 l1 l2 l3, payload⟩ =
      b0 :: b1 :: kind :: flags :: l0 :: l1 :: l2 :: l3 :: payload := by
  have hversion : toBe 2 (UInt16.ofNat (ofBe [b0, b1])).toNat = [b0, b1] := toBe_ofBe16 rfl
  have hlength : toBe 4 (UInt32.ofNat (ofBe [l0, l1, l2, l3])).toNat = [l0, l1, l2, l3] :=
    toBe_ofBe32 rfl
  simp only [write, readHeader, hversion, hlength]
  rfl

/-- The bytes of a frame spell its header. -/
theorem exists_write (f : Frame) : ∃ b0 b1 kind flags l0 l1 l2 l3,
    f.write = b0 :: b1 :: kind :: flags :: l0 :: l1 :: l2 :: l3 :: f.payload ∧
      f.header = readHeader b0 b1 kind flags l0 l1 l2 l3 := by
  obtain ⟨b0, b1, hversion⟩ := List.length_eq_two.mp (length_toBe 2 f.header.version.toNat)
  obtain ⟨l0, l1, l2, l3, hlength⟩ : ∃ l0 l1 l2 l3,
      toBe 4 f.header.payloadLen.toNat = [l0, l1, l2, l3] := ⟨_, _, _, _, rfl⟩
  refine ⟨b0, b1, f.header.kind, f.header.flags, l0, l1, l2, l3, ?_, ?_⟩
  · rw [write, hversion, hlength]
    rfl
  · rw [readHeader, ← hversion, ← hlength, ofBe_toBe f.header.version.toNat_lt,
      ofBe_toBe f.header.payloadLen.toNat_lt, UInt16.ofNat_toNat, UInt32.ofNat_toNat]

/-- **The codec, exactly.** What is accepted is the encoding of the result. -/
theorem fromBytes_eq_ok_iff {b : Bytes} {f : Frame} :
    fromBytes b = .ok f ↔ f.validate = .ok () ∧ f.toBytes = .ok b := by
  rw [toBytes_eq_ok_iff, validate_eq_ok_iff]
  constructor
  · intro h
    have hlong : headerLen ≤ b.length := by
      by_contra hshort
      rw [fromBytes_short (not_le.mp hshort)] at h
      exact absurd h (by simp)
    obtain ⟨b0, b1, kind, flags, l0, l1, l2, l3, payload, rfl⟩ := exists_header hlong
    obtain ⟨rfl, hvalid⟩ := (fromBytes_cons _ _ _ _ _ _ _ _ _ _).mp h
    exact ⟨hvalid, hvalid, (write_readHeader _ _ _ _ _ _ _ _ _).symm⟩
  · rintro ⟨-, hvalid, rfl⟩
    obtain ⟨b0, b1, kind, flags, l0, l1, l2, l3, hwrite, hheader⟩ := exists_write f
    rw [hwrite, fromBytes_cons, ← hheader]
    exact ⟨rfl, hvalid⟩

/-- Indexing never fails. -/
theorem fromBytes_safe (b : Bytes) : fromBytes b ≠ .error .panic := by
  rcases Nat.lt_or_ge b.length headerLen with hshort | hlong
  · rw [fromBytes_short hshort]
    exact error_ne_panic _
  · obtain ⟨b0, b1, kind, flags, l0, l1, l2, l3, payload, rfl⟩ := exists_header hlong
    rw [fromBytes_eq]
    dsimp only
    repeat' split
    all_goals first | exact error_ne_panic _ | exact ok_ne_panic _

/-- The header of an accepted byte string: the current version, a known kind, and a length that is
    positive, within the limit and the number of the bytes that follow. -/
structure WellFormed (b : Bytes) : Prop where
  long : headerLen ≤ b.length
  version : UInt16.ofNat (ofBe (slice b 0 2)) = protocolVersion
  kind : ∃ kind, FrameKind.tryFrom (b.getD 2 0) = .ok kind
  positive : 1 ≤ ofBe (slice b 4 8)
  bounded : ofBe (slice b 4 8) ≤ maxFrame
  length : ofBe (slice b 4 8) = b.length - headerLen

theorem exists_fromBytes_iff {b : Bytes} : (∃ f, fromBytes b = .ok f) ↔ WellFormed b := by
  rcases Nat.lt_or_ge b.length headerLen with hshort | hlong
  · rw [fromBytes_short hshort]
    exact iff_of_false (by simp) fun h => absurd h.long (not_le.mpr hshort)
  obtain ⟨b0, b1, kind, flags, l0, l1, l2, l3, payload, rfl⟩ := exists_header hlong
  simp only [fromBytes_cons]
  have hheader := toNat_ofBe32 (b := [l0, l1, l2, l3]) rfl
  constructor
  · rintro ⟨f, rfl, hvalid⟩
    have hlength := hvalid.length
    have hbounded := hvalid.bounded
    have hpos := List.length_pos_iff.mpr hvalid.nonempty
    rw [readHeader, hheader] at hlength
    dsimp only at hlength hbounded hpos
    exact ⟨hlong, hvalid.version, hvalid.kind, show 1 ≤ ofBe [l0, l1, l2, l3] by omega,
      show ofBe [l0, l1, l2, l3] ≤ _ by omega, hlength⟩
  · rintro ⟨-, hversion, hkind, hpos, hbounded, hlength⟩
    have hpos : 1 ≤ ofBe [l0, l1, l2, l3] := hpos
    have hbounded : ofBe [l0, l1, l2, l3] ≤ maxFrame := hbounded
    have hlength : ofBe [l0, l1, l2, l3] = payload.length := hlength
    refine ⟨_, rfl, hversion, hkind, ?_, by dsimp only; omega, hheader.trans hlength⟩
    rintro rfl
    rw [List.length_nil] at hlength
    omega

/-- **The frame codec is a bijection** between valid frames and accepted byte strings.  A valid
    frame, and so any that `new` builds, is encoded and read back; reading never indexes out of
    bounds, and what it accepts is the encoding of a valid frame; it accepts exactly the strings
    with a well-formed header. -/
theorem frame_codec_bijective :
    (∀ f : Frame, f.validate = .ok () → ∃ b, f.toBytes = .ok b ∧ fromBytes b = .ok f) ∧
    (∀ kind flags payload f, new kind flags payload = .ok f → f.validate = .ok ()) ∧
    ∀ b : Bytes, fromBytes b ≠ .error .panic ∧
      (∀ f, fromBytes b = .ok f → f.validate = .ok () ∧ f.toBytes = .ok b) ∧
      ((∃ f, fromBytes b = .ok f) ↔ WellFormed b) := by
  refine ⟨fun f hvalid => ?_, fun kind flags payload f h => ?_, fun b => ?_⟩
  · have hbytes := toBytes_eq_ok_iff.mpr ⟨validate_eq_ok_iff.mp hvalid, rfl⟩
    exact ⟨f.write, hbytes, fromBytes_eq_ok_iff.mpr ⟨hvalid, hbytes⟩⟩
  · exact validate_eq_ok_iff.mpr (valid_of_new h)
  · exact ⟨fromBytes_safe b, fun f => fromBytes_eq_ok_iff.mp, exists_fromBytes_iff⟩

end Frame

end NexaMessenger.Transport
