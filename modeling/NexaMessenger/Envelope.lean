import NexaMessenger.Ratchet.SkippedKeys

namespace NexaMessenger

open Lib Ratchet

/-!
# Envelope — metadata that is authenticated with the ciphertext

A `WireEnvelope` carries a packet of the ratchet with its metadata, and `aad` writes the metadata
down as the associated data under which the packet is sealed.  Every field but the ratchet header
has a fixed length and the header is preceded by its length, so that equal associated data mean
equal metadata (`aad_injective`).

A receiver that is given the header, the packet and the associated data of an envelope therefore
opens it only if the sender sealed that packet under that metadata; any other envelope is refused
and leaves the receiver as it was (`tampering_detected`).
-/

/-- `MAX_HEADER`. -/
def maxHeader : Nat := 256

/-- `AAD_DOMAIN`. -/
def aadDomain : Bytes := ascii "M/ENVELOPE-AAD/v1"

inductive EnvelopeError
  | decode | unsupportedVersion | headerTooLarge | ciphertextTooLarge | invalidIds
deriving DecidableEq, Repr

structure WireEnvelope where
  version : ProtocolVersion
  messageId : Id16
  conversationId : Id16
  senderDeviceId : Id16
  recipientDeviceId : Id16
  ratchetHeader : Bytes
  ciphertext : Bytes
  sentAtMs : UInt64
deriving DecidableEq, Repr

namespace WireEnvelope

/-- `WireEnvelope::validate_metadata`. -/
def validateMetadata (e : WireEnvelope) : Except EnvelopeError Unit :=
  if e.version.value ≠ protocolVersion then .error .unsupportedVersion
  else if maxHeader < e.ratchetHeader.length then .error .headerTooLarge
  else if e.messageId = zeros 16 ∨ e.conversationId = zeros 16 then .error .invalidIds
  else .ok ()

/-- `MAX_CIPHERTEXT`. -/
def maxCiphertext : Nat := 1024 * 1024 * 16

/-- `WireEnvelope::validate`. -/
def validate (e : WireEnvelope) : Except EnvelopeError Unit :=
  match e.validateMetadata with
  | .error error => .error error
  | .ok () =>
    if e.ciphertext.isEmpty ∨ maxCiphertext < e.ciphertext.length then .error .ciphertextTooLarge
    else .ok ()

/-- `From<EncryptedMessage>`. -/
def ofMessage (m : EncryptedMessage) : WireEnvelope where
  version := m.version
  messageId := m.messageId
  conversationId := m.conversationId
  senderDeviceId := m.senderDeviceId
  recipientDeviceId := m.recipientDeviceId
  ratchetHeader := m.ratchetHeader
  ciphertext := m.ciphertext
  sentAtMs := m.sentAtMs

/-- `WireEnvelope::encode`; the serializer of postcard is a parameter. -/
def encode (toAllocvec : WireEnvelope → Option Bytes) (e : WireEnvelope) :
    Except EnvelopeError Bytes :=
  match e.validate with
  | .error error => .error error
  | .ok () =>
    match toAllocvec e with
    | none => .error .decode
    | some bytes => .ok bytes

/-- `WireEnvelope::decode`; the deserializer of postcard is a parameter. -/
def decode (fromBytes : Bytes → Option WireEnvelope) (bytes : Bytes) :
    Except EnvelopeError WireEnvelope :=
  match fromBytes bytes with
  | none => .error .decode
  | some value =>
    match value.validate with
    | .error error => .error error
    | .ok () => .ok value

/-- `WireEnvelope::aad`; the ciphertext is left out of it. -/
def aad (e : WireEnvelope) : Except EnvelopeError Bytes :=
  match e.validateMetadata with
  | .error error => .error error
  | .ok () =>
    if 2 ^ 32 ≤ e.ratchetHeader.length then .error .headerTooLarge
    else .ok (aadDomain ++ toBe 2 e.version.value.toNat ++ e.messageId.toList ++
      e.conversationId.toList ++ e.senderDeviceId.toList ++ e.recipientDeviceId.toList ++
      toBe 4 e.ratchetHeader.length ++ e.ratchetHeader ++ beBytes e.sentAtMs)

/-! ### What the checks accept -/

theorem validateMetadata_eq_ok_iff {e : WireEnvelope} :
    e.validateMetadata = .ok () ↔ e.version = ⟨protocolVersion⟩ ∧
      e.ratchetHeader.length ≤ maxHeader ∧ e.messageId ≠ zeros 16 ∧
      e.conversationId ≠ zeros 16 := by
  obtain ⟨⟨version⟩, _, _, _, _, _, _, _⟩ := e
  unfold validateMetadata
  rw [ProtocolVersion.mk.injEq]
  dsimp only
  split
  · rename_i hversion
    exact iff_of_false (by simp) fun h => hversion h.1
  split
  · rename_i hheader
    exact iff_of_false (by simp) fun h => absurd h.2.1 (not_le.mpr hheader)
  split
  · rename_i hids
    exact iff_of_false (by simp) fun h => hids.elim h.2.2.1 h.2.2.2
  · rename_i hversion hheader hids
    exact iff_of_true rfl ⟨not_not.mp hversion, not_lt.mp hheader, not_or.mp hids⟩

theorem validate_eq_ok_iff {e : WireEnvelope} :
    e.validate = .ok () ↔ e.validateMetadata = .ok () ∧ e.ciphertext ≠ [] ∧
      e.ciphertext.length ≤ maxCiphertext := by
  unfold validate
  cases e.validateMetadata with
  | error error => exact iff_of_false (by simp) fun h => absurd h.1 (by simp)
  | ok u =>
    dsimp only
    split
    · rename_i hlarge
      refine iff_of_false (by simp) fun h => hlarge.elim (fun hempty => ?_) (not_lt.mpr h.2.2)
      exact h.2.1 (List.isEmpty_iff.mp hempty)
    · rename_i hfits
      obtain ⟨hnonempty, hbounded⟩ := not_or.mp hfits
      exact iff_of_true rfl ⟨rfl, fun hnil => hnonempty (List.isEmpty_iff.mpr hnil),
        not_lt.mp hbounded⟩

/-- Only valid envelopes are encoded. -/
theorem valid_of_encode {toAllocvec : WireEnvelope → Option Bytes} {e : WireEnvelope} {b : Bytes}
    (h : e.encode toAllocvec = .ok b) : e.validate = .ok () := by
  unfold encode at h
  cases hvalid : e.validate with
  | error error =>
    rw [hvalid] at h
    exact absurd h (by simp)
  | ok u => rfl

/-! ### Associated data determines the metadata -/

/-- An envelope with valid metadata has a header far shorter than its length field allows. -/
theorem header_lt_of_valid {e : WireEnvelope} (h : e.validateMetadata = .ok ()) :
    e.ratchetHeader.length < 2 ^ 32 := by
  have hheader := (validateMetadata_eq_ok_iff.mp h).2.1
  unfold maxHeader at hheader
  omega

/-- Only valid metadata has associated data, and all valid metadata has. -/
theorem aad_eq_ok_iff {e : WireEnvelope} {a : Bytes} :
    e.aad = .ok a ↔ e.validateMetadata = .ok () ∧
      a = aadDomain ++ (toBe 2 e.version.value.toNat ++ (e.messageId.toList ++
        (e.conversationId.toList ++ (e.senderDeviceId.toList ++ (e.recipientDeviceId.toList ++
        (toBe 4 e.ratchetHeader.length ++ (e.ratchetHeader ++ beBytes e.sentAtMs))))))) := by
  unfold aad
  cases hvalid : e.validateMetadata with
  | error error => exact ⟨fun h => absurd h (by simp), fun h => absurd h.1 (by simp)⟩
  | ok u =>
    have hheader := header_lt_of_valid hvalid
    dsimp only
    rw [if_neg (by omega)]
    simp only [List.append_assoc, Except.ok.injEq, true_and]
    exact eq_comm

/-- **The associated data is injective on metadata**: envelopes with the same associated data
    differ in the ciphertext at most. -/
theorem aad_injective {e e' : WireEnvelope} {a : Bytes} (h : e.aad = .ok a)
    (h' : e'.aad = .ok a) : { e with ciphertext := e'.ciphertext } = e' := by
  obtain ⟨hvalid, rfl⟩ := aad_eq_ok_iff.mp h
  obtain ⟨hvalid', hsame⟩ := aad_eq_ok_iff.mp h'
  have hlen := header_lt_of_valid hvalid
  have hlen' := header_lt_of_valid hvalid'
  obtain ⟨⟨version⟩, message, conversation, sender, recipient, header, _, sentAt⟩ := e
  obtain ⟨⟨version'⟩, message', conversation', sender', recipient', header', _, sentAt'⟩ := e'
  dsimp only at hsame hlen hlen' ⊢
  have h := List.append_cancel_left hsame
  obtain ⟨hversion, h⟩ := List.append_inj h (by simp)
  obtain ⟨hmessage, h⟩ := List.append_inj h (by simp)
  obtain ⟨hconversation, h⟩ := List.append_inj h (by simp)
  obtain ⟨hsender, h⟩ := List.append_inj h (by simp)
  obtain ⟨hrecipient, h⟩ := List.append_inj h (by simp)
  -- the header's length is read before the header itself
  obtain ⟨hlength, h⟩ := List.append_inj h (by simp)
  obtain ⟨hheader, hsentAt⟩ := List.append_inj h (toBe_injective hlen hlen' hlength)
  rw [toBe_injective16 hversion, Vector.toList_inj.mp hmessage, Vector.toList_inj.mp hconversation,
    Vector.toList_inj.mp hsender, Vector.toList_inj.mp hrecipient, hheader,
    beBytes_injective hsentAt]

end WireEnvelope

/-! ### The sender -/

section
variable (hkdf : Hkdf) (aead : Aead)

/-- A call of `encrypt`. -/
def encryptOp (s : RatchetState) (x : Plain) : Except RatchetError Bytes × RatchetState :=
  s.encrypt hkdf aead x.nonce x.plaintext x.aad

/-- On its way through `sent` the sender is given `x` in the state `s`. -/
def Encrypts (sender : RatchetState) (sent : List Plain) (s : RatchetState) (x : Plain) : Prop :=
  ∃ pre post, sent = pre ++ x :: post ∧ s = after (encryptOp hkdf aead) sender pre

/-- The sender produced the ciphertext under the envelope's associated data, when its counter was
    the one in the header. -/
def GenuineEnvelope (sender : RatchetState) (sent : List Plain) (e : WireEnvelope) : Prop :=
  ∃ s x, Encrypts hkdf aead sender sent s x ∧ (encryptOp hkdf aead s x).1 = .ok e.ciphertext ∧
    e.aad = .ok x.aad ∧ e.ratchetHeader = (RatchetHeader.new s.nextCounter).encode

/-- The messages of a root have keys of their own. -/
def DistinctKeys (root : Key32) : Prop :=
  ∀ i j key, messageKey hkdf root i = some key → messageKey hkdf root j = some key → i = j

/-- A key of the root opens the packet under this associated data only if the sender produced the
    packet with that key and associated data. -/
def Unforged (root : Key32) (sender : RatchetState) (sent : List Plain) (packet aad : Bytes) :
    Prop :=
  ∀ i key plaintext, messageKey hkdf root i = some key →
    RatchetState.decryptOnce aead key packet aad = .ok plaintext →
    ∃ s x, Encrypts hkdf aead sender sent s x ∧ (s.nextMessageKey hkdf).1 = .ok key ∧
      x.aad = aad ∧ (encryptOp hkdf aead s x).1 = .ok packet

end

section

variable {hkdf : Hkdf} {aead : Aead} {root : Key32} {sender : RatchetState} {sent : List Plain}

/-- A sender is on the chain of its root, or its counter is used up. -/
def Sends (hkdf : Hkdf) (root : Key32) (s : RatchetState) : Prop :=
  OnChain hkdf root s ∨ s.nextCounter = u64Max

/-- A step without a key keeps the counter; only at its maximum the chain key is replaced. -/
theorem nextMessageKey_error {s s' : RatchetState} {e : RatchetError}
    (h : s.nextMessageKey hkdf = (.error e, s')) :
    s' = s ∨ s.nextCounter = u64Max ∧ s'.nextCounter = u64Max := by
  unfold RatchetState.nextMessageKey at h
  split at h
  · exact Or.inl (Prod.mk.inj h).2.symm
  split at h
  · exact Or.inl (Prod.mk.inj h).2.symm
  split at h
  · rename_i hfull
    obtain ⟨-, rfl⟩ := Prod.mk.inj h
    -- the sum overflows at the largest counter only
    have hmax : s.nextCounter = u64Max := by
      have hone : (1 : UInt64).toNat = 1 := rfl
      have hlast : u64Max.toNat = 2 ^ 64 - 1 := rfl
      have hbound := s.nextCounter.toNat_lt
      rw [checkedAdd_eq_none_iff] at hfull
      exact UInt64.toNat_inj.mp (by omega)
    exact Or.inr ⟨hmax, hmax⟩
  · exact absurd (Prod.mk.inj h).1 (by simp)

/-- The key a sender encrypts with is that of the message its counter names. -/
theorem Sends.next {s s' : RatchetState} {key : Key32} (h : Sends hkdf root s)
    (hkey : s.nextMessageKey hkdf = (.ok key, s')) :
    messageKey hkdf root s.nextCounter.toNat = some key ∧ OnChain hkdf root s' := by
  rcases h with hchain | hmax
  · exact hchain.next hkey
  · -- at its maximum the counter cannot step, so there is no key
    have hcounter := nextMessageKey_counter hkey
    have hbound := s'.nextCounter.toNat_lt
    have hlast : u64Max.toNat = 2 ^ 64 - 1 := rfl
    rw [hcounter, hmax, hlast] at hbound
    omega

/-- A packet comes with the key of the step that produced it. -/
theorem encryptOp_ok {s : RatchetState} {x : Plain} {packet : Bytes}
    (h : (encryptOp hkdf aead s x).1 = .ok packet) :
    ∃ key, s.nextMessageKey hkdf = (.ok key, (encryptOp hkdf aead s x).2) := by
  unfold encryptOp RatchetState.encrypt at h ⊢
  rcases hstep : s.nextMessageKey hkdf with ⟨e | key, s'⟩
  · rw [hstep] at h
    exact absurd h (by simp)
  · dsimp only
    exact ⟨key, by split <;> rfl⟩

/-- **One encryption** keeps the sender on its chain and never moves its counter back. -/
theorem Sends.step {s : RatchetState} (h : Sends hkdf root s) (aead : Aead) (x : Plain) :
    Sends hkdf root (encryptOp hkdf aead s x).2 ∧
      s.nextCounter ≤ (encryptOp hkdf aead s x).2.nextCounter := by
  unfold encryptOp RatchetState.encrypt
  rcases hstep : s.nextMessageKey hkdf with ⟨e | key, s'⟩
  · dsimp only
    rcases nextMessageKey_error hstep with rfl | ⟨hmax, hmax'⟩
    · exact ⟨h, UInt64.le_refl _⟩
    · exact ⟨Or.inr hmax', by rw [hmax, hmax']; exact UInt64.le_refl _⟩
  · have hcounter := nextMessageKey_counter hstep
    have hnext : Sends hkdf root s' ∧ s.nextCounter ≤ s'.nextCounter :=
      ⟨Or.inl (h.next hstep).2, by rw [word_le_iff]; omega⟩
    dsimp only
    split <;> exact hnext

theorem Sends.run {s : RatchetState} (h : Sends hkdf root s) (aead : Aead) (xs : List Plain) :
    Sends hkdf root (after (encryptOp hkdf aead) s xs) ∧
      s.nextCounter ≤ (after (encryptOp hkdf aead) s xs).nextCounter := by
  refine after_invariant (P := fun t => Sends hkdf root t ∧ s.nextCounter ≤ t.nextCounter)
    (fun t x ht => ?_) ⟨h, UInt64.le_refl _⟩ xs
  have hstep := ht.1.step aead x
  exact ⟨hstep.1, UInt64.le_trans ht.2 hstep.2⟩

/-- After a packet the counter of its message is not used again. -/
theorem Sends.lt_after {s : RatchetState} (h : Sends hkdf root s) {x : Plain} {packet : Bytes}
    (hok : (encryptOp hkdf aead s x).1 = .ok packet) (xs : List Plain) :
    s.nextCounter < (after (encryptOp hkdf aead) s (x :: xs)).nextCounter := by
  obtain ⟨key, hkey⟩ := encryptOp_ok hok
  have hrest := ((h.step aead x).1.run aead xs).2
  rw [word_le_iff, nextMessageKey_counter hkey] at hrest
  rw [word_lt_iff, after_cons]
  omega

/-- A sender that starts from a root encrypts in states of that root. -/
theorem Encrypts.sends (hsender : RatchetState.fromRoot hkdf root = .ok sender)
    {s : RatchetState} {x : Plain} (h : Encrypts hkdf aead sender sent s x) :
    Sends hkdf root s := by
  obtain ⟨pre, post, -, rfl⟩ := h
  have hstart : Sends hkdf root sender := Or.inl (onChain_of_fromRoot hsender)
  exact (hstart.run aead pre).1

/-- No two packets of a sender are produced at one counter. -/
theorem Encrypts.unique (hsender : RatchetState.fromRoot hkdf root = .ok sender)
    {s s' : RatchetState} {x x' : Plain} {packet packet' : Bytes}
    (h : Encrypts hkdf aead sender sent s x) (h' : Encrypts hkdf aead sender sent s' x')
    (hok : (encryptOp hkdf aead s x).1 = .ok packet)
    (hok' : (encryptOp hkdf aead s' x').1 = .ok packet')
    (hcounter : s.nextCounter = s'.nextCounter) : s = s' ∧ x = x' := by
  -- of two different places in the list one comes first, and has the smaller counter
  have hfirst {t t' : RatchetState} {y : Plain} {p : Bytes} {pre mid : List Plain}
      (ht : Encrypts hkdf aead sender sent t y) (hp : (encryptOp hkdf aead t y).1 = .ok p)
      (hpre : t = after (encryptOp hkdf aead) sender pre)
      (hpre' : t' = after (encryptOp hkdf aead) sender (pre ++ y :: mid)) :
      t.nextCounter ≠ t'.nextCounter := by
    have hlt := (ht.sends hsender).lt_after hp mid
    rw [hpre', after_append, ← hpre]
    intro heq
    rw [← heq] at hlt
    exact UInt64.lt_irrefl _ hlt
  have hs := h
  have hs' := h'
  obtain ⟨pre, post, hsent, hpre⟩ := h
  obtain ⟨pre', post', hsent', hpre'⟩ := h'
  -- one of the two places is not after the other
  rcases List.append_eq_append_iff.mp (hsent.symm.trans hsent') with
    ⟨mid, hpres, hposts⟩ | ⟨mid, hpres, hposts⟩
  · cases mid with
    | nil =>
      rw [List.append_nil] at hpres
      exact ⟨by rw [hpre, hpre', hpres], (List.cons.inj hposts).1⟩
    | cons y mid =>
      obtain ⟨rfl, -⟩ := List.cons.inj hposts
      exact absurd hcounter (hfirst hs hok hpre (by rw [hpre', hpres]))
  · cases mid with
    | nil =>
      rw [List.append_nil] at hpres
      exact ⟨by rw [hpre, hpre', hpres], (List.cons.inj hposts).1.symm⟩
    | cons y mid =>
      obtain ⟨rfl, -⟩ := List.cons.inj hposts
      exact absurd hcounter.symm (hfirst hs' hok' hpre' (by rw [hpre, hpres]))

/-! ### The receiver -/

theorem encode_new_injective {c c' : UInt64}
    (h : (RatchetHeader.new c).encode = (RatchetHeader.new c').encode) : c = c' :=
  beBytes_injective (List.append_cancel_left h)

/-- A genuine envelope is the only one with its header. -/
theorem GenuineEnvelope.unique (hsender : RatchetState.fromRoot hkdf root = .ok sender)
    {e e' : WireEnvelope} (h : GenuineEnvelope hkdf aead sender sent e)
    (h' : GenuineEnvelope hkdf aead sender sent e') (hheader : e.ratchetHeader = e'.ratchetHeader) :
    e = e' := by
  obtain ⟨s, x, hs, hok, haad, hs_header⟩ := h
  obtain ⟨s', x', hs', hok', haad', hs_header'⟩ := h'
  rw [hs_header, hs_header'] at hheader
  -- one header, so one counter, so one call of `encrypt`
  obtain ⟨rfl, rfl⟩ := hs.unique hsender hs' hok hok' (encode_new_injective hheader)
  have htext : e.ciphertext = e'.ciphertext := Except.ok.inj (hok.symm.trans hok')
  have hmeta := WireEnvelope.aad_injective haad haad'
  rw [← htext] at hmeta
  exact hmeta

/-- A packet that opens under the associated data of an envelope makes the envelope genuine. -/
theorem genuine_of_opens (hsender : RatchetState.fromRoot hkdf root = .ok sender)
    (hkeys : DistinctKeys hkdf root) {e : WireEnvelope} {aad plaintext : Bytes}
    {counter : UInt64} (haad : e.aad = .ok aad)
    (hheader : e.ratchetHeader = (RatchetHeader.new counter).encode)
    (haead : Unforged hkdf aead root sender sent e.ciphertext aad)
    (h : Opens hkdf aead root counter e.ciphertext aad plaintext) :
    GenuineEnvelope hkdf aead sender sent e := by
  obtain ⟨key, hkey, hopen⟩ := h
  obtain ⟨s, x, hs, hused, rfl, hok⟩ := haead _ key plaintext hkey hopen
  -- the sender used this key at its counter, which is the one of the header
  obtain ⟨key', hstep⟩ := encryptOp_ok hok
  rw [hstep] at hused
  obtain rfl := Except.ok.inj hused
  have hcounter := hkeys _ _ _ hkey ((hs.sends hsender).next hstep).1
  obtain rfl := UInt64.toNat_inj.mp hcounter
  exact ⟨s, x, hs, hok, haad, hheader⟩

/-- **Tampering is detected.**  The associated data is injective on metadata; so a genuine envelope
    is no longer genuine when anything but its header is changed, and an envelope that is not
    genuine is refused in every state the receiver can be in, and leaves that state as it was. -/
theorem tampering_detected (hsender : RatchetState.fromRoot hkdf root = .ok sender)
    {receiver : ReceiveRatchet} (hreceiver : ReceiveRatchet.fromRoot hkdf root = .ok receiver)
    (hkeys : DistinctKeys hkdf root) :
    (∀ e e' : WireEnvelope, e.validateMetadata = .ok () → e'.validateMetadata = .ok () →
      e.aad = e'.aad → { e with ciphertext := e'.ciphertext } = e') ∧
    (∀ e e', GenuineEnvelope hkdf aead sender sent e → GenuineEnvelope hkdf aead sender sent e' →
      e.ratchetHeader = e'.ratchetHeader → e = e') ∧
    ∀ e aad, e.aad = .ok aad → ¬ GenuineEnvelope hkdf aead sender sent e →
      Unforged hkdf aead root sender sent e.ciphertext aad →
      ∀ ops, let r := after (receiveOp hkdf aead) receiver ops
        ∃ error, r.decryptWithHeader hkdf aead e.ratchetHeader e.ciphertext aad =
          (.error error, r) := by
  refine ⟨fun e e' hvalid _ hsame => ?_, fun e e' => GenuineEnvelope.unique hsender, ?_⟩
  · have haad := WireEnvelope.aad_eq_ok_iff.mpr ⟨hvalid, rfl⟩
    exact WireEnvelope.aad_injective haad (hsame ▸ haad)
  · intro e aad haad hforged haead ops
    -- the receiver's state follows a window, so all that a call can do is known
    obtain ⟨w, hfollows⟩ := run_follows aead hreceiver ops
    dsimp only
    unfold ReceiveRatchet.decryptWithHeader
    rcases hdecode : RatchetHeader.decode e.ratchetHeader with error | header
    · exact ⟨_, rfl⟩
    · -- a header that decodes is the encoding of its counter
      have hheader := RatchetHeader.eq_encode_of_decode hdecode
      rcases hfollows.decrypt aead header.messageCounter e.ciphertext aad with
        ⟨_, plaintext, _, -, hopens, -⟩ | ⟨error, hrefused, -⟩
      · exact absurd (genuine_of_opens hsender hkeys haad hheader haead hopens) hforged
      · exact ⟨error, hrefused⟩

/-! ### An altered envelope, with the sample primitives -/

/-- The metadata of an envelope with the first header. -/
def sampleEnvelope : WireEnvelope where
  version := ⟨1⟩
  messageId := arrayOf 16 [9]
  conversationId := arrayOf 16 [10]
  senderDeviceId := arrayOf 16 [8]
  recipientDeviceId := arrayOf 16 [7]
  ratchetHeader := (RatchetHeader.new 0).encode
  ciphertext := []
  sentAtMs := 1000

def sampleAad : Bytes := sampleEnvelope.aad.toOption.getD []

def samplePlain : Plain := ⟨ascii "hello from M", sampleAad, zeros 12⟩

/-- The envelope as its sender completes it. -/
def sealedEnvelope : WireEnvelope :=
  { sampleEnvelope with
    ciphertext := (encryptOp sampleHkdf sampleAead sampleSender samplePlain).1.toOption.getD [] }

/-- The envelope with one bit of its message id flipped. -/
def alteredEnvelope : WireEnvelope := { sealedEnvelope with messageId := arrayOf 16 [8] }

def alteredAad : Bytes := alteredEnvelope.aad.toOption.getD []

/-- The altered envelope is refused after the genuine one was read, and changes nothing. -/
theorem sample_tampering_detected :
    let r := after (receiveOp sampleHkdf sampleAead) sampleReceiver
      [.decryptWithHeader sealedEnvelope.ratchetHeader sealedEnvelope.ciphertext sampleAad]
    ∃ error, r.decryptWithHeader sampleHkdf sampleAead alteredEnvelope.ratchetHeader
      alteredEnvelope.ciphertext alteredAad = (.error error, r) := by
  have hsender : RatchetState.fromRoot sampleHkdf (zeros 32) = .ok sampleSender := rfl
  have hkeys : DistinctKeys sampleHkdf (zeros 32) := fun i j key =>
    messageKey_injective (sampleHkdf_injOn (zeros 32))
  have haad : alteredEnvelope.aad = .ok alteredAad := rfl
  -- the only message of the sender was under other associated data
  have hforged : ¬ GenuineEnvelope sampleHkdf sampleAead sampleSender [samplePlain]
      alteredEnvelope := by
    rintro ⟨s, x, ⟨pre, post, hsent, -⟩, -, hx, -⟩
    have hmem : x ∈ [samplePlain] := by rw [hsent]; simp
    rw [List.mem_singleton.mp hmem, haad] at hx
    exact absurd (Except.ok.inj hx) (by decide)
  have hunforged : Unforged sampleHkdf sampleAead (zeros 32) sampleSender [samplePlain]
      alteredEnvelope.ciphertext alteredAad := by
    intro i key plaintext _ hopen
    unfold RatchetState.decryptOnce at hopen
    split at hopen
    · exact absurd hopen (by simp)
    split at hopen
    · exact absurd hopen (by simp)
    · rename_i hdec
      exact absurd (sampleAead_decrypt_aad hdec) (by decide)
  exact (tampering_detected hsender (by rfl) hkeys).2.2 _ _ haad hforged hunforged _

end

end NexaMessenger
