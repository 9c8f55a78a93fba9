import NexaMessenger.Lib.Refinement
import NexaMessenger.EnvelopeCodec
import NexaMessenger.Session.Authenticity

namespace NexaMessenger

open Lib Ratchet Identity Session

/-!
# Conversation — session, ratchet and envelope together

A device that established a session sends messages as the end-to-end test of the envelope crate
does: it writes the envelope with the counter of its ratchet in the header, seals the plaintext
under the metadata, and encodes (`sendWire`).  The other device decodes what it is handed and gives
header, ciphertext and metadata to its own ratchet (`receiveWire`).  Every step may fail on the way.

The bytes in between belong to nobody: they come in any order, twice, not at all, altered or
invented.  `Inbox` says what the receiver is for all the same: it knows which bytes were posted and
which numbers it has read, and nothing of keys.  `inbox_of_session` says that it is that machine.
-/

/-! ### The two ends -/

/-- What a device sends, and the nonce that its encryption draws. -/
structure Draft where
  messageId : Id16
  conversationId : Id16
  senderDeviceId : Id16
  recipientDeviceId : Id16
  sentAtMs : UInt64
  plaintext : Bytes
  nonce : U8Array 12
deriving DecidableEq

/-- The envelope of a draft, without its ciphertext. -/
def Draft.envelope (d : Draft) (counter : UInt64) : WireEnvelope where
  version := ⟨protocolVersion⟩
  messageId := d.messageId
  conversationId := d.conversationId
  senderDeviceId := d.senderDeviceId
  recipientDeviceId := d.recipientDeviceId
  ratchetHeader := (RatchetHeader.new counter).encode
  ciphertext := []
  sentAtMs := d.sentAtMs

section
variable (hkdf : Hkdf) (aead : Aead) (toAllocvec : WireEnvelope → Option Bytes)
  (fromBytes : Bytes → Option WireEnvelope)

/-- Sends a draft: the bytes that go out, if every step succeeds. -/
def sendWire (s : RatchetState) (d : Draft) : Option Bytes × RatchetState :=
  let envelope := d.envelope s.nextCounter
  match envelope.aad with
  | .error _ => (none, s)
  | .ok aad =>
    match s.encrypt hkdf aead d.nonce d.plaintext aad with
    | (.error _, s') => (none, s')
    | (.ok ciphertext, s') => (({ envelope with ciphertext }.encode toAllocvec).toOption, s')

/-- Receives bytes: the plaintext, if every step succeeds. -/
def receiveWire (r : ReceiveRatchet) (bytes : Bytes) : Option Bytes × ReceiveRatchet :=
  match WireEnvelope.decode fromBytes bytes with
  | .error _ => (none, r)
  | .ok e =>
    match e.aad with
    | .error _ => (none, r)
    | .ok aad =>
      let (plaintext, r') := r.decryptWithHeader hkdf aead e.ratchetHeader e.ciphertext aad
      (plaintext.toOption, r')

/-- The call of `encrypt` that a draft comes to. -/
def plainOf (s : RatchetState) (d : Draft) : List Plain :=
  match (d.envelope s.nextCounter).aad with
  | .error _ => []
  | .ok aad => [⟨d.plaintext, aad, d.nonce⟩]

/-- All that a sender encrypts. -/
def plainsOf (sender : RatchetState) (drafts : List Draft) : List Plain :=
  emitted (sendWire hkdf aead toAllocvec) plainOf sender drafts

/-! ### The inbox -/

/-- The bytes that went out, each with the plaintext. -/
def posted (sender : RatchetState) (drafts : List Draft) : List (Bytes × Bytes) :=
  (trace (sendWire hkdf aead toAllocvec) sender drafts).filterMap fun entry =>
    entry.2.map fun bytes => (bytes, entry.1.plaintext)

/-- The number of a message and its plaintext, if the bytes are read as an envelope that went
    out. -/
def identify (post : List (Bytes × Bytes)) (bytes : Bytes) : Option (Nat × Bytes) :=
  match WireEnvelope.decode fromBytes bytes with
  | .error _ => none
  | .ok e =>
    match RatchetHeader.decode e.ratchetHeader with
    | .error _ => none
    | .ok header =>
      (post.find? fun p => WireEnvelope.decode fromBytes p.1 = .ok e).map fun p =>
        (header.messageCounter.toNat, p.2)

/-- An inbox is a window on the numbers of the messages: it yields what was posted, each number
    once, and at most 256 ahead. -/
def inboxStep (post : List (Bytes × Bytes)) (w : Window) (bytes : Bytes) : Option Bytes × Window :=
  match identify fromBytes post bytes with
  | none => (none, w)
  | some (number, plaintext) =>
    match w.accept 256 number with
    | none => (none, w)
    | some w' => (some plaintext, w')

/-- The numbers of the messages that were yielded. -/
def numbersRead (post : List (Bytes × Bytes)) (answers : List (Bytes × Option Bytes)) : List Nat :=
  answers.filterMap fun entry =>
    entry.2.bind fun _ => (identify fromBytes post entry.1).map fun message => message.1

end

section
variable {hkdf : Hkdf} {aead : Aead} {toAllocvec : WireEnvelope → Option Bytes}
  {fromBytes : Bytes → Option WireEnvelope} {root : Key32} {sender : RatchetState}
  {drafts : List Draft}

/-! ### What an inbox does -/

theorem numbersRead_concat (post : List (Bytes × Bytes)) (answers : List (Bytes × Option Bytes))
    (bytes : Bytes) (answer : Option Bytes) :
    numbersRead fromBytes post (answers ++ [(bytes, answer)]) =
      numbersRead fromBytes post answers ++
        (answer.bind fun _ => (identify fromBytes post bytes).map fun message =>
          message.1).toList := by
  rw [numbersRead, List.filterMap_append]
  congr 1

/-- **An inbox yields no message twice.** -/
theorem inbox_reads_once (post : List (Bytes × Bytes)) (arrived : List Bytes) :
    (numbersRead fromBytes post (trace (inboxStep fromBytes post) .start arrived)).Nodup := by
  refine (history_invariant_of_step (R := fun answers w =>
    (numbersRead fromBytes post answers).Nodup ∧
      ∀ n ∈ numbersRead fromBytes post answers, w.Spent n) ⟨List.nodup_nil, by simp [numbersRead]⟩
    ?_ arrived).1
  rintro answers w bytes ⟨hnodup, hspent⟩
  rw [numbersRead_concat]
  unfold inboxStep
  cases hid : identify fromBytes post bytes with
  | none => simpa using ⟨hnodup, hspent⟩
  | some message =>
    obtain ⟨number, plaintext⟩ := message
    dsimp only
    cases haccept : w.accept 256 number with
    | none => simpa using ⟨hnodup, hspent⟩
    | some w' =>
      -- what the window accepts was not read before, and is spent from now on
      have hnew : number ∉ numbersRead fromBytes post answers := by
        intro hmem
        rw [Window.accept_of_spent (hspent number hmem)] at haccept
        exact absurd haccept (by simp)
      simp only [Option.bind_some, Option.map_some, Option.toList_some]
      constructor
      · rw [← List.concat_eq_append]
        exact hnodup.concat hnew
      · intro n hn
        rw [Window.spent_accept_iff haccept]
        rcases List.mem_append.mp hn with hold | hnow
        · exact .inl (hspent n hold)
        · exact .inr (List.mem_singleton.mp hnow)

/-! ### What goes out -/

/-- A valid envelope is read from its encoding. -/
theorem decode_wire (hpostcard : Postcard toAllocvec fromBytes) {e : WireEnvelope}
    (h : e.validate = .ok ()) : WireEnvelope.decode fromBytes e.wire = .ok e := by
  refine WireEnvelope.decode_eq_ok_iff.mpr ⟨?_, h⟩
  exact (hpostcard.reads _ e).mpr
    ⟨e.wire, [], WireEnvelope.spelled_wire h, (List.append_nil _).symm⟩

/-- What `sendWire` does, in terms of the ratchet. -/
theorem sendWire_of_aad {s : RatchetState} {d : Draft} {aad : Bytes}
    (haad : (d.envelope s.nextCounter).aad = .ok aad) :
    (sendWire hkdf aead toAllocvec s d).2 =
        (encryptOp hkdf aead s ⟨d.plaintext, aad, d.nonce⟩).2 ∧
      (sendWire hkdf aead toAllocvec s d).1 =
        match (encryptOp hkdf aead s ⟨d.plaintext, aad, d.nonce⟩).1 with
        | .error _ => none
        | .ok ciphertext =>
          ({ d.envelope s.nextCounter with ciphertext }.encode toAllocvec).toOption := by
  unfold sendWire encryptOp
  dsimp only
  rw [haad]
  dsimp only
  rcases s.encrypt hkdf aead d.nonce d.plaintext aad with ⟨error | ciphertext, s'⟩ <;>
    exact ⟨rfl, rfl⟩

/-- A draft moves the ratchet by the call it comes to. -/
theorem sendWire_drives : Drives (sendWire hkdf aead toAllocvec) (encryptOp hkdf aead)
    (fun _ => True) id plainOf where
  keeps _ := trivial
  moves := by
    intro s d _
    unfold plainOf
    cases haad : (d.envelope s.nextCounter).aad with
    | error error =>
      unfold sendWire
      dsimp only
      rw [haad]
      rfl
    | ok aad => exact (sendWire_of_aad haad).1

/-- Bytes go out exactly if the ratchet seals the plaintext under the metadata, into an envelope
    that is valid. -/
theorem sendWire_eq_some_iff (hpostcard : Postcard toAllocvec fromBytes) {s : RatchetState}
    {d : Draft} {bytes : Bytes} :
    (sendWire hkdf aead toAllocvec s d).1 = some bytes ↔
      ∃ aad ciphertext, (d.envelope s.nextCounter).aad = .ok aad ∧
        (encryptOp hkdf aead s ⟨d.plaintext, aad, d.nonce⟩).1 = .ok ciphertext ∧
        { d.envelope s.nextCounter with ciphertext }.validate = .ok () ∧
        { d.envelope s.nextCounter with ciphertext }.wire = bytes := by
  have hencode (e : WireEnvelope) : (e.encode toAllocvec).toOption = some bytes ↔
      e.validate = .ok () ∧ e.wire = bytes := by
    rw [← WireEnvelope.encode_eq_ok_iff hpostcard]
    cases e.encode toAllocvec <;> simp [Except.toOption]
  cases haad : (d.envelope s.nextCounter).aad with
  | error error =>
    refine iff_of_false ?_ (by simp)
    unfold sendWire
    dsimp only
    rw [haad]
    simp
  | ok aad =>
    rw [(sendWire_of_aad haad).2]
    cases henc : (encryptOp hkdf aead s ⟨d.plaintext, aad, d.nonce⟩).1 with
    | error error => simp [henc]
    | ok ciphertext => simp [henc, hencode]

/-- What was posted went out at a step of the sender. -/
theorem mem_posted {p : Bytes × Bytes} :
    p ∈ posted hkdf aead toAllocvec sender drafts ↔
      ∃ pre d post, drafts = pre ++ d :: post ∧ d.plaintext = p.2 ∧
        (sendWire hkdf aead toAllocvec (after (sendWire hkdf aead toAllocvec) sender pre) d).1 =
          some p.1 := by
  unfold posted
  rw [List.mem_filterMap]
  constructor
  · rintro ⟨⟨d, answer⟩, hentry, hp⟩
    obtain ⟨bytes, hbytes, rfl⟩ := Option.map_eq_some_iff.mp hp
    obtain ⟨pre, post, rfl, hanswer⟩ := exists_of_mem_trace _ hentry
    exact ⟨pre, d, post, rfl, rfl, hanswer ▸ hbytes⟩
  · rintro ⟨pre, d, post, rfl, htext, hsent⟩
    refine ⟨(d, some p.1), ?_, by rw [Option.map_some, htext]⟩
    rw [trace_append, trace_cons, hsent]
    simp

/-- The ratchet of the sender is where the calls of `encrypt` lead. -/
theorem after_sendWire (sender : RatchetState) (drafts : List Draft) :
    after (sendWire hkdf aead toAllocvec) sender drafts =
      after (encryptOp hkdf aead) sender (plainsOf hkdf aead toAllocvec sender drafts) :=
  sendWire_drives.after_eq trivial drafts

/-- It is on the chain of its root whenever it is given a draft. -/
theorem sends_after (hsender : RatchetState.fromRoot hkdf root = .ok sender)
    (drafts : List Draft) :
    Sends hkdf root (after (sendWire hkdf aead toAllocvec) sender drafts) := by
  have hstart : Sends hkdf root sender := .inl (onChain_of_fromRoot hsender)
  rw [after_sendWire]
  exact (hstart.run aead _).1

/-- What the sender encrypts is the plaintext of a draft, under the metadata of its envelope. -/
theorem draft_of_encrypts {s : RatchetState} {x : Plain}
    (h : Encrypts hkdf aead sender (plainsOf hkdf aead toAllocvec sender drafts) s x) :
    ∃ pre d post, drafts = pre ++ d :: post ∧
      s = after (sendWire hkdf aead toAllocvec) sender pre ∧
      (d.envelope s.nextCounter).aad = .ok x.aad ∧ x = ⟨d.plaintext, x.aad, d.nonce⟩ := by
  obtain ⟨before, rest, hplains, rfl⟩ := h
  obtain ⟨pre, d, post, now, later, rfl, hemit, rfl⟩ := exists_of_emitted_eq hplains
  unfold plainOf at hemit
  split at hemit
  · exact absurd hemit.symm (by simp)
  · rename_i aad haad
    -- a draft comes to one call only
    obtain ⟨rfl, rfl⟩ : now = [] ∧ x = ⟨d.plaintext, aad, d.nonce⟩ := by
      cases now with
      | nil => exact ⟨rfl, (List.cons.inj hemit).1.symm⟩
      | cons y now => exact absurd (List.cons.inj hemit).2.symm (by simp)
    have hstate : after (encryptOp hkdf aead) sender
        (emitted (sendWire hkdf aead toAllocvec) plainOf sender pre ++ []) =
        after (sendWire hkdf aead toAllocvec) sender pre := by
      rw [List.append_nil]
      exact (after_sendWire sender pre).symm
    exact ⟨pre, d, post, rfl, hstate, by rw [hstate]; exact haad, rfl⟩

/-! ### What opens -/

/-- A packet is the nonce and what the AEAD makes of the plaintext under the next key. -/
theorem packet_of_encryptOp {s : RatchetState} {x : Plain} {packet : Bytes}
    (h : (encryptOp hkdf aead s x).1 = .ok packet) :
    ∃ key body, s.nextMessageKey hkdf = (.ok key, (encryptOp hkdf aead s x).2) ∧
      aead.encrypt key x.nonce x.plaintext x.aad = some body ∧
      arrayOf 12 (packet.take 12) = x.nonce ∧ packet.drop 12 = body ∧ 12 ≤ packet.length := by
  obtain ⟨key, hkey⟩ := encryptOp_ok h
  unfold encryptOp RatchetState.encrypt at h
  rw [hkey] at h
  dsimp only at h
  split at h
  · exact absurd h (by simp)
  · rename_i body hbody
    obtain rfl := Except.ok.inj h
    refine ⟨key, body, hkey, hbody, ?_, List.drop_left' (by simp), by simp⟩
    rw [List.take_left' (by simp), arrayOf_toList]

/-- A packet of the sender opens at the counter at which it was sealed. -/
theorem opens_of_sealed (haead : aead.OpensOwn) {s : RatchetState} (hs : Sends hkdf root s)
    {x : Plain} {packet : Bytes} (h : (encryptOp hkdf aead s x).1 = .ok packet) :
    Opens hkdf aead root s.nextCounter packet x.aad x.plaintext := by
  obtain ⟨key, body, hkey, hbody, hnonce, hdrop, hlength⟩ := packet_of_encryptOp h
  refine ⟨key, (hs.next hkey).1, ?_⟩
  rw [RatchetState.decryptOnce, if_neg (by omega), hnonce, hdrop, haead _ _ _ _ _ hbody]

theorem Ratchet.Opens.unique {counter : UInt64} {packet aad plaintext plaintext' : Bytes}
    (h : Opens hkdf aead root counter packet aad plaintext)
    (h' : Opens hkdf aead root counter packet aad plaintext') : plaintext = plaintext' := by
  obtain ⟨key, hkey, hopen⟩ := h
  obtain ⟨key', hkey', hopen'⟩ := h'
  rw [hkey] at hkey'
  rw [← Option.some.inj hkey', hopen] at hopen'
  exact Except.ok.inj hopen'

/-- **What opens was posted.**  An envelope that is read from bytes opens at the counter of its
    header exactly if bytes went out that are read as the same envelope, and to the plaintext that
    was in them. -/
theorem opens_iff_posted (hpostcard : Postcard toAllocvec fromBytes) (haead : aead.OpensOwn)
    (hsender : RatchetState.fromRoot hkdf root = .ok sender) (hkeys : DistinctKeys hkdf root)
    {bytes : Bytes} {e : WireEnvelope} {aad : Bytes} {counter : UInt64}
    (hread : WireEnvelope.decode fromBytes bytes = .ok e) (haad : e.aad = .ok aad)
    (hheader : e.ratchetHeader = (RatchetHeader.new counter).encode)
    (hunforged : Unforged hkdf aead root sender (plainsOf hkdf aead toAllocvec sender drafts)
      e.ciphertext aad) (plaintext : Bytes) :
    Opens hkdf aead root counter e.ciphertext aad plaintext ↔
      ∃ p ∈ posted hkdf aead toAllocvec sender drafts,
        WireEnvelope.decode fromBytes p.1 = .ok e ∧ p.2 = plaintext := by
  have hvalid := (WireEnvelope.decode_eq_ok_iff.mp hread).2
  constructor
  · intro hopens
    -- the sender sealed this packet under this metadata, at a draft
    obtain ⟨s, x, hs, hsealed, hxaad, hcounter⟩ :=
      genuine_of_opens hsender hkeys haad hheader hunforged hopens
    obtain ⟨pre, d, post, hdrafts, rfl, hdaad, hx⟩ := draft_of_encrypts hs
    have hsame := WireEnvelope.aad_injective hdaad hxaad
    have hposted : (e.wire, d.plaintext) ∈ posted hkdf aead toAllocvec sender drafts := by
      refine mem_posted.mpr ⟨pre, d, post, hdrafts, rfl, ?_⟩
      refine (sendWire_eq_some_iff hpostcard).mpr ⟨x.aad, e.ciphertext, hdaad, hx ▸ hsealed, ?_⟩
      rw [hsame]
      exact ⟨hvalid, rfl⟩
    refine ⟨_, hposted, decode_wire hpostcard hvalid, ?_⟩
    -- what it opens to is what was sealed
    have hown := opens_of_sealed haead (sends_after hsender pre) hsealed
    rw [hheader] at hcounter
    rw [← encode_new_injective hcounter, ← Except.ok.inj (haad.symm.trans hxaad)] at hown
    rw [hopens.unique hown, hx]
  · rintro ⟨p, hp, hpread, rfl⟩
    obtain ⟨pre, d, post, hdrafts, htext, hsent⟩ := mem_posted.mp hp
    obtain ⟨aad', ciphertext, hdaad, hsealed, hdvalid, hwire⟩ :=
      (sendWire_eq_some_iff hpostcard).mp hsent
    -- the bytes are read as the envelope that was encoded
    rw [← hwire, decode_wire hpostcard hdvalid] at hpread
    obtain rfl := Except.ok.inj hpread
    have hown := opens_of_sealed haead (sends_after hsender pre) hsealed
    rw [← encode_new_injective hheader, ← htext]
    rw [Except.ok.inj (haad.symm.trans hdaad)]
    exact hown

/-! ### The receiver is the inbox -/

/-- **One byte string.**  The receiver answers it as the inbox whose window it follows. -/
theorem receiveWire_step (hpostcard : Postcard toAllocvec fromBytes) (haead : aead.OpensOwn)
    (hsender : RatchetState.fromRoot hkdf root = .ok sender) (hkeys : DistinctKeys hkdf root)
    {w : Window} {r : ReceiveRatchet} (h : Follows hkdf root w r) {bytes : Bytes}
    (hunforged : ∀ e aad, WireEnvelope.decode fromBytes bytes = .ok e → e.aad = .ok aad →
      Unforged hkdf aead root sender (plainsOf hkdf aead toAllocvec sender drafts)
        e.ciphertext aad) :
    let post := posted hkdf aead toAllocvec sender drafts
    (receiveWire hkdf aead fromBytes r bytes).1 = (inboxStep fromBytes post w bytes).1 ∧
      Follows hkdf root (inboxStep fromBytes post w bytes).2
        (receiveWire hkdf aead fromBytes r bytes).2 := by
  intro post
  unfold receiveWire inboxStep identify
  cases hread : WireEnvelope.decode fromBytes bytes with
  | error error => exact ⟨rfl, h⟩
  | ok e =>
    dsimp only
    have hvalid := (WireEnvelope.decode_eq_ok_iff.mp hread).2
    have haad := WireEnvelope.aad_eq_ok_iff.mpr
      ⟨(WireEnvelope.validate_eq_ok_iff.mp hvalid).1, rfl⟩
    rw [haad]
    dsimp only
    unfold ReceiveRatchet.decryptWithHeader
    cases hdecode : RatchetHeader.decode e.ratchetHeader with
    | error error => exact ⟨rfl, h⟩
    | ok header =>
      have hheader := RatchetHeader.eq_encode_of_decode hdecode
      have hopens := opens_iff_posted hpostcard haead hsender hkeys hread haad hheader
        (hunforged e _ hread haad)
      have hfound (p : Bytes × Bytes) (hp : post.find? (fun p =>
          WireEnvelope.decode fromBytes p.1 = .ok e) = some p) :
          Opens hkdf aead root header.messageCounter e.ciphertext _ p.2 :=
        (hopens p.2).mpr ⟨p, List.mem_of_find?_eq_some hp,
          by simpa using List.find?_some hp, rfl⟩
      dsimp only
      rcases h.decrypt aead header.messageCounter e.ciphertext _ with
        ⟨w', plaintext, r', haccept, hopen, hdec, h'⟩ | ⟨error, hdec, hreject⟩
      · -- it opens, so it was posted
        obtain ⟨p, hp, hpread, -⟩ := (hopens plaintext).mp hopen
        have hsome : (post.find? fun p =>
            WireEnvelope.decode fromBytes p.1 = .ok e).isSome :=
          List.find?_isSome.mpr ⟨p, hp, by simpa using hpread⟩
        obtain ⟨q, hq⟩ := Option.isSome_iff_exists.mp hsome
        rw [hdec, hq]
        dsimp only [Option.map_some]
        rw [haccept, hopen.unique (hfound q hq)]
        exact ⟨rfl, h'⟩
      · rw [hdec]
        cases hfind : post.find? fun p => WireEnvelope.decode fromBytes p.1 = .ok e with
        | none => exact ⟨rfl, h⟩
        | some p =>
          -- it was posted, so its number is spent or too far ahead
          dsimp only [Option.map_some]
          rw [hreject _ (hfound p hfind)]
          exact ⟨rfl, h⟩

/-- **The receiver is the inbox** of what the sender posted, if both start from one root. -/
theorem receiveWire_trace (hpostcard : Postcard toAllocvec fromBytes) (haead : aead.OpensOwn)
    (hsender : RatchetState.fromRoot hkdf root = .ok sender) {receiver : ReceiveRatchet}
    (hreceiver : ReceiveRatchet.fromRoot hkdf root = .ok receiver)
    (hkeys : DistinctKeys hkdf root) {arrived : List Bytes}
    (hunforged : ∀ bytes ∈ arrived, ∀ e aad, WireEnvelope.decode fromBytes bytes = .ok e →
      e.aad = .ok aad → Unforged hkdf aead root sender
        (plainsOf hkdf aead toAllocvec sender drafts) e.ciphertext aad) :
    trace (receiveWire hkdf aead fromBytes) receiver arrived =
      trace (inboxStep fromBytes (posted hkdf aead toAllocvec sender drafts)) .start arrived := by
  refine trace_eq_of_simulates (R := fun r w => Follows hkdf root w r) ?_
    (follows_fromRoot hreceiver)
  intro r w h bytes hbytes
  exact receiveWire_step hpostcard haead hsender hkeys h (hunforged bytes hbytes)

/-! ### From the prekeys on -/

/-- Two sides that both established the session have one root. -/
theorem roots_agree {x : X25519} {ed : Ed25519} {signer : Signer} (hx : x.Commutes)
    {initiator : IdentityKey x} {ephemeral : InitiatorEphemeral x} {responder : IdentityKey x}
    {signedPrekey : SignedPrekey x} {keyId : UInt32}
    {oneTimePrekey : Option (UInt32 × OneTimePrekey x)} {initiatorDeviceId responderDeviceId : Id16}
    {bundle : PreKeyBundle} {record : SignedPrekeyRecord}
    (hbundle : Advertises signer bundle responderDeviceId responder keyId signedPrekey
      oneTimePrekey) {initiated : InitiatorSession} {responded : ResponderSession}
    (hinitiate : initiate ed signer hkdf initiator initiatorDeviceId ephemeral bundle record
      (oneTimePrekey.map fun otp => (otp.1, otp.2.publicKey)) = .ok initiated)
    (hrespond : respond hkdf responder signedPrekey oneTimePrekey responderDeviceId
      initiatorDeviceId initiator.agreementPublicKey ephemeral.publicKey = .ok responded) :
    initiated.root = responded.root := by
  have hroot : agreedRoot hkdf (initiatorSecrets initiator ephemeral bundle
      (oneTimePrekey.map fun otp => (otp.1, otp.2.publicKey))) initiatorDeviceId bundle.deviceId
      ephemeral.publicKey = .ok initiated.root :=
    @root_of_initiate x ed signer hkdf initiator
      ⟨initiatorDeviceId, ephemeral, bundle, record, _⟩ initiated hinitiate
  rw [secrets_agree hx initiator ephemeral hbundle, hbundle.device] at hroot
  exact Except.ok.inj (hroot.symm.trans (root_of_respond hrespond))

/-- **A conversation.**  The initiator of a session sends any drafts, and the responder is handed
    any bytes.  If none of them forges a packet, the responder answers as the inbox: bytes that are
    read as a posted envelope, whose number was not read yet and is at most 256 ahead, yield the
    plaintext; any others yield nothing and leave no trace.  So no message is read twice. -/
theorem inbox_of_session {x : X25519} {ed : Ed25519} {signer : Signer} (hx : x.Commutes)
    (haead : aead.OpensOwn) (hpostcard : Postcard toAllocvec fromBytes) (initiator : IdentityKey x)
    (ephemeral : InitiatorEphemeral x) (responder : IdentityKey x) (signedPrekey : SignedPrekey x)
    (keyId : UInt32) (oneTimePrekey : Option (UInt32 × OneTimePrekey x))
    (initiatorDeviceId responderDeviceId : Id16) (bundle : PreKeyBundle)
    (record : SignedPrekeyRecord)
    (hbundle : Advertises signer bundle responderDeviceId responder keyId signedPrekey
      oneTimePrekey) (initiated : InitiatorSession) (responded : ResponderSession)
    (hinitiate : initiate ed signer hkdf initiator initiatorDeviceId ephemeral bundle record
      (oneTimePrekey.map fun otp => (otp.1, otp.2.publicKey)) = .ok initiated)
    (hrespond : respond hkdf responder signedPrekey oneTimePrekey responderDeviceId
      initiatorDeviceId initiator.agreementPublicKey ephemeral.publicKey = .ok responded)
    (sender : RatchetState) (hsender : RatchetState.fromRoot hkdf initiated.root = .ok sender)
    (receiver : ReceiveRatchet)
    (hreceiver : ReceiveRatchet.fromRoot hkdf responded.root = .ok receiver)
    (hkeys : DistinctKeys hkdf initiated.root) (drafts : List Draft) (arrived : List Bytes)
    (hunforged : ∀ bytes ∈ arrived, ∀ e aad, WireEnvelope.decode fromBytes bytes = .ok e →
      e.aad = .ok aad → Unforged hkdf aead initiated.root sender
        (plainsOf hkdf aead toAllocvec sender drafts) e.ciphertext aad) :
    let post := posted hkdf aead toAllocvec sender drafts
    let answers := trace (receiveWire hkdf aead fromBytes) receiver arrived
    answers = trace (inboxStep fromBytes post) .start arrived ∧
      (numbersRead fromBytes post answers).Nodup := by
  intro post answers
  have hroot := roots_agree hx hbundle hinitiate hrespond
  rw [← hroot] at hreceiver
  have htrace : answers = _ :=
    receiveWire_trace hpostcard haead hsender hreceiver hkeys hunforged
  refine ⟨htrace, ?_⟩
  rw [htrace]
  exact inbox_reads_once post arrived

/-! ### The conversation of the test -/

def sampleDraft : Draft where
  messageId := arrayOf 16 [9]
  conversationId := arrayOf 16 [10]
  senderDeviceId := arrayOf 16 [8]
  recipientDeviceId := arrayOf 16 [7]
  sentAtMs := 1000
  plaintext := ascii "hello from M"
  nonce := zeros 12

/-- No packet of a sender is forged with the sample AEAD: it opens under its own key only. -/
theorem sampleAead_unforged {sent : List Plain} {s : RatchetState} {x : Plain} {packet : Bytes}
    (hs : Encrypts sampleHkdf sampleAead sender sent s x)
    (hok : (encryptOp sampleHkdf sampleAead s x).1 = .ok packet) :
    Unforged sampleHkdf sampleAead root sender sent packet x.aad := by
  intro i key plaintext _ hopen
  obtain ⟨key', body, hkey', hbody, hnonce, hdrop, hlength⟩ := packet_of_encryptOp hok
  rw [RatchetState.decryptOnce, if_neg (by omega), hnonce, hdrop] at hopen
  cases hdec : sampleAead.decrypt key x.nonce body x.aad with
  | none =>
    rw [hdec] at hopen
    exact absurd hopen (by simp)
  | some opened =>
    obtain ⟨rfl, -⟩ := sampleAead_encrypt_injective (sampleAead_decrypt_iff.mp hdec) hbody
    exact ⟨s, x, hs, by rw [hkey'], rfl, hok⟩

theorem validate_sealedEnvelope : sealedEnvelope.validate = .ok () := by decide +kernel

theorem encrypt_samplePlain : (encryptOp sampleHkdf sampleAead sampleSender samplePlain).1 =
    .ok sealedEnvelope.ciphertext := by decide +kernel

/-- The draft goes out as the sealed envelope. -/
theorem posted_sampleDraft : posted sampleHkdf sampleAead (fun e => some e.wire) sampleSender
    [sampleDraft] = [(sealedEnvelope.wire, ascii "hello from M")] := by
  have hsent : (sendWire sampleHkdf sampleAead (fun e => some e.wire) sampleSender
      sampleDraft).1 = some sealedEnvelope.wire :=
    (sendWire_eq_some_iff samplePostcard).mpr
      ⟨sampleAad, _, rfl, encrypt_samplePlain, validate_sealedEnvelope, rfl⟩
  rw [posted, trace_cons, hsent]
  rfl

theorem identify_sealedEnvelope : identify sampleFromBytes
    [(sealedEnvelope.wire, ascii "hello from M")] sealedEnvelope.wire =
      some (0, ascii "hello from M") := by
  have hread := decode_wire samplePostcard validate_sealedEnvelope
  have hheader : RatchetHeader.decode sealedEnvelope.ratchetHeader = .ok (.new 0) := by decide
  rw [identify, hread]
  dsimp only
  rw [hheader]
  simp [hread, RatchetHeader.new]

/-- Nothing that arrives is forged. -/
theorem unforged_sealedEnvelope {bytes : Bytes} (hbytes : bytes ∈ [sealedEnvelope.wire, []])
    (e : WireEnvelope) (aad : Bytes) (hdecode : WireEnvelope.decode sampleFromBytes bytes = .ok e)
    (haad : e.aad = .ok aad) : Unforged sampleHkdf sampleAead root sampleSender
      (plainsOf sampleHkdf sampleAead (fun e => some e.wire) sampleSender [sampleDraft])
      e.ciphertext aad := by
  have hplains : plainsOf sampleHkdf sampleAead (fun e => some e.wire) sampleSender
      [sampleDraft] = [samplePlain] := by decide +kernel
  rw [List.mem_pair] at hbytes
  rcases hbytes with rfl | rfl
  · rw [decode_wire samplePostcard validate_sealedEnvelope] at hdecode
    obtain rfl := Except.ok.inj hdecode
    obtain rfl : sampleAad = aad := Except.ok.inj haad
    rw [hplains]
    exact sampleAead_unforged (x := samplePlain) ⟨[], [], rfl, rfl⟩ encrypt_samplePlain
  · have hnone : sampleFromBytes [] = none := by decide
    rw [WireEnvelope.decode, hnone] at hdecode
    exact absurd hdecode (by simp)

/-- The message arrives twice, and something else: it is read once. -/
theorem sample_inbox_of_session :
    (trace (receiveWire sampleHkdf sampleAead sampleFromBytes) sampleReceiver
      [sealedEnvelope.wire, sealedEnvelope.wire, []]).map (·.2) =
        [some (ascii "hello from M"), none, none] := by
  obtain ⟨initiated, hinitiate⟩ := exists_of_isOk (r := initiate sampleEd25519 sampleSigner
    sampleHkdf (sampleIdentity 1) (Vector.replicate 16 6) ⟨samplePair 8⟩ sampleBundle
    (publishableSignedPrekey sampleSigner (sampleIdentity 2) 5 ⟨samplePair 3⟩)
    (some (9, Vector.replicate 32 4))) (by decide +kernel)
  obtain ⟨responded, hrespond⟩ := exists_of_isOk (r := respond sampleHkdf (sampleIdentity 2)
    ⟨samplePair 3⟩ (some (9, sampleOneTimePrekey)) (Vector.replicate 16 7) (Vector.replicate 16 6)
    (Vector.replicate 32 1) (Vector.replicate 32 8)) (by decide +kernel)
  have hnothing : identify sampleFromBytes [(sealedEnvelope.wire, ascii "hello from M")] [] =
      none := by rfl
  rw [(inbox_of_session sampleX25519_commutes sampleAead_opensOwn samplePostcard
    (sampleIdentity 1) ⟨samplePair 8⟩ (sampleIdentity 2) ⟨samplePair 3⟩ 5
    (some (9, sampleOneTimePrekey)) _ _ sampleBundle _ sampleBundle_advertises
    initiated responded hinitiate hrespond sampleSender (by rfl) sampleReceiver (by rfl)
    (fun i j key => messageKey_injective (sampleHkdf_injOn _)) [sampleDraft] _
    fun bytes hbytes => unforged_sealedEnvelope (by simpa using hbytes)).1,
    posted_sampleDraft]
  simp only [trace_cons, trace_nil, List.map_cons, List.map_nil, inboxStep,
    identify_sealedEnvelope, hnothing]
  decide +kernel

end

end NexaMessenger
