import NexaMessenger.Gateway.Server

namespace NexaMessenger.Gateway

open Lib Relay
open Transport (Frame FrameKind)

/-!
# Gateway — what a peer reads from its socket

The model keeps two records of what a session has written: the bytes in `sent`, and the messages in
`Session.socket`, which is what all results about delivery are about.  A peer that takes the bytes
apart again finds these messages and no others, in their order.

What it reads is orderly.  There is nothing before the hello of the gateway, which names the device
and would pass the gateway's own check of a hello; after it come only pongs and frames that the peer
can decode; and nothing comes after a close (`peers_read_their_messages`).
-/

/-- The encrypted message that a peer finds in a message of the websocket. -/
def WsMessage.message (m : WsMessage) : Option EncryptedMessage :=
  match m with
  | .binary bytes =>
    match Frame.fromBytes bytes with
    | .error _ => none
    | .ok frame =>
      if frame.kind = .ok .encryptedMessage then (EncryptedMessage.decode frame.payload).toOption
      else none
  | _ => none

/-- What may come after the hello: a pong, or a frame of bounded length that is a pong or has a
    message in it. -/
def Regular (m : WsMessage) : Prop :=
  match m with
  | .pong _ => True
  | .binary bytes => bytes.length ≤ wsMaxMessage ∧ ∃ frame, Frame.fromBytes bytes = .ok frame ∧
    (frame.kind = .ok .pong ∨ frame.kind = .ok .encryptedMessage ∧
      ∃ message, EncryptedMessage.decode frame.payload = .ok message)
  | .text _ | .ping _ | .close => False

/-- A hello of the device, and regular messages. -/
def Begun (device : Id16) (sent : List WsMessage) : Prop :=
  ∃ hello rest, sent = hello :: rest ∧ isHello device hello = true ∧ ∀ m ∈ rest, Regular m

/-- Nothing at all, or what has begun; and perhaps a close. -/
def Ended (device : Id16) (sent : List WsMessage) : Prop :=
  ∃ before, (before = [] ∨ Begun device before) ∧ (sent = before ∨ sent = before ++ [.close])

/-- What a session in this phase may have written. -/
def Phase.Allows (device : Id16) (sent : List WsMessage) : Phase → Prop
  | .upgraded | .numbered _ | .registered _ => sent = []
  | .greeted _ | .sending .. | .live _ | .routing _ => Begun device sent
  | .leaving _ | .closed => Ended device sent

/-- The record in bytes of a session. -/
structure Transcript (s : Session) (sent : List WsMessage) : Prop where
  reads : sent.filterMap WsMessage.message = s.socket
  orderly : s.phase.Allows s.device sent

/-! ### What is written -/

/-- The hello of the gateway passes its own check. -/
theorem isHello_sendHello {device : Id16} {bytes : Bytes} (h : sendHello device = some bytes) :
    isHello device (.binary bytes) = true ∧ (WsMessage.binary bytes).message = none := by
  obtain ⟨bytes', frame, hbytes, hlength, hframe, hkind, hpayload⟩ := sendHello_spec device
  obtain rfl : bytes = bytes' := Option.some.inj (h.symm.trans hbytes)
  constructor
  · simp [isHello, not_lt.mpr hlength, hframe, hkind, hpayload]
  · simp [WsMessage.message, hframe, hkind]

/-- A message that is sent is read. -/
theorem sendEncrypted_reads {message : EncryptedMessage} (hvalid : ValidMessage message)
    {bytes : Bytes} (h : sendEncrypted message = some bytes) :
    Regular (.binary bytes) ∧ (WsMessage.binary bytes).message = some message := by
  obtain ⟨bytes', frame, hbytes, hlength, hframe, hkind, hdecode⟩ := deliverable_of_valid hvalid
  obtain rfl : bytes = bytes' := Option.some.inj (h.symm.trans hbytes)
  constructor
  · exact ⟨hlength, frame, hframe, .inr ⟨hkind, message, hdecode⟩⟩
  · simp only [WsMessage.message, hframe, hkind, if_true, hdecode]
    rfl

/-- A ping that was read is answered with a pong. -/
theorem echo_regular {bytes echo : Bytes} {frame : Frame}
    (hframe : Frame.fromBytes bytes = .ok frame)
    (h : frameBytes .pong 0 frame.payload = some echo) :
    Regular (.binary echo) ∧ (WsMessage.binary echo).message = none := by
  obtain ⟨echo', frame', hecho, hlength, hframe', hkind, -⟩ := echo_spec hframe
  obtain rfl : echo = echo' := Option.some.inj (h.symm.trans hecho)
  constructor
  · exact ⟨hlength, frame', hframe', .inl hkind⟩
  · simp [WsMessage.message, hframe', hkind]

/-! ### Transcripts that grow -/

section
variable {device : Id16} {sent : List WsMessage} {s : Session}

theorem Begun.concat (h : Begun device sent) {m : WsMessage} (hm : Regular m) :
    Begun device (sent ++ [m]) := by
  obtain ⟨hello, rest, rfl, hhello, hrest⟩ := h
  refine ⟨hello, rest ++ [m], rfl, hhello, fun m' hm' => ?_⟩
  rcases List.mem_append.mp hm' with hold | hnew
  · exact hrest m' hold
  · rw [List.mem_singleton.mp hnew]
    exact hm

/-- A session whose phase is neither `leaving` nor `closed`. -/
def Phase.open : Phase → Bool
  | .leaving _ | .closed => false
  | _ => true

theorem Phase.Allows.before {phase : Phase} (h : phase.Allows device sent)
    (hopen : phase.open = true) : sent = [] ∨ Begun device sent := by
  cases phase with
  | upgraded => exact .inl h
  | numbered id => exact .inl h
  | registered id => exact .inl h
  | greeted id => exact .inr h
  | sending id delivered rest => exact .inr h
  | live id => exact .inr h
  | routing id => exact .inr h
  | leaving id => cases hopen
  | closed => cases hopen

/-- Every session may end. -/
theorem Phase.Allows.ended {phase : Phase} (h : phase.Allows device sent) : Ended device sent := by
  cases hopen : phase.open with
  | true => exact ⟨sent, h.before hopen, .inl rfl⟩
  | false =>
    cases phase with
    | leaving id => exact h
    | closed => exact h
    | _ => cases hopen

/-- A session that says nothing more. -/
theorem Transcript.end (h : Transcript s sent) (phase : Phase) (hphase : phase.open = false) :
    Transcript { s with phase } sent where
  reads := h.reads
  orderly := by
    cases phase with
    | leaving id => exact h.orderly.ended
    | closed => exact h.orderly.ended
    | _ => cases hphase

/-- A close, if the socket takes it, is the last message. -/
theorem Transcript.shut (h : Transcript s sent) (hopen : s.phase.open = true) (phase : Phase)
    (hphase : phase.open = false) (ok : Bool) :
    Transcript { s with phase } (sent ++ if ok then [.close] else []) := by
  cases ok with
  | false => exact (List.append_nil sent).symm ▸ h.end phase hphase
  | true =>
    refine ⟨?_, ?_⟩
    · rw [List.filterMap_append, h.reads]
      exact List.append_nil _
    · have hended : Ended s.device (sent ++ [.close]) :=
        ⟨sent, h.orderly.before hopen, .inr rfl⟩
      cases phase with
      | leaving id => exact hended
      | closed => exact hended
      | _ => cases hphase

end

/-! ### The steps of a session -/

/-- Every session has its record, and a session that is not there yet an empty one. -/
structure Told (w : WireState) : Prop where
  transcript : ∀ (k : Nat) s, w.gateway.sessions[k]? = some s → Transcript s (w.sent k)
  unborn : ∀ k, w.gateway.sessions[k]? = none → w.sent k = []

/-- One session has moved, and its record follows it. -/
def Follows (w : WireState) (k : Nat) (w' : WireState) : Prop :=
  ∃ s', w'.gateway.sessions = w.gateway.sessions.set k s' ∧
    (∀ j, j ≠ k → w'.sent j = w.sent j) ∧ Transcript s' (w'.sent k)

section
variable {w w' : WireState} {k : Nat} {s s' : Session}

theorem Told.move (h : Told w) (hs : w.gateway.sessions[k]? = some s) (hmove : Follows w k w') :
    Told w' := by
  obtain ⟨s', hsessions, hothers, htranscript⟩ := hmove
  have hk : k < w.gateway.sessions.length := (List.getElem?_eq_some_iff.mp hs).1
  constructor
  · intro j t ht
    rw [hsessions, List.getElem?_set] at ht
    split at ht
    · rename_i hjk
      subst hjk
      obtain rfl := Option.some.inj ht
      exact htranscript
    · rename_i hjk
      rw [hothers j (Ne.symm hjk)]
      exact h.transcript j t ht
  · intro j hj
    rw [hsessions, List.getElem?_set] at hj
    split at hj
    · cases hj
    · rename_i hjk
      rw [hothers j (Ne.symm hjk)]
      exact h.unborn j hj

theorem Told.congr (h : Told w) (hsessions : w'.gateway.sessions = w.gateway.sessions)
    (hsent : w'.sent = w.sent) : Told w' := by
  obtain ⟨htranscript, hunborn⟩ := h
  exact ⟨by rwa [hsessions, hsent], by rwa [hsessions, hsent]⟩

theorem write_sent (w : WireState) (k : Nat) (m : WsMessage) (ok : Bool) :
    (w.write k m ok).sent =
      Function.update w.sent k (w.sent k ++ if ok then [m] else []) := by
  cases ok
  · simp [WireState.write]
  · rfl

/-- The session writes nothing. -/
theorem follows_quiet {g : GatewayState} (hsessions : g.sessions = w.gateway.sessions.set k s')
    (h : Transcript s' (w.sent k)) : Follows w k ⟨g, w.sent⟩ :=
  ⟨s', hsessions, fun _ _ => rfl, h⟩

/-- The session stays as it is. -/
theorem follows_still {g : GatewayState} (hs : w.gateway.sessions[k]? = some s)
    (hsessions : g.sessions = w.gateway.sessions) (h : Transcript s (w.sent k)) :
    Follows w k ⟨g, w.sent⟩ := by
  refine follows_quiet ?_ h
  obtain ⟨hk, rfl⟩ := List.getElem?_eq_some_iff.mp hs
  rw [hsessions, List.set_getElem_self]

/-- The session writes a message, if the socket takes it. -/
theorem follows_write {m : WsMessage} {ok : Bool} {w₁ : WireState}
    (hsessions : w₁.gateway.sessions = w.gateway.sessions.set k s') (hsent : w₁.sent = w.sent)
    (h : Transcript s' (w.sent k ++ if ok then [m] else [])) :
    Follows w k (w₁.write k m ok) := by
  refine ⟨s', ?_, ?_, ?_⟩
  · rw [write_gateway]
    exact hsessions
  · intro j hj
    rw [write_sent, Function.update_of_ne hj, hsent]
  · rw [write_sent, Function.update_self, hsent]
    exact h

/-- The session writes a close and ends. -/
theorem follows_shut (h : Transcript s (w.sent k)) (hopen : s.phase.open = true) (phase : Phase)
    (hphase : phase.open = false) (ok : Bool) {w₁ : WireState}
    (hsessions : w₁.gateway.sessions = w.gateway.sessions) (hsent : w₁.sent = w.sent) :
    Follows w k ((w₁.write k .close ok).setPhase k s phase) := by
  refine ⟨{ s with phase }, ?_, ?_, ?_⟩
  · show ((w₁.write k .close ok).gateway.setPhase k s phase).sessions = _
    rw [write_gateway]
    exact congrArg (List.set · k _) hsessions
  · intro j hj
    show (w₁.write k .close ok).sent j = _
    rw [write_sent, Function.update_of_ne hj, hsent]
  · show Transcript _ ((w₁.write k .close ok).sent k)
    rw [write_sent, Function.update_self, hsent]
    exact h.shut hopen phase hphase ok

/-- A message that a session in the middle of its work writes to the socket: it is recorded twice,
    or the session ends. -/
theorem Transcript.deliver (h : Transcript s (w.sent k)) (hbegun : Begun s.device (w.sent k))
    {message : EncryptedMessage} (hvalid : ValidMessage message) {bytes : Bytes}
    (hbytes : sendEncrypted message = some bytes) {phase : Phase}
    (hphase : ∀ sent, Begun s.device sent → phase.Allows s.device sent)
    (received : List EncryptedMessage) :
    Transcript ⟨s.device, phase, s.backlog, received, s.socket ++ [message]⟩
      (w.sent k ++ [.binary bytes]) := by
  obtain ⟨hregular, hread⟩ := sendEncrypted_reads hvalid hbytes
  refine ⟨?_, hphase _ (hbegun.concat hregular)⟩
  rw [List.filterMap_append, h.reads, List.filterMap_cons_some hread]
  rfl

/-- `register` and the pull of the backlog, which write nothing. -/
theorem Transcript.enter (h : Transcript s (w.sent k)) {phase : Phase}
    (hphase : s.phase.Allows s.device (w.sent k) → phase.Allows s.device (w.sent k))
    (backlog : List EncryptedMessage) :
    Transcript ⟨s.device, phase, backlog, s.received, s.socket⟩ (w.sent k) :=
  ⟨h.reads, hphase h.orderly⟩

/-- A message for the socket: it is written, or the session ends. -/
theorem follows_deliver (h : Transcript s (w.sent k)) (hbegun : Begun s.device (w.sent k))
    {message : EncryptedMessage} (hvalid : ValidMessage message) {bytes : Bytes}
    (hbytes : sendEncrypted message = some bytes) (phase ending : Phase)
    (hphase : ∀ sent, Begun s.device sent → phase.Allows s.device sent)
    (hending : ending.open = false) (received : List EncryptedMessage) (ok : Bool)
    {g : GatewayState} (hsessions : g.sessions = w.gateway.sessions.set k
      (if ok then ⟨s.device, phase, s.backlog, received, s.socket ++ [message]⟩
        else ⟨s.device, ending, s.backlog, received, s.socket⟩)) :
    Follows w k (WireState.write ⟨g, w.sent⟩ k (.binary bytes) ok) := by
  cases ok with
  | true =>
    exact follows_write hsessions rfl (h.deliver hbegun hvalid hbytes hphase received)
  | false =>
    have hend := h.end ending hending
    refine follows_write hsessions rfl ?_
    exact (List.append_nil _).symm ▸ ⟨hend.reads, hend.orderly⟩

/-- The next statement of a session that has its hello. -/
theorem advance_follows (hcarries : Carries (fun _ => ValidMessage) w.gateway)
    (hs : w.gateway.sessions[k]? = some s) (hphase : s.phase ≠ .upgraded)
    (h : Transcript s (w.sent k)) (ok : Bool) (now : UInt64) :
    Follows w k (w.advance k s ok now).2 := by
  have hencodes := output_encodes hcarries hs
  have horderly := h.orderly
  have hheld := hcarries.sessions k s hs
  unfold WireState.advance
  unfold GatewayState.output at hencodes ⊢
  unfold GatewayState.advance
  cases hp : s.phase with
  | upgraded => exact absurd hp hphase
  | numbered id =>
    exact follows_quiet rfl (h.enter (fun hold => by rwa [hp] at hold) _)
  | registered id =>
    rw [hp] at horderly hencodes
    have hnothing : w.sent k = [] := horderly
    obtain ⟨bytes, -, hbytes, -⟩ := sendHello_spec s.device
    obtain ⟨hhello, hnone⟩ := isHello_sendHello hbytes
    simp only [hbytes]
    cases ok with
    | true =>
      refine follows_write rfl rfl ⟨?_, ?_⟩
      · rw [List.filterMap_append, h.reads, if_pos rfl, List.filterMap_cons_none hnone]
        exact List.append_nil _
      · exact ⟨_, [], by rw [hnothing]; rfl, hhello, fun m hm => absurd hm List.not_mem_nil⟩
    | false =>
      refine follows_write rfl rfl ?_
      exact (List.append_nil _).symm ▸ h.end _ rfl
  | greeted id =>
    exact follows_quiet rfl (h.enter (fun hold => by rwa [hp] at hold) _)
  | sending id delivered rest =>
    rw [hp] at horderly hencodes
    cases rest with
    | nil =>
      dsimp only
      split
      · exact follows_quiet rfl (h.enter (fun hold => by rwa [hp] at hold) _)
      · exact follows_quiet rfl (h.end .closed rfl)
    | cons message rest =>
      have hvalid : ValidMessage message := by
        apply hheld
        rw [Session.held, hp]
        exact List.mem_append_left _ List.mem_cons_self
      obtain ⟨bytes, -, hbytes, -⟩ := deliverable_of_valid hvalid
      simp only [hbytes]
      refine follows_deliver h horderly hvalid hbytes (.sending id delivered rest) (.leaving id)
        (fun _ hbegun => hbegun) rfl s.received ok ?_
      cases ok <;> rfl
  | live id =>
    rw [hp] at horderly hencodes
    unfold GatewayState.receive
    cases hqueue : (w.gateway.channels k).queue with
    | nil =>
      simp only [List.head?_nil, Option.map_none]
      split
      · exact follows_still hs rfl h
      · exact follows_quiet rfl (h.end (.leaving id) rfl)
    | cons message rest =>
      have hvalid : ValidMessage message := hcarries.channel_session hs (by simp [hqueue])
      obtain ⟨bytes, -, hbytes, -⟩ := deliverable_of_valid hvalid
      simp only [List.head?_cons, Option.map_some, hbytes]
      refine follows_deliver h horderly hvalid hbytes (.live id) (.leaving id)
        (fun _ hbegun => hbegun) rfl (s.received ++ [message]) ok ?_
      cases ok
      · rfl
      · show List.set _ _ _ = List.set _ _ _
        rw [hp]
        rfl
  | routing id => exact follows_still hs rfl h
  | leaving id => exact follows_quiet rfl (h.end .closed rfl)
  | closed => exact follows_still hs rfl h

/-- The first message of a session. -/
theorem hello_follows (hp : s.phase = .upgraded) (h : Transcript s (w.sent k))
    (message : Option WsMessage) (ok : Bool) : Follows w k (w.hello k s message ok) := by
  unfold WireState.hello
  split
  · exact follows_quiet rfl (h.enter (fun hold => by rwa [hp] at hold) _)
  · exact follows_shut h (by rw [hp]; rfl) .closed rfl ok rfl rfl

/-- A pong is written, or the session ends. -/
theorem follows_pong (hs : w.gateway.sessions[k]? = some s) (h : Transcript s (w.sent k))
    (hbegun : Begun s.device (w.sent k)) {id : UInt64} (hp : s.phase = .live id)
    {pong : WsMessage} (hpong : Regular pong ∧ pong.message = none) (ok : Bool) :
    Follows w k (if ok then w.write k pong ok else w.setPhase k s (.leaving id)) := by
  cases ok with
  | false => exact follows_quiet rfl (h.end (.leaving id) rfl)
  | true =>
    show Follows w k (w.write k pong true)
    obtain ⟨hk, rfl⟩ := List.getElem?_eq_some_iff.mp hs
    refine follows_write (List.set_getElem_self hk).symm rfl ⟨?_, ?_⟩
    · rw [List.filterMap_append, h.reads, if_pos rfl, List.filterMap_cons_none hpong.2]
      exact List.append_nil _
    · rw [hp]
      exact hbegun.concat hpong.1

/-- A message of the peer, in the loop. -/
theorem handle_follows (hs : w.gateway.sessions[k]? = some s) (h : Transcript s (w.sent k))
    {id : UInt64} (hp : s.phase = .live id) (message : WsMessage) (ok : Bool) (now : UInt64) :
    Follows w k (w.handle k s id message ok now).2 := by
  have hbegun : Begun s.device (w.sent k) := by
    have horderly := h.orderly
    rwa [hp] at horderly
  have hopen : s.phase.open = true := by rw [hp]; rfl
  have hleave : Follows w k (w.setPhase k s (.leaving id)) :=
    follows_quiet rfl (h.end (.leaving id) rfl)
  have hshut : Follows w k ((w.write k .close ok).setPhase k s (.leaving id)) :=
    follows_shut h hopen (.leaving id) rfl ok rfl rfl
  have hstill : Follows w k w := follows_still hs rfl h
  cases message with
  | text bytes => exact hleave
  | close => exact hleave
  | pong bytes => exact hstill
  | ping bytes =>
    have hpong : Regular (.pong bytes) ∧ (WsMessage.pong bytes).message = none := ⟨trivial, rfl⟩
    exact follows_pong hs h hbegun hp hpong ok
  | binary bytes =>
    unfold WireState.handle
    dsimp only
    split
    · exact hshut
    · cases hframe : Frame.fromBytes bytes with
      | error e => exact hleave
      | ok frame =>
        dsimp only
        cases frame.kind with
        | error e => exact hleave
        | ok kind =>
          cases kind with
          | ping =>
            obtain ⟨echo, -, hecho, -⟩ := echo_spec hframe
            simp only [WireState.handleFrame, hecho]
            exact follows_pong hs h hbegun hp (echo_regular hframe hecho) ok
          | pong => exact hstill
          | clientHello => exact hshut
          | messageBatch => exact hshut
          | preKeyBundle => exact hshut
          | preKeyRequest => exact hshut
          | messageAck =>
            simp only [WireState.handleFrame]
            cases decodeMessageAck frame.payload with
            | error e => exact hleave
            | ok messageId => exact follows_still hs rfl h
          | encryptedMessage =>
            simp only [WireState.handleFrame]
            cases EncryptedMessage.decode frame.payload with
            | error e => exact hleave
            | ok message =>
              dsimp only
              split
              · exact hshut
              · -- the push, and what its answer means for the session
                dsimp only
                cases (w.gateway.push message now (some k)).1 with
                | accepted =>
                  exact follows_quiet rfl (h.enter (fun hold => by rwa [hp] at hold) _)
                | duplicate => exact follows_still hs rfl h
                | invalid => exact follows_shut h hopen (.leaving id) rfl ok rfl rfl
                | full => exact follows_shut h hopen (.leaving id) rfl ok rfl rfl

/-- **A step of a session.** -/
theorem sessionStep_follows (hcarries : Carries (fun _ => ValidMessage) w.gateway)
    (hs : w.gateway.sessions[k]? = some s) (h : Transcript s (w.sent k)) (input : WireInput) :
    Follows w k (w.sessionStep k s input).2 := by
  have hstill : Follows w k w := follows_still hs rfl h
  cases input with
  | next ok now =>
    unfold WireState.sessionStep
    dsimp only
    split
    · exact hstill
    · rename_i hp
      exact advance_follows hcarries hs hp h ok now
  | read message ok now =>
    unfold WireState.sessionStep
    dsimp only
    split
    · rename_i hp
      exact hello_follows hp h message ok
    · rename_i id hp
      cases message with
      | none => exact follows_quiet rfl (h.end (.leaving id) rfl)
      | some message => exact handle_follows hs h hp message ok now
    · exact hstill
  | timeout ok =>
    unfold WireState.sessionStep
    dsimp only
    split
    · rename_i hp
      exact hello_follows hp h none ok
    · rename_i id hp
      exact follows_shut h (by rw [hp]; rfl) (.leaving id) rfl ok rfl rfl
    · exact hstill

end

/-! ### The server -/

section
variable {sha : Sha256} {ed : Ed25519} {json : Json} {s : ServerState}

/-- The relay and the tasks do not matter, nor does whether a session waits for its task. -/
theorem resume_told {w : WireState} (h : Told w) (owner : Option Nat) :
    Told ⟨w.gateway.resume owner, w.sent⟩ := by
  unfold GatewayState.resume
  split
  · exact h
  · rename_i k
    split
    · rename_i t ht
      split
      · rename_i id hp
        have htranscript := h.transcript k t ht
        exact h.move ht (follows_quiet rfl
          (htranscript.enter (fun hold => by rwa [hp] at hold) _))
      · exact h
    · exact h

/-- **Step.** -/
theorem serverStep_told (hcarries : Carries (fun _ => ValidMessage) s.wire.gateway)
    (h : Told s.wire) (e : ServerEvent) : Told (serverStep sha ed json s e).2.wire := by
  cases e with
  | request r =>
    obtain ⟨reply, -, hstep⟩ | ⟨handler, -, hstep⟩ := serverStep_request sha ed json s r
    · rw [hstep]
      exact h
    · rw [hstep]
      exact h
  | serve i nowMs =>
    obtain ⟨-, hstep⟩ | ⟨⟨call, store⟩, -, hstep⟩ := serverStep_serve sha ed json s i nowMs
    · rw [hstep]
      exact h
    · rw [hstep]
      cases store with
      | upgrade device =>
        -- the new session has written nothing
        constructor
        · intro k t ht
          have ht : (s.wire.gateway.sessions ++ [⟨device, .upgraded, [], [], []⟩])[k]? = some t :=
            ht
          by_cases hk : k < s.wire.gateway.sessions.length
          · rw [List.getElem?_append_left hk] at ht
            exact h.transcript k t ht
          · rw [List.getElem?_append_right (not_lt.mp hk), List.getElem?_singleton] at ht
            split at ht
            · obtain rfl := Option.some.inj ht
              have hnothing : s.wire.sent k = [] :=
                h.unborn k (List.getElem?_eq_none (not_lt.mp hk))
              show Transcript _ (s.wire.sent k)
              rw [hnothing]
              exact ⟨rfl, rfl⟩
            · cases ht
        · intro k hk
          refine h.unborn k (List.getElem?_eq_none ?_)
          have hlen : (s.wire.gateway.sessions ++
              [(⟨device, .upgraded, [], [], []⟩ : Session)]).length ≤ k :=
            List.getElem?_eq_none_iff.mp hk
          rw [List.length_append] at hlen
          omega
      | _ => exact h.congr rfl rfl
  | route i =>
    obtain ⟨-, hstep⟩ | ⟨task, -, hstep⟩ := serverStep_route sha ed json s i
    · rw [hstep]
      exact h
    · rw [hstep]
      have hsent : Told ⟨{ s.wire.gateway with
          connections := (s.wire.gateway.connections.trySend s.wire.gateway.channels
            task.message.recipientDeviceId task.message).1
          channels := (s.wire.gateway.connections.trySend s.wire.gateway.channels
            task.message.recipientDeviceId task.message).2
          tasks := s.wire.gateway.tasks.eraseIdx i }, s.wire.sent⟩ := h.congr rfl rfl
      exact resume_told hsent task.owner
  | session k input =>
    obtain ⟨-, hstep⟩ | ⟨t, ht, hstep⟩ := serverStep_session sha ed json s k input
    · rw [hstep]
      exact h
    · rw [hstep]
      exact h.move ht (sessionStep_follows hcarries ht (h.transcript k t ht) input)

/-- **Run.** -/
theorem serving_told (sha : Sha256) (ed : Ed25519) (json : Json) (events : List ServerEvent) :
    Told (serving sha ed json events).wire := by
  induction events using List.reverseRecOn with
  | nil =>
    refine ⟨fun k t ht => ?_, fun _ _ => rfl⟩
    cases ht
  | append_singleton events e ih =>
    rw [serving, after_concat]
    exact serverStep_told (serving_carries sha ed json events) ih e

/-- **A peer reads its messages, and reads them in order.**  In every run of the server, whatever
    its sessions and requests do in whatever order, the messages that the peer of a session finds in
    the bytes it was sent are those that the session has sent.  Before them comes the hello of the
    gateway, between them come only pongs, and after them at most a close. -/
theorem peers_read_their_messages (sha : Sha256) (ed : Ed25519) (json : Json)
    (events : List ServerEvent) :
    let w := (serving sha ed json events).wire
    ∀ k : Fin w.gateway.sessions.length,
      (w.sent k).filterMap WsMessage.message = w.gateway.sessions[k].socket ∧
      Ended w.gateway.sessions[k].device (w.sent k) ∧
      (w.gateway.sessions[k].phase.open = true →
        w.sent k = [] ∨ Begun w.gateway.sessions[k].device (w.sent k)) := by
  intro w k
  have h := (serving_told sha ed json events).transcript k w.gateway.sessions[k]
    (List.getElem?_eq_getElem k.isLt)
  exact ⟨h.reads, h.orderly.ended, h.orderly.before⟩

end

end NexaMessenger.Gateway
