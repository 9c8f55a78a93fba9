import NexaMessenger.Lib.Refinement
import NexaMessenger.Gateway.Carriage
import NexaMessenger.Gateway.Frames

namespace NexaMessenger.Gateway

open Lib Relay
open Transport (Frame FrameKind)

/-!
# Gateway — websocket sessions in bytes

`websocket_session` down to the messages of the websocket: what it reads is a `WsMessage`, a frame
if it is binary, and what it writes is recorded in `sent`.  The session of `Gateway.Session` is told
what kind of frame came in (`Inbound`) and that a write failed or did not; here the session parses
the one and encodes the other.

`WireState.sessionStep_refines` says that each step in bytes is the step of the session that
`heard` names.  The one thing it needs is that whatever the session has to send is valid, since
only then the encoding in `send_encrypted` cannot fail.
-/

/-- `Message` of the websocket library; the reason in a close frame is not read. -/
inductive WsMessage
  | text (bytes : Bytes)
  | binary (bytes : Bytes)
  | ping (bytes : Bytes)
  | pong (bytes : Bytes)
  | close
deriving DecidableEq, Repr

/-- What a session comes to in bytes. -/
inductive WireInput
  /-- the next statement that reads nothing, and in the loop the branch of `outbound.recv`; `ok`
      says whether the socket takes what is written, `now` is the clock reading of a pull -/
  | next (ok : Bool) (now : UInt64)
  /-- `socket.next()`: a message, or nothing when the stream has ended or failed -/
  | read (message : Option WsMessage) (ok : Bool) (now : UInt64)
  /-- `WS_HELLO_TIMEOUT` or `WS_IDLE_TIMEOUT` passes -/
  | timeout (ok : Bool)
deriving DecidableEq, Repr

/-- The gateway with what its sessions have written to their sockets, oldest first. -/
structure WireState where
  gateway : GatewayState
  sent : Nat → List WsMessage

/-! ### Reading -/

/-- The checks of the first message of a session: a hello frame of the device. -/
def isHello (device : Id16) (message : WsMessage) : Bool :=
  match message with
  | .binary bytes =>
    if wsMaxMessage < bytes.length then false
    else
      match Frame.fromBytes bytes with
      | .error _ => false
      | .ok frame =>
        match frame.kind with
        | .error _ => false
        | .ok kind => kind = .clientHello && frame.payload = device.toList
  | _ => false

/-! ### Writing -/

/-- The steps of `send_hello` up to the socket write. -/
def sendHello (device : Id16) : Option Bytes := frameBytes .clientHello 1 device.toList

/-- What the next statement of a session writes to the socket, if it writes at all; the inner
    `none` is an encoding that fails. -/
def GatewayState.output (g : GatewayState) (k : Nat) (s : Session) : Option (Option Bytes) :=
  match s.phase with
  | .registered _ => some (sendHello s.device)
  | .sending _ _ (message :: _) => some (sendEncrypted message)
  | .live _ => (g.channels k).queue.head?.map sendEncrypted
  | _ => none

namespace WireState

/-- `socket.send`. -/
def write (w : WireState) (k : Nat) (message : WsMessage) (ok : Bool) : WireState :=
  if ok then { w with sent := Function.update w.sent k (w.sent k ++ [message]) } else w

def setPhase (w : WireState) (k : Nat) (s : Session) (phase : Phase) : WireState :=
  { w with gateway := w.gateway.setPhase k s phase }

/-- The first lines of `websocket_session`, up to the first line of `register`. -/
def hello (w : WireState) (k : Nat) (s : Session) (message : Option WsMessage) (ok : Bool) :
    WireState :=
  if message.any (isHello s.device) then
    let (id, connections) := w.gateway.connections.fetchId
    { w with gateway := { w.gateway.setPhase k s (.numbered id) with connections } }
  else
    let w := w.write k .close ok
    { w with gateway := w.gateway.close k s }

/-- The next statement of a session, other than `socket.next()`. -/
def advance (w : WireState) (k : Nat) (s : Session) (ok : Bool) (now : UInt64) :
    Effect × WireState :=
  match w.gateway.output k s with
  | none =>
    let (effect, gateway) := w.gateway.advance k s ok now
    (effect, { w with gateway })
  | some none =>
    let (effect, gateway) := w.gateway.advance k s false now
    (effect, { w with gateway })
  | some (some bytes) =>
    let (effect, gateway) := w.gateway.advance k s ok now
    (effect, { w with gateway }.write k (.binary bytes) ok)

/-- The branches of `handle_authenticated_message` on the kind of a frame. -/
def handleFrame (w : WireState) (k : Nat) (s : Session) (id : UInt64) (kind : FrameKind)
    (payload : Bytes) (ok : Bool) (now : UInt64) : Effect × WireState :=
  match kind with
  | .ping =>
    match frameBytes .pong 0 payload with
    | none => (.quiet, w.setPhase k s (.leaving id))
    | some bytes =>
      (.quiet, if ok then w.write k (.binary bytes) ok else w.setPhase k s (.leaving id))
  | .pong => (.quiet, w)
  | .encryptedMessage =>
    match EncryptedMessage.decode payload with
    | .error _ => (.quiet, w.setPhase k s (.leaving id))
    | .ok message =>
      if message.senderDeviceId ≠ s.device then
        (.forbidden, (w.write k .close ok).setPhase k s (.leaving id))
      else
        let (result, gateway) := w.gateway.push message now (some k)
        let w := { w with gateway }
        (.relay (.push message now) (.pushed result),
          match result with
          | .accepted => w.setPhase k s (.routing id)
          | .duplicate => w
          | .invalid | .full => (w.write k .close ok).setPhase k s (.leaving id))
  | .messageAck =>
    match decodeMessageAck payload with
    | .error _ => (.quiet, w.setPhase k s (.leaving id))
    | .ok messageId =>
      let (removed, relay) := w.gateway.relay.ack s.device messageId
      (.relay (.ack s.device messageId) (.acked removed),
        { w with gateway := { w.gateway with relay } })
  | .clientHello | .messageBatch | .preKeyBundle | .preKeyRequest =>
    (.quiet, (w.write k .close ok).setPhase k s (.leaving id))

/-- `handle_authenticated_message`. -/
def handle (w : WireState) (k : Nat) (s : Session) (id : UInt64) (message : WsMessage) (ok : Bool)
    (now : UInt64) : Effect × WireState :=
  match message with
  | .binary bytes =>
    if wsMaxMessage < bytes.length then
      (.quiet, (w.write k .close ok).setPhase k s (.leaving id))
    else
      match Frame.fromBytes bytes with
      | .error _ => (.quiet, w.setPhase k s (.leaving id))
      | .ok frame =>
        match frame.kind with
        | .error _ => (.quiet, w.setPhase k s (.leaving id))
        | .ok kind => w.handleFrame k s id kind frame.payload ok now
  | .ping bytes =>
    (.quiet, if ok then w.write k (.pong bytes) ok else w.setPhase k s (.leaving id))
  | .pong _ => (.quiet, w)
  | .text _ | .close => (.quiet, w.setPhase k s (.leaving id))

/-- A step of a session.  Messages are read where a session waits for its hello, and in the loop,
    where nothing else is read while a message is being handled. -/
def sessionStep (w : WireState) (k : Nat) (s : Session) (input : WireInput) : Effect × WireState :=
  match input with
  | .next ok now =>
    match s.phase with
    | .upgraded => (.quiet, w)
    | _ => w.advance k s ok now
  | .read message ok now =>
    match s.phase with
    | .upgraded => (.quiet, w.hello k s message ok)
    | .live id =>
      match message with
      | some message => w.handle k s id message ok now
      | none => (.quiet, w.setPhase k s (.leaving id))
    | _ => (.quiet, w)
  | .timeout ok =>
    match s.phase with
    | .upgraded => (.quiet, w.hello k s none ok)
    | .live id => (.quiet, (w.write k .close ok).setPhase k s (.leaving id))
    | _ => (.quiet, w)

end WireState

/-! ### What a session hears -/

/-- A frame, as `handle_authenticated_message` tells them apart. -/
def hearFrame (kind : FrameKind) (payload : Bytes) : Inbound :=
  match kind with
  | .ping => .ping
  | .pong => .pong
  | .encryptedMessage =>
    match EncryptedMessage.decode payload with
    | .error _ => .refused
    | .ok message => .message message
  | .messageAck =>
    match decodeMessageAck payload with
    | .error _ => .refused
    | .ok messageId => .ack messageId
  | .clientHello | .messageBatch | .preKeyBundle | .preKeyRequest => .refused

/-- A message of the peer. -/
def hear (message : WsMessage) : Inbound :=
  match message with
  | .binary bytes =>
    if wsMaxMessage < bytes.length then .refused
    else
      match Frame.fromBytes bytes with
      | .error _ => .refused
      | .ok frame =>
        match frame.kind with
        | .error _ => .refused
        | .ok kind => hearFrame kind frame.payload
  | .ping _ => .ping
  | .pong _ => .pong
  | .text _ | .close => .refused

/-- The input of the session without bytes.  A `hangUp` outside of the loop does nothing. -/
def heard (s : Session) (input : WireInput) : SessionInput :=
  match input with
  | .next ok now =>
    match s.phase with
    | .upgraded => .hangUp
    | _ => .next ok now
  | .read message ok now =>
    match s.phase with
    | .upgraded => .next (message.any (isHello s.device)) now
    | .live _ =>
      match message with
      | some message => .inbound (hear message) ok now
      | none => .hangUp
    | _ => .hangUp
  | .timeout _ =>
    match s.phase with
    | .upgraded => .next false 0
    | _ => .hangUp

/-! ### Encoding does not fail -/

/-- The hello of the gateway is sent and read back. -/
theorem sendHello_spec (device : Id16) :
    ∃ bytes frame, sendHello device = some bytes ∧ bytes.length ≤ wsMaxMessage ∧
      Frame.fromBytes bytes = .ok frame ∧ frame.kind = .ok .clientHello ∧
      frame.payload = device.toList := by
  have hlength : device.toList.length = 16 := Vector.length_toList
  refine frameBytes_spec .clientHello 1 ?_ ?_
  · refine List.length_pos_iff.mp ?_
    omega
  · unfold Transport.maxFrame
    omega

/-- The payload of a frame that was read can be sent back. -/
theorem echo_spec {bytes : Bytes} {frame : Frame} (h : Frame.fromBytes bytes = .ok frame) :
    ∃ echo frame', frameBytes .pong 0 frame.payload = some echo ∧ echo.length ≤ wsMaxMessage ∧
      Frame.fromBytes echo = .ok frame' ∧ frame'.kind = .ok .pong ∧
      frame'.payload = frame.payload := by
  have hvalid := Frame.validate_eq_ok_iff.mp (Frame.fromBytes_eq_ok_iff.mp h).1
  exact frameBytes_spec .pong 0 hvalid.nonempty hvalid.bounded

/-! ### The session in bytes is the session -/

section
variable {w : WireState} {k : Nat} {s : Session}

@[simp] theorem write_gateway (w : WireState) (k : Nat) (message : WsMessage) (ok : Bool) :
    (w.write k message ok).gateway = w.gateway := by
  unfold WireState.write
  split <;> rfl

@[simp] theorem setPhase_gateway (w : WireState) (k : Nat) (s : Session) (phase : Phase) :
    (w.setPhase k s phase).gateway = w.gateway.setPhase k s phase := rfl

/-- Where a step in bytes leads to, and what it does, in the gateway without bytes. -/
def Refines (result : Effect × WireState) (plain : Effect × GatewayState) : Prop :=
  result.1 = plain.1 ∧ result.2.gateway = plain.2

/-- Whatever a session writes next can be encoded. -/
theorem output_encodes (h : Carries (fun _ => ValidMessage) w.gateway)
    (hs : w.gateway.sessions[k]? = some s) : w.gateway.output k s ≠ some none := by
  have hsent {m : EncryptedMessage} (hm : ValidMessage m) : sendEncrypted m ≠ none := by
    obtain ⟨bytes, -, hbytes, -⟩ := deliverable_of_valid hm
    rw [hbytes]
    exact Option.some_ne_none bytes
  unfold GatewayState.output
  split
  · obtain ⟨bytes, -, hbytes, -⟩ := sendHello_spec s.device
    rw [hbytes]
    exact fun heq => absurd (Option.some.inj heq) (Option.some_ne_none bytes)
  · rename_i id delivered message rest hphase
    -- the message is in the session's hands
    have hm : ValidMessage message := by
      apply h.sessions k s hs
      rw [Session.held, hphase]
      exact List.mem_append_left _ List.mem_cons_self
    exact fun heq => hsent hm (Option.some.inj heq)
  · intro heq
    obtain ⟨m, hm, hnone⟩ := Option.map_eq_some_iff.mp heq
    exact hsent (h.channel_session hs (List.mem_of_head? hm)) hnone
  · simp

theorem advance_refines (h : Carries (fun _ => ValidMessage) w.gateway)
    (hs : w.gateway.sessions[k]? = some s) (ok : Bool) (now : UInt64) :
    Refines (w.advance k s ok now) (w.gateway.advance k s ok now) := by
  unfold WireState.advance
  split
  · exact ⟨rfl, rfl⟩
  · rename_i hnone
    exact absurd hnone (output_encodes h hs)
  · exact ⟨rfl, write_gateway _ _ _ _⟩

theorem hello_refines (w : WireState) (k : Nat) {s : Session} (hphase : s.phase = .upgraded)
    (message : Option WsMessage) (ok : Bool) (now : UInt64) :
    Refines (.quiet, w.hello k s message ok)
      (w.gateway.advance k s (message.any (isHello s.device)) now) := by
  unfold WireState.hello GatewayState.advance
  rw [hphase]
  dsimp only
  split
  · exact ⟨rfl, rfl⟩
  · refine ⟨rfl, ?_⟩
    show (w.write k .close ok).gateway.close k s = _
    rw [write_gateway]

/-- The branches on the kind of a frame; a ping that was read can be answered. -/
theorem handleFrame_refines (w : WireState) (k : Nat) (s : Session) (id : UInt64)
    {bytes : Bytes} {frame : Frame} (hframe : Frame.fromBytes bytes = .ok frame)
    (kind : FrameKind) (ok : Bool) (now : UInt64) :
    Refines (w.handleFrame k s id kind frame.payload ok now)
      (w.gateway.handle k s id (hearFrame kind frame.payload) ok now) := by
  cases kind with
  | ping =>
    obtain ⟨echo, -, hecho, -⟩ := echo_spec hframe
    simp only [WireState.handleFrame, hecho, hearFrame, GatewayState.handle]
    refine ⟨rfl, ?_⟩
    cases ok <;> simp
  | pong => exact ⟨rfl, rfl⟩
  | messageAck =>
    simp only [WireState.handleFrame, hearFrame]
    cases decodeMessageAck frame.payload <;> exact ⟨rfl, rfl⟩
  | encryptedMessage =>
    simp only [WireState.handleFrame, hearFrame]
    cases EncryptedMessage.decode frame.payload with
    | error e => exact ⟨rfl, rfl⟩
    | ok message =>
      dsimp only [GatewayState.handle]
      by_cases hsender : message.senderDeviceId ≠ s.device
      · rw [if_pos hsender, if_pos hsender]
        exact ⟨rfl, by simp⟩
      · rw [if_neg hsender, if_neg hsender]
        refine ⟨rfl, ?_⟩
        dsimp only
        cases (w.gateway.push message now (some k)).1 <;> simp
  | clientHello => exact ⟨rfl, by simp [WireState.handleFrame, hearFrame, GatewayState.handle]⟩
  | messageBatch => exact ⟨rfl, by simp [WireState.handleFrame, hearFrame, GatewayState.handle]⟩
  | preKeyBundle => exact ⟨rfl, by simp [WireState.handleFrame, hearFrame, GatewayState.handle]⟩
  | preKeyRequest => exact ⟨rfl, by simp [WireState.handleFrame, hearFrame, GatewayState.handle]⟩

theorem handle_refines (w : WireState) (k : Nat) (s : Session) (id : UInt64)
    (message : WsMessage) (ok : Bool) (now : UInt64) :
    Refines (w.handle k s id message ok now)
      (w.gateway.handle k s id (hear message) ok now) := by
  cases message with
  | binary bytes =>
    unfold WireState.handle hear
    dsimp only
    split
    · exact ⟨rfl, by simp [GatewayState.handle]⟩
    · cases hframe : Frame.fromBytes bytes with
      | error e => exact ⟨rfl, rfl⟩
      | ok frame =>
        dsimp only
        cases frame.kind with
        | error e => exact ⟨rfl, rfl⟩
        | ok kind => exact handleFrame_refines w k s id hframe kind ok now
  | ping bytes =>
    refine ⟨rfl, ?_⟩
    cases ok <;> simp [WireState.handle, hear, GatewayState.handle]
  | pong bytes => exact ⟨rfl, rfl⟩
  | text bytes => exact ⟨rfl, rfl⟩
  | close => exact ⟨rfl, rfl⟩

theorem hangUp_quiet (g : GatewayState) (k : Nat) {s : Session}
    (hlive : ∀ id, s.phase = .live id → False) :
    g.sessionStep k s .hangUp = (.quiet, g) := by
  unfold GatewayState.sessionStep
  dsimp only
  split
  · rename_i id hphase
    exact absurd hphase (hlive id)
  · rfl

/-- **A step in bytes** is the step of the session that is heard. -/
theorem WireState.sessionStep_refines (h : Carries (fun _ => ValidMessage) w.gateway)
    (hs : w.gateway.sessions[k]? = some s) (input : WireInput) :
    Refines (w.sessionStep k s input) (w.gateway.sessionStep k s (heard s input)) := by
  cases input with
  | next ok now =>
    unfold WireState.sessionStep heard
    dsimp only
    split
    · rename_i hphase
      simp only [GatewayState.sessionStep, hphase]
      exact ⟨rfl, rfl⟩
    · exact advance_refines h hs ok now
  | read message ok now =>
    unfold WireState.sessionStep heard
    dsimp only
    split
    · rename_i hphase
      exact hello_refines w k hphase message ok now
    · rename_i id hphase
      cases message with
      | none =>
        simp only [GatewayState.sessionStep, hphase]
        exact ⟨rfl, rfl⟩
      | some message =>
        simp only [GatewayState.sessionStep, hphase]
        exact handle_refines w k s id message ok now
    · rename_i hnew hlive
      -- nothing is read in the other phases
      rw [hangUp_quiet w.gateway k hlive]
      exact ⟨rfl, rfl⟩
  | timeout ok =>
    unfold WireState.sessionStep heard
    dsimp only
    split
    · rename_i hphase
      simp only [hphase]
      exact hello_refines w k hphase none ok 0
    · rename_i id hphase
      simp only [GatewayState.sessionStep, hphase]
      exact ⟨rfl, by simp⟩
    · rename_i hnew hlive
      split
      · rename_i hphase
        exact absurd hphase hnew
      · rw [hangUp_quiet w.gateway k hlive]
        exact ⟨rfl, rfl⟩

end

end NexaMessenger.Gateway
