import NexaMessenger.Lib.Machine
import NexaMessenger.Relay.Store
import NexaMessenger.Gateway.Connections

namespace NexaMessenger.Gateway

open Lib Relay

/-!
# Gateway — handlers and websocket sessions

The part of the gateway that moves messages, as a machine whose inputs are the steps of its
tasks in the order in which they take effect.  A step is one call on the relay store or on the
registry, one write to a socket, or one read of a channel; everything between two awaits of a
task falls into one of its steps.

* `enqueue` pushes a message and, when it is accepted, awaits the `try_send`.  The await is where
  other tasks may run, so what is left of `enqueue` is a task whose step is the `try_send`.  So it
  is with a session that receives a message frame: it goes on after that step.
* A websocket session goes through the phases of `websocket_session`.  Steps of different
  sessions and tasks interleave in any order.

Requests are taken after authentication: a step names the device that was authenticated.
-/

/-! ### State -/

/-- Where a websocket session is in `websocket_session`. -/
inductive Phase
  /-- waits for the hello frame -/
  | upgraded
  /-- in `register`, with the number of its connection; the next step creates the channel -/
  | numbered (id : UInt64)
  /-- registered; the next step is `send_hello` -/
  | registered (id : UInt64)
  /-- the next step pulls the backlog -/
  | greeted (id : UInt64)
  /-- writes the rest of the backlog, then activates -/
  | sending (id : UInt64) (delivered : List Id16) (rest : List EncryptedMessage)
  /-- in the loop -/
  | live (id : UInt64)
  /-- in the loop, between `push` and the end of `try_send` -/
  | routing (id : UInt64)
  /-- on the way out; the next step is `unregister` -/
  | leaving (id : UInt64)
  | closed
deriving DecidableEq, Repr

/-- A websocket session: its device, its phase, and what it has done so far: the backlog it
    pulled, the messages it received from its channel, and those written to its socket. -/
structure Session where
  device : Id16
  phase : Phase
  backlog : List EncryptedMessage
  received : List EncryptedMessage
  socket : List EncryptedMessage
deriving DecidableEq, Repr

/-- A caller that has seen its message accepted and awaits the `try_send`: a session, the `owner`,
    or `enqueue`. -/
structure RouteTask where
  message : EncryptedMessage
  owner : Option Nat
deriving DecidableEq, Repr

/-- `AppState`, as far as messages are concerned, with the tasks that work on it. -/
structure GatewayState where
  relay : RelayStore
  connections : ConnectionRegistry
  channels : Channels
  tasks : List RouteTask
  sessions : List Session

/-- The gateway when `main` starts to serve. -/
def GatewayState.start : GatewayState :=
  ⟨RelayStore.empty, ConnectionRegistry.empty, fun _ => Channel.new, [], []⟩

/-! ### Steps -/

/-- A message of the peer, as `handle_authenticated_message` tells them apart. -/
inductive Inbound
  /-- a ping, which is answered, or a pong -/
  | ping | pong
  /-- a `MessageAck` frame -/
  | ack (messageId : Id16)
  /-- an `EncryptedMessage` frame -/
  | message (message : EncryptedMessage)
  /-- whatever ends the session: text, a close frame, a frame that is malformed or of another
      kind -/
  | refused
deriving DecidableEq, Repr

inductive SessionInput
  /-- the next statement, and in the loop the branch of `outbound.recv`; `ok` says whether the
      socket works, `now` is the clock reading of a pull -/
  | next (ok : Bool) (now : UInt64)
  /-- the branch of `socket.next` -/
  | inbound (frame : Inbound) (ok : Bool) (now : UInt64)
  /-- the loop ends: no frame for `WS_IDLE_TIMEOUT`, or the socket is gone -/
  | hangUp
deriving DecidableEq, Repr

inductive Event
  /-- `POST /v1/relay` by a device -/
  | enqueue (device : Id16) (message : EncryptedMessage) (now : UInt64)
  /-- the `try_send` that a task awaits -/
  | route (task : Nat)
  /-- `GET /v1/relay/{device_id}` by a device -/
  | poll (authenticated device : Id16) (now : UInt64)
  /-- `POST /v1/relay/{device_id}/{message_id}/ack` by a device -/
  | ack (authenticated device messageId : Id16)
  /-- a websocket upgrade by a device -/
  | upgrade (device : Id16)
  /-- a step of a session -/
  | session (k : Nat) (input : SessionInput)
deriving DecidableEq, Repr

/-- What a step did: a call on the relay store with its answer, a `try_send`, or neither. -/
inductive Effect
  | quiet
  | forbidden
  | relay (op : RelayOp) (answer : RelayAnswer)
  | routed (message : EncryptedMessage)
deriving DecidableEq, Repr

namespace GatewayState

def setSession (g : GatewayState) (k : Nat) (s : Session) : GatewayState :=
  { g with sessions := g.sessions.set k s }

def setPhase (g : GatewayState) (k : Nat) (s : Session) (phase : Phase) : GatewayState :=
  g.setSession k { s with phase }

/-- `relay.push`, with an accepted message up to the await of its `try_send`; also the answer. -/
def push (g : GatewayState) (message : EncryptedMessage) (now : UInt64) (owner : Option Nat) :
    PushResult × GatewayState :=
  let (result, relay) := g.relay.push message now
  let tasks := if result = .accepted then g.tasks ++ [⟨message, owner⟩] else g.tasks
  (result, { g with relay, tasks })

/-- `websocket_session` returns: its receiver is dropped. -/
def close (g : GatewayState) (k : Nat) (s : Session) : GatewayState :=
  { g.setPhase k s .closed with
    channels := Function.update g.channels k { g.channels k with closed := true } }

/-- The branch of `outbound.recv`: a message is written to the socket; without one, the session
    ends when the sender is gone from the registry. -/
def receive (g : GatewayState) (k : Nat) (s : Session) (id : UInt64) (ok : Bool) : GatewayState :=
  match (g.channels k).queue with
  | message :: rest =>
    let channels := Function.update g.channels k { g.channels k with queue := rest }
    let s := { s with received := s.received ++ [message] }
    if ok then { g.setSession k { s with socket := s.socket ++ [message] } with channels }
    else { g.setPhase k s (.leaving id) with channels }
  | [] =>
    if g.connections.inner.entries.any (fun entry => entry.2.sender = k) then g
    else g.setPhase k s (.leaving id)

/-- The next statement of a session. -/
def advance (g : GatewayState) (k : Nat) (s : Session) (ok : Bool) (now : UInt64) :
    Effect × GatewayState :=
  match s.phase with
  | .upgraded =>
    if ok then
      let (id, connections) := g.connections.fetchId
      (.quiet, { g.setPhase k s (.numbered id) with connections })
    else (.quiet, g.close k s)
  | .numbered id =>
    (.quiet, { g.setPhase k s (.registered id) with
      connections := g.connections.register s.device id k
      channels := Function.update g.channels k Channel.new })
  | .registered id => (.quiet, g.setPhase k s (if ok then .greeted id else .leaving id))
  | .greeted id =>
    let (backlog, relay) := g.relay.pull s.device now
    (.relay (.pull s.device now) (.pulled backlog),
      { g.setSession k { s with phase := .sending id (backlog.map (·.messageId)) backlog, backlog }
        with relay })
  | .sending id delivered (message :: rest) =>
    if ok then
      (.quiet, g.setSession k
        { s with phase := .sending id delivered rest, socket := s.socket ++ [message] })
    else (.quiet, g.setPhase k s (.leaving id))
  | .sending id delivered [] =>
    let (active, connections, channels) := g.connections.activate g.channels s.device id delivered
    if active then (.quiet, { g.setPhase k s (.live id) with connections, channels })
    else (.quiet, g.close k s)
  | .live id => (.quiet, g.receive k s id ok)
  | .routing _ => (.quiet, g)
  | .leaving id =>
    (.quiet, { g.close k s with connections := g.connections.unregister s.device id })
  | .closed => (.quiet, g)

/-- `handle_authenticated_message`, in the loop. -/
def handle (g : GatewayState) (k : Nat) (s : Session) (id : UInt64) (frame : Inbound) (ok : Bool)
    (now : UInt64) : Effect × GatewayState :=
  match frame with
  | .ping => (.quiet, if ok then g else g.setPhase k s (.leaving id))
  | .pong => (.quiet, g)
  | .ack messageId =>
    let (removed, relay) := g.relay.ack s.device messageId
    (.relay (.ack s.device messageId) (.acked removed), { g with relay })
  | .message message =>
    if message.senderDeviceId ≠ s.device then (.forbidden, g.setPhase k s (.leaving id))
    else
      let (result, g) := g.push message now (some k)
      (.relay (.push message now) (.pushed result),
        match result with
        | .accepted => g.setPhase k s (.routing id)
        | .duplicate => g
        | .invalid | .full => g.setPhase k s (.leaving id))
  | .refused => (.quiet, g.setPhase k s (.leaving id))

/-- A step of a session.  Frames are read, and the session hangs up, in the loop only. -/
def sessionStep (g : GatewayState) (k : Nat) (s : Session) (input : SessionInput) :
    Effect × GatewayState :=
  match input with
  | .next ok now => g.advance k s ok now
  | .inbound frame ok now =>
    match s.phase with
    | .live id => g.handle k s id frame ok now
    | _ => (.quiet, g)
  | .hangUp =>
    match s.phase with
    | .live id => (.quiet, g.setPhase k s (.leaving id))
    | _ => (.quiet, g)

/-- The session that awaited a `try_send` goes on. -/
def resume (g : GatewayState) (owner : Option Nat) : GatewayState :=
  match owner with
  | none => g
  | some k =>
    match g.sessions[k]? with
    | some s =>
      match s.phase with
      | .routing id => g.setPhase k s (.live id)
      | _ => g
    | none => g

/-- The `try_send` that a task awaits. -/
def route (g : GatewayState) (i : Nat) (task : RouteTask) : Effect × GatewayState :=
  let (connections, channels) :=
    g.connections.trySend g.channels task.message.recipientDeviceId task.message
  (.routed task.message,
    { g with connections, channels, tasks := g.tasks.eraseIdx i }.resume task.owner)

end GatewayState

/-- The gateway as a machine. -/
def gatewayStep (g : GatewayState) : Event → Effect × GatewayState
  | .enqueue device message now =>
    if message.senderDeviceId ≠ device then (.forbidden, g)
    else
      let (result, g) := g.push message now none
      (.relay (.push message now) (.pushed result), g)
  | .route i =>
    match g.tasks[i]? with
    | some task => g.route i task
    | none => (.quiet, g)
  | .poll authenticated device now =>
    if authenticated ≠ device then (.forbidden, g)
    else
      let (messages, relay) := g.relay.pull device now
      (.relay (.pull device now) (.pulled messages), { g with relay })
  | .ack authenticated device messageId =>
    if authenticated ≠ device then (.forbidden, g)
    else
      let (removed, relay) := g.relay.ack device messageId
      (.relay (.ack device messageId) (.acked removed), { g with relay })
  | .upgrade device =>
    (.quiet, { g with sessions := g.sessions ++ [⟨device, .upgraded, [], [], []⟩] })
  | .session k input =>
    match g.sessions[k]? with
    | some s => g.sessionStep k s input
    | none => (.quiet, g)

end NexaMessenger.Gateway
