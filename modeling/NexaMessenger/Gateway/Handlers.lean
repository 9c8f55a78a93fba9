import NexaMessenger.Gateway.PathIds
import NexaMessenger.Gateway.PreKeys
import NexaMessenger.Gateway.Wire

namespace NexaMessenger.Gateway

open Lib Relay Auth
open PathIds (hexTo16)

/-!
# Gateway — the server

All of `main`'s router as one machine: requests as they come, with their headers, the text of their
path parameters and the bytes of their bodies, and the websocket sessions in bytes.

A handler runs in two parts.  The first reads its parameters, authenticates the request and checks
who may do what; it touches nothing but the `AuthState` and ends in a refusal or in a `Handler` that
is about to call a store.  The second part is that call, with what the store answers and the
reply that is made of it.  Between the two other tasks may run: a handler that was admitted is
served in a step of its own, in any order, or never, when its client goes away.

What the source leaves to libraries is a parameter: `Json` are the parsers of bodies that `serde`
derives.  Path parameters are those that the router's extractors give.
-/

/-! ### Replies -/

inductive StatusCode
  | ok | switchingProtocols | accepted | noContent | badRequest | unauthorized | forbidden
  | notFound | conflict | tooManyRequests | internalServerError
deriving DecidableEq, Repr

/-- `auth_status`. -/
def authStatus : AuthError → StatusCode
  | .missingHeader | .invalidHeader | .invalidTimestamp | .invalidDevice | .invalidSignature
  | .replay => .unauthorized
  | .rateLimited => .tooManyRequests

/-- `publication_status`. -/
def publicationStatus : PublicationError → StatusCode
  | .invalidBundle | .invalidVersion | .invalidTime | .expired | .tooLong | .invalidSignature
  | .invalidRequest => .badRequest
  | .wrongDevice => .forbidden
  | .staleGeneration | .alreadyClaimed | .alreadyRevoked => .conflict
  | .notFound => .notFound
  | .poisoned => .internalServerError

/-- What a client gets: a status code, with a body in those cases in which there is one.  No reply
    at all comes from a handler that panics. -/
inductive Reply
  | status (code : StatusCode)
  | messages (messages : List EncryptedMessage)
  | publication (publication : PreKeyPublication)
  | claim (claim : OpkClaim)
  | aborted
deriving DecidableEq, Repr

def Reply.code : Reply → Option StatusCode
  | .status code => some code
  | .messages _ | .publication _ | .claim _ => some .ok
  | .aborted => none

/-! ### Requests -/

structure OpkClaimRequest where
  requestId : Id16
deriving DecidableEq, Repr

/-- `serde_json::from_slice`, at the types of the bodies. -/
structure Json where
  message : Bytes → Option EncryptedMessage
  publication : Bytes → Option PreKeyPublication
  claimRequest : Bytes → Option OpkClaimRequest

/-- The routes, with their parameters and bodies. -/
inductive Route
  | enqueue (body : Bytes)
  | poll (device : Text)
  | ack (device messageId : Text)
  | publishPrekeys (body : Bytes)
  | getPrekeys (device : Text)
  | revokePrekeys (device : Text) (generation : UInt64)
  | claimPrekey (recipient : Text) (generation : UInt64) (keyId : UInt32) (body : Bytes)
  | websocket
deriving DecidableEq, Repr

/-- A request, with the readings of the two clocks in its `authenticate` call. -/
structure HttpRequest where
  headers : HeaderMap
  route : Route
  nowMs : UInt64
  now : Nat
deriving DecidableEq, Repr

/-- The call of a store that a handler ends in. -/
inductive StoreCall
  | push (message : EncryptedMessage)
  | pull (device : Id16)
  | ack (device messageId : Id16)
  | publish (device : Id16) (publication : PreKeyPublication)
  | getActive (device : Id16)
  | revoke (device : Id16) (generation : UInt64)
  | claimOpk (recipient : Id16) (generation : UInt64) (keyId : UInt32) (claimant requestId : Id16)
  /-- `on_upgrade`: a websocket session is started -/
  | upgrade (device : Id16)
deriving DecidableEq, Repr

/-- A handler that is about to make its call, and the `authenticate` call it has behind it. -/
structure Handler where
  call : Option AuthCall
  store : StoreCall
deriving DecidableEq, Repr

/-! ### The first part of a handler -/

def post : Bytes := ascii "POST"

def get : Bytes := ascii "GET"

/-- `hex_to_16(..).ok_or(BAD_REQUEST)?`. -/
def pathId (text : Text) : Except Reply Id16 :=
  match hexTo16 text with
  | .ok id => .ok id
  | .error (.error ()) => .error (.status .badRequest)
  | .error .panic => .error .aborted

/-- `authenticate(..).await.map_err(auth_status)?`, and what comes after it. -/
def authenticated (sha : Sha256) (ed : Ed25519) (auth : AuthState) (call : AuthCall)
    (next : Id16 → Except Reply StoreCall) : Except Reply Handler × AuthState :=
  match auth.authenticate sha ed call with
  | (.error e, auth) => (.error (.status (authStatus e)), auth)
  | (.ok device, auth) => ((next device).map fun store => ⟨some call, store⟩, auth)

/-- `if authenticated != device { return Err(FORBIDDEN); }`. -/
def ownDevice (device : Id16) (store : StoreCall) (authenticated : Id16) : Except Reply StoreCall :=
  if authenticated ≠ device then .error (.status .forbidden) else .ok store

section
variable (sha : Sha256) (ed : Ed25519) (json : Json) (auth : AuthState) (headers : HeaderMap)
  (nowMs : UInt64) (now : Nat)

/-- `enqueue`. -/
def enqueue (body : Bytes) : Except Reply Handler × AuthState :=
  authenticated sha ed auth ⟨headers, post, ascii "/v1/relay", body, nowMs, now⟩ fun device =>
    match json.message body with
    | none => .error (.status .badRequest)
    | some message =>
      if message.senderDeviceId ≠ device then .error (.status .forbidden)
      else .ok (.push message)

/-- `poll`. -/
def poll (device : Text) : Except Reply Handler × AuthState :=
  match pathId device with
  | .error reply => (.error reply, auth)
  | .ok bytes =>
    authenticated sha ed auth
      ⟨headers, get, ascii "/v1/relay/" ++ utf8 device, [], nowMs, now⟩
      (ownDevice bytes (.pull bytes))

/-- `ack`. -/
def ack (device messageId : Text) : Except Reply Handler × AuthState :=
  match pathId device with
  | .error reply => (.error reply, auth)
  | .ok deviceId =>
    match pathId messageId with
    | .error reply => (.error reply, auth)
    | .ok messageIdBytes =>
      authenticated sha ed auth
        ⟨headers, post, ascii "/v1/relay/" ++ utf8 device ++ ascii "/" ++ utf8 messageId ++
          ascii "/ack", [], nowMs, now⟩
        (ownDevice deviceId (.ack deviceId messageIdBytes))

/-- `publish_prekeys`. -/
def publishPrekeys (body : Bytes) : Except Reply Handler × AuthState :=
  authenticated sha ed auth ⟨headers, post, ascii "/v1/prekeys", body, nowMs, now⟩ fun device =>
    match json.publication body with
    | none => .error (.status .badRequest)
    | some publication =>
      if publication.bundle.deviceId ≠ device then .error (.status .forbidden)
      else .ok (.publish device publication)

/-- `get_prekeys`. -/
def getPrekeys (device : Text) : Except Reply Handler × AuthState :=
  match pathId device with
  | .error reply => (.error reply, auth)
  | .ok deviceId => (.ok ⟨none, .getActive deviceId⟩, auth)

/-- `revoke_prekeys`. -/
def revokePrekeys (device : Text) (generation : UInt64) : Except Reply Handler × AuthState :=
  match pathId device with
  | .error reply => (.error reply, auth)
  | .ok deviceId =>
    authenticated sha ed auth
      ⟨headers, post, ascii "/v1/prekeys/" ++ utf8 device ++ ascii "/" ++
        decimal generation.toNat ++ ascii "/revoke", [], nowMs, now⟩
      (ownDevice deviceId (.revoke deviceId generation))

/-- `claim_prekey`. -/
def claimPrekey (recipient : Text) (generation : UInt64) (keyId : UInt32) (body : Bytes) :
    Except Reply Handler × AuthState :=
  match pathId recipient with
  | .error reply => (.error reply, auth)
  | .ok recipientId =>
    authenticated sha ed auth
      ⟨headers, post, ascii "/v1/prekeys/" ++ utf8 recipient ++ ascii "/" ++
        decimal generation.toNat ++ ascii "/" ++ decimal keyId.toNat ++ ascii "/claim", body,
        nowMs, now⟩
      fun claimant =>
        match json.claimRequest body with
        | none => .error (.status .badRequest)
        | some request =>
          .ok (.claimOpk recipientId generation keyId claimant request.requestId)

/-- `websocket`. -/
def websocket : Except Reply Handler × AuthState :=
  authenticated sha ed auth ⟨headers, get, ascii "/v1/ws", [], nowMs, now⟩ fun device =>
    .ok (.upgrade device)

end

/-- The router. -/
def dispatch (sha : Sha256) (ed : Ed25519) (json : Json) (auth : AuthState) (r : HttpRequest) :
    Except Reply Handler × AuthState :=
  match r.route with
  | .enqueue body => enqueue sha ed json auth r.headers r.nowMs r.now body
  | .poll device => poll sha ed auth r.headers r.nowMs r.now device
  | .ack device messageId => ack sha ed auth r.headers r.nowMs r.now device messageId
  | .publishPrekeys body => publishPrekeys sha ed json auth r.headers r.nowMs r.now body
  | .getPrekeys device => getPrekeys auth device
  | .revokePrekeys device generation =>
    revokePrekeys sha ed auth r.headers r.nowMs r.now device generation
  | .claimPrekey recipient generation keyId body =>
    claimPrekey sha ed json auth r.headers r.nowMs r.now recipient generation keyId body
  | .websocket => websocket sha ed auth r.headers r.nowMs r.now

/-! ### The second part of a handler -/

/-- What a store answers to a handler. -/
inductive StoreAnswer
  | pushed (result : PushResult)
  | pulled (messages : List EncryptedMessage)
  | acked (removed : Bool)
  | published (result : Except PublicationError Unit)
  | active (publication : Option PreKeyPublication)
  | revoked (result : Except PublicationError Unit)
  | claimed (result : Except PublicationError OpkClaim)
  | upgraded

/-- The last lines of the handlers. -/
def StoreAnswer.reply : StoreAnswer → Reply
  | .pushed .accepted => .status .accepted
  | .pushed .duplicate => .status .conflict
  | .pushed .invalid => .status .badRequest
  | .pushed .full => .status .tooManyRequests
  | .pulled messages => .messages messages
  | .acked removed => .status (if removed then .noContent else .notFound)
  | .published (.ok ()) => .status .accepted
  | .published (.error e) => .status (publicationStatus e)
  | .active (some publication) => .publication publication
  | .active none => .status .notFound
  | .revoked (.ok ()) => .status .noContent
  | .revoked (.error e) => .status (publicationStatus e)
  | .claimed (.ok claim) => .claim claim
  | .claimed (.error e) => .status (publicationStatus e)
  | .upgraded => .status .switchingProtocols

/-- `AppState`, with the tasks that work on it: the sessions and their sockets in `wire`, and the
    handlers between their two parts. -/
structure ServerState where
  auth : AuthState
  wire : WireState
  prekeys : PreKeyRegistry
  handlers : List Handler

namespace ServerState

/-- The server when `main` starts to serve. -/
def start : ServerState :=
  ⟨AuthState.empty, ⟨GatewayState.start, fun _ => []⟩, PreKeyRegistry.empty, []⟩

def setGateway (s : ServerState) (gateway : GatewayState) : ServerState :=
  { s with wire := { s.wire with gateway } }

/-- The call of a handler on its store, at a clock reading.  With an accepted message `enqueue`
    goes on to await the `try_send`. -/
def serve (s : ServerState) (ed : Ed25519) (store : StoreCall) (nowMs : UInt64) :
    StoreAnswer × ServerState :=
  match store with
  | .push message =>
    let (result, gateway) := s.wire.gateway.push message nowMs none
    (.pushed result, s.setGateway gateway)
  | .pull device =>
    let (messages, relay) := s.wire.gateway.relay.pull device nowMs
    (.pulled messages, s.setGateway { s.wire.gateway with relay })
  | .ack device messageId =>
    let (removed, relay) := s.wire.gateway.relay.ack device messageId
    (.acked removed, s.setGateway { s.wire.gateway with relay })
  | .publish device publication =>
    let (result, prekeys) := s.prekeys.publish ed device publication nowMs
    (.published result, { s with prekeys })
  | .getActive device => (.active (s.prekeys.getActive device nowMs), s)
  | .revoke device generation =>
    let (result, prekeys) := s.prekeys.revoke device generation nowMs
    (.revoked result, { s with prekeys })
  | .claimOpk recipient generation keyId claimant requestId =>
    let (result, prekeys) :=
      s.prekeys.claimOpk ⟨recipient, generation, keyId, claimant, requestId, nowMs⟩
    (.claimed result, { s with prekeys })
  | .upgrade device =>
    (.upgraded, s.setGateway { s.wire.gateway with
      sessions := s.wire.gateway.sessions ++ [⟨device, .upgraded, [], [], []⟩] })

end ServerState

/-! ### The server as a machine -/

inductive ServerEvent
  /-- a request comes in -/
  | request (r : HttpRequest)
  /-- a handler that was admitted makes its call -/
  | serve (handler : Nat) (nowMs : UInt64)
  /-- the `try_send` that a task awaits -/
  | route (task : Nat)
  /-- a step of a websocket session -/
  | session (k : Nat) (input : WireInput)
deriving DecidableEq, Repr

inductive ServerAnswer
  | refused (reply : Reply)
  | admitted (handler : Handler)
  | served (handler : Handler) (answer : StoreAnswer)
  | moved (effect : Effect)
  | idle

/-- The server as a machine. -/
def serverStep (sha : Sha256) (ed : Ed25519) (json : Json) (s : ServerState) :
    ServerEvent → ServerAnswer × ServerState
  | .request r =>
    match dispatch sha ed json s.auth r with
    | (.error reply, auth) => (.refused reply, { s with auth })
    | (.ok handler, auth) =>
      (.admitted handler, { s with auth, handlers := s.handlers ++ [handler] })
  | .serve i nowMs =>
    match s.handlers[i]? with
    | none => (.idle, s)
    | some handler =>
      let (answer, s) :=
        { s with handlers := s.handlers.eraseIdx i }.serve ed handler.store nowMs
      (.served handler answer, s)
  | .route i =>
    match s.wire.gateway.tasks[i]? with
    | none => (.idle, s)
    | some task =>
      let (effect, gateway) := s.wire.gateway.route i task
      (.moved effect, s.setGateway gateway)
  | .session k input =>
    match s.wire.gateway.sessions[k]? with
    | none => (.idle, s)
    | some session =>
      let (effect, wire) := s.wire.sessionStep k session input
      (.moved effect, { s with wire })

end NexaMessenger.Gateway
