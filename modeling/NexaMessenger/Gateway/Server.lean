import NexaMessenger.Gateway.Handlers

namespace NexaMessenger.Gateway

open Lib Relay Auth
open PathIds (hexTo16)

/-!
# Gateway — the server is made of its parts

What a handler asks for is spelled in its request (`Spells`), and the handler is admitted only if
the request is authenticated as the device in whose name the call is made (`dispatch_admits`).
What becomes of a request follows from the request and the answer of `authenticate` alone
(`dispatch_outcome`).

The server then runs three machines, whatever its tasks do in whatever order: `authStep` on the
`authenticate` calls of its requests, `registryStep` on the calls of its handlers that are about
prekeys, and `gatewayStep` on those about messages, on the tasks and on what its sessions hear
(`server_refines`).  So all that is known of the runs of the three holds in the runs of the server.
Its answers are those of the three, and a client is told of success exactly if there was one.
-/

/-! ### What a request asks for -/

/-- The `authenticate` call of the handler of a request, unless it needs none or does not come to
    it. -/
def HttpRequest.call (r : HttpRequest) : Option AuthCall :=
  let call (method path body : Bytes) : AuthCall := ⟨r.headers, method, path, body, r.nowMs, r.now⟩
  match r.route with
  | .enqueue body => some (call post (ascii "/v1/relay") body)
  | .poll device =>
    (hexTo16 device).toOption.map fun _ => call get (ascii "/v1/relay/" ++ utf8 device) []
  | .ack device messageId =>
    (hexTo16 device).toOption.bind fun _ => (hexTo16 messageId).toOption.map fun _ =>
      call post (ascii "/v1/relay/" ++ utf8 device ++ ascii "/" ++ utf8 messageId ++
        ascii "/ack") []
  | .publishPrekeys body => some (call post (ascii "/v1/prekeys") body)
  | .getPrekeys _ => none
  | .revokePrekeys device generation =>
    (hexTo16 device).toOption.map fun _ =>
      call post (ascii "/v1/prekeys/" ++ utf8 device ++ ascii "/" ++
        decimal generation.toNat ++ ascii "/revoke") []
  | .claimPrekey recipient generation keyId body =>
    (hexTo16 recipient).toOption.map fun _ =>
      call post (ascii "/v1/prekeys/" ++ utf8 recipient ++ ascii "/" ++
        decimal generation.toNat ++ ascii "/" ++ decimal keyId.toNat ++ ascii "/claim") body
  | .websocket => some (call get (ascii "/v1/ws") [])

/-- The device in whose name a call is made; everybody may read publications. -/
def StoreCall.caller : StoreCall → Option Id16
  | .push message => some message.senderDeviceId
  | .pull device => some device
  | .ack device _ => some device
  | .publish device _ => some device
  | .getActive _ => none
  | .revoke device _ => some device
  | .claimOpk _ _ _ claimant _ => some claimant
  | .upgrade device => some device

/-- The identifiers in the path of a route. -/
def Route.ids : Route → List Text
  | .poll device | .getPrekeys device | .revokePrekeys device _ => [device]
  | .ack device messageId => [device, messageId]
  | .claimPrekey recipient _ _ _ => [recipient]
  | .enqueue _ | .publishPrekeys _ | .websocket => []

/-- The call that a route asks for, with these identifiers in its path, on behalf of the caller;
    none if its body cannot be read. -/
def Route.asks (json : Json) : Route → List Id16 → Option Id16 → Option StoreCall
  | .enqueue body, _, _ => (json.message body).map .push
  | .poll _, [device], _ => some (.pull device)
  | .ack _ _, [device, messageId], _ => some (.ack device messageId)
  | .publishPrekeys body, _, _ => (json.publication body).map fun p => .publish p.bundle.deviceId p
  | .getPrekeys _, [device], _ => some (.getActive device)
  | .revokePrekeys _ generation, [device], _ => some (.revoke device generation)
  | .claimPrekey _ generation keyId body, [recipient], some claimant =>
    (json.claimRequest body).map fun request =>
      .claimOpk recipient generation keyId claimant request.requestId
  | .websocket, _, some device => some (.upgrade device)
  | _, _, _ => none

/-- A caller gets the call that it asks for only if the call is made in its own name. -/
def Route.grants (json : Json) (route : Route) (ids : List Id16) (caller : Option Id16) :
    Except Reply StoreCall :=
  match route.asks json ids caller with
  | none => .error (.status .badRequest)
  | some store => if store.caller = caller then .ok store else .error (.status .forbidden)

/-- What becomes of a request, given what its `authenticate` call is answered, if it makes one: it
    is refused for an identifier in its path, then for want of authentication, then for its body,
    then for making a call in the name of another; else its handler is admitted. -/
def HttpRequest.outcome (json : Json) (r : HttpRequest) (answer : Option (Except AuthError Id16)) :
    Except Reply Handler :=
  match r.route.ids.mapM pathId, answer with
  | .error reply, _ => .error reply
  | .ok _, some (.error e) => .error (.status (authStatus e))
  | .ok ids, some (.ok device) =>
    (r.route.grants json ids (some device)).map fun store => ⟨r.call, store⟩
  | .ok ids, none => (r.route.grants json ids none).map fun store => ⟨r.call, store⟩

/-- A request with this method, path and body asks for the call. -/
inductive Spells (json : Json) : Bytes → Bytes → Bytes → StoreCall → Prop
  | push {body : Bytes} {message : EncryptedMessage} (hbody : json.message body = some message) :
      Spells json post (ascii "/v1/relay") body (.push message)
  | pull {device : Text} {id : Id16} (hdevice : hexTo16 device = .ok id) :
      Spells json get (ascii "/v1/relay/" ++ utf8 device) [] (.pull id)
  | ack {device messageId : Text} {id mid : Id16} (hdevice : hexTo16 device = .ok id)
      (hmessage : hexTo16 messageId = .ok mid) :
      Spells json post (ascii "/v1/relay/" ++ utf8 device ++ ascii "/" ++ utf8 messageId ++
        ascii "/ack") [] (.ack id mid)
  | publish {body : Bytes} {p : PreKeyPublication} (hbody : json.publication body = some p) :
      Spells json post (ascii "/v1/prekeys") body (.publish p.bundle.deviceId p)
  | revoke {device : Text} {id : Id16} (hdevice : hexTo16 device = .ok id)
      (generation : UInt64) :
      Spells json post (ascii "/v1/prekeys/" ++ utf8 device ++ ascii "/" ++
        decimal generation.toNat ++ ascii "/revoke") [] (.revoke id generation)
  | claim {recipient : Text} {id : Id16} {body : Bytes} {request : OpkClaimRequest}
      (hrecipient : hexTo16 recipient = .ok id) (generation : UInt64) (keyId : UInt32)
      (hbody : json.claimRequest body = some request) (claimant : Id16) :
      Spells json post (ascii "/v1/prekeys/" ++ utf8 recipient ++ ascii "/" ++
        decimal generation.toNat ++ ascii "/" ++ decimal keyId.toNat ++ ascii "/claim") body
        (.claimOpk id generation keyId claimant request.requestId)
  | upgrade (device : Id16) : Spells json get (ascii "/v1/ws") [] (.upgrade device)

/-- What an admitted handler has behind it: a call that asks for what it does and that was answered
    with the device in whose name it does it; or it reads a publication. -/
def Entitled (sha : Sha256) (ed : Ed25519) (json : Json) (auth : AuthState) (handler : Handler) :
    Prop :=
  match handler.call with
  | some call => ∃ device, (authStep sha ed auth call).1 = .ok device ∧
      handler.store.caller = some device ∧
      Spells json call.method call.path call.body handler.store
  | none => ∃ device, handler.store = .getActive device

/-- What the first part of a handler does: the one call of `authenticate` if it comes to it, and
    nothing else; and an admitted handler is entitled to what it is about to do. -/
structure Admits (sha : Sha256) (ed : Ed25519) (json : Json) (auth : AuthState)
    (call : Option AuthCall) (result : Except Reply Handler × AuthState) : Prop where
  state : result.2 = after (authStep sha ed) auth call.toList
  handler : ∀ handler, result.1 = .ok handler →
    handler.call = call ∧ Entitled sha ed json auth handler

section
variable {sha : Sha256} {ed : Ed25519} {json : Json} {auth : AuthState}

/-- A handler that is refused before it authenticates the request. -/
theorem Admits.early (reply : Reply) : Admits sha ed json auth none (.error reply, auth) where
  state := rfl
  handler := by
    intro _ h
    cases h

theorem authenticated_admits {call : AuthCall} {next : Id16 → Except Reply StoreCall}
    (hnext : ∀ device store, next device = .ok store → store.caller = some device ∧
      Spells json call.method call.path call.body store) :
    Admits sha ed json auth (some call) (authenticated sha ed auth call next) := by
  have hstep : authStep sha ed auth call = auth.authenticate sha ed call := rfl
  unfold authenticated
  rcases hauth : auth.authenticate sha ed call with ⟨answer, auth'⟩
  rw [hauth] at hstep
  have hstate : auth' = after (authStep sha ed) auth [call] := (congrArg Prod.snd hstep).symm
  cases answer with
  | error e => exact ⟨hstate, fun handler h => by cases h⟩
  | ok device =>
    refine ⟨hstate, fun handler h => ?_⟩
    dsimp only at h
    cases hstore : next device with
    | error reply =>
      rw [hstore] at h
      cases h
    | ok store =>
      rw [hstore] at h
      obtain rfl := Except.ok.inj h
      obtain ⟨hcaller, hspells⟩ := hnext device store hstore
      exact ⟨rfl, device, by rw [hstep], hcaller, hspells⟩

theorem ownDevice_ok {device d : Id16} {store store' : StoreCall}
    (hcaller : store.caller = some device) (h : ownDevice device store d = .ok store') :
    store'.caller = some d ∧ store' = store := by
  unfold ownDevice at h
  split at h
  · exact absurd h (by simp)
  · rename_i hsame
    obtain rfl := Except.ok.inj h
    exact ⟨by rw [hcaller, not_not.mp hsame], rfl⟩

theorem pathId_cases (text : Text) :
    (∃ id, hexTo16 text = .ok id ∧ pathId text = .ok id) ∨
      ((hexTo16 text).toOption = none ∧ ∃ reply, pathId text = .error reply) := by
  unfold pathId
  rcases hexTo16 text with (_ | _) | id
  · exact .inr ⟨rfl, _, rfl⟩
  · exact .inr ⟨rfl, _, rfl⟩
  · exact .inl ⟨id, rfl, rfl⟩

/-- **Handlers.** Each makes the call that its request asks for, in the name of the device that the
    request was authenticated as. -/
theorem dispatch_admits (sha : Sha256) (ed : Ed25519) (json : Json) (auth : AuthState)
    (r : HttpRequest) : Admits sha ed json auth r.call (dispatch sha ed json auth r) := by
  obtain ⟨headers, route, nowMs, now⟩ := r
  cases route with
  | enqueue body =>
    refine authenticated_admits fun device store hstore => ?_
    split at hstore
    · cases hstore
    · rename_i message hbody
      split at hstore
      · cases hstore
      · rename_i hsender
        obtain rfl := Except.ok.inj hstore
        exact ⟨congrArg some (not_not.mp hsender), .push hbody⟩
  | poll device =>
    unfold dispatch poll HttpRequest.call
    dsimp only
    obtain ⟨id, hid, hpath⟩ | ⟨hid, reply, hpath⟩ := pathId_cases device
    · rw [hpath, hid]
      refine authenticated_admits fun d store hstore => ?_
      obtain ⟨hcaller, rfl⟩ := ownDevice_ok rfl hstore
      exact ⟨hcaller, .pull hid⟩
    · rw [hpath, hid]
      exact Admits.early reply
  | ack device messageId =>
    unfold dispatch ack HttpRequest.call
    dsimp only
    obtain ⟨id, hid, hpath⟩ | ⟨hid, reply, hpath⟩ := pathId_cases device
    · obtain ⟨mid, hmid, hpath'⟩ | ⟨hmid, reply, hpath'⟩ := pathId_cases messageId
      · rw [hpath, hid, hpath', hmid]
        refine authenticated_admits fun d store hstore => ?_
        obtain ⟨hcaller, rfl⟩ := ownDevice_ok rfl hstore
        exact ⟨hcaller, .ack hid hmid⟩
      · rw [hpath, hid, hpath', hmid]
        exact Admits.early reply
    · rw [hpath, hid]
      exact Admits.early reply
  | publishPrekeys body =>
    refine authenticated_admits fun device store hstore => ?_
    split at hstore
    · cases hstore
    · rename_i p hbody
      split at hstore
      · cases hstore
      · rename_i hdevice
        obtain rfl := Except.ok.inj hstore
        obtain rfl := not_not.mp hdevice
        exact ⟨rfl, .publish hbody⟩
  | getPrekeys device =>
    unfold dispatch getPrekeys HttpRequest.call
    dsimp only
    obtain ⟨id, hid, hpath⟩ | ⟨hid, reply, hpath⟩ := pathId_cases device
    · rw [hpath]
      refine ⟨rfl, fun handler h => ?_⟩
      obtain rfl := Except.ok.inj h
      exact ⟨rfl, id, rfl⟩
    · rw [hpath]
      exact Admits.early reply
  | revokePrekeys device generation =>
    unfold dispatch revokePrekeys HttpRequest.call
    dsimp only
    obtain ⟨id, hid, hpath⟩ | ⟨hid, reply, hpath⟩ := pathId_cases device
    · rw [hpath, hid]
      refine authenticated_admits fun d store hstore => ?_
      obtain ⟨hcaller, rfl⟩ := ownDevice_ok rfl hstore
      exact ⟨hcaller, .revoke hid generation⟩
    · rw [hpath, hid]
      exact Admits.early reply
  | claimPrekey recipient generation keyId body =>
    unfold dispatch claimPrekey HttpRequest.call
    dsimp only
    obtain ⟨id, hid, hpath⟩ | ⟨hid, reply, hpath⟩ := pathId_cases recipient
    · rw [hpath, hid]
      refine authenticated_admits fun claimant store hstore => ?_
      split at hstore
      · cases hstore
      · rename_i request hbody
        obtain rfl := Except.ok.inj hstore
        exact ⟨rfl, .claim hid generation keyId hbody claimant⟩
    · rw [hpath, hid]
      exact Admits.early reply
  | websocket =>
    refine authenticated_admits fun device store hstore => ?_
    obtain rfl := Except.ok.inj hstore
    exact ⟨rfl, .upgrade device⟩

theorem pathIds_nil : ([] : List Text).mapM pathId = .ok [] := rfl

theorem pathIds_cons {text : Text} {id : Id16} (h : pathId text = .ok id) {texts : List Text}
    {ids : List Id16} (hids : texts.mapM pathId = .ok ids) :
    (text :: texts).mapM pathId = .ok (id :: ids) := by
  rw [List.mapM_cons, h, hids]
  rfl

theorem pathIds_head {text : Text} {reply : Reply} (h : pathId text = .error reply)
    (texts : List Text) : (text :: texts).mapM pathId = .error reply := by
  rw [List.mapM_cons, h]
  rfl

theorem pathIds_tail {text : Text} {id : Id16} (h : pathId text = .ok id) {texts : List Text}
    {reply : Reply} (hids : texts.mapM pathId = .error reply) :
    (text :: texts).mapM pathId = .error reply := by
  rw [List.mapM_cons, h, hids]
  rfl

/-- A handler whose last checks are those of `Route.grants` ends as its request says. -/
theorem authenticated_outcome {r : HttpRequest} {call : AuthCall}
    {next : Id16 → Except Reply StoreCall} {ids : List Id16} (hcall : r.call = some call)
    (hids : r.route.ids.mapM pathId = .ok ids)
    (hnext : ∀ device, next device = r.route.grants json ids (some device)) :
    (authenticated sha ed auth call next).1 =
      r.outcome json (r.call.map fun call => (authStep sha ed auth call).1) := by
  have hstep : authStep sha ed auth call = auth.authenticate sha ed call := rfl
  unfold authenticated HttpRequest.outcome
  rw [hids, hcall, Option.map_some, hstep]
  rcases auth.authenticate sha ed call with ⟨e | device, auth'⟩
  · rfl
  · dsimp only
    rw [hnext device]

/-- A request with an identifier that cannot be read is refused for nothing else. -/
theorem outcome_of_pathIds {r : HttpRequest} {reply : Reply}
    (hids : r.route.ids.mapM pathId = .error reply) (answer : Option (Except AuthError Id16)) :
    .error reply = r.outcome json answer := by
  unfold HttpRequest.outcome
  rw [hids]

theorem grants_none {route : Route} {ids : List Id16} {caller : Option Id16}
    (h : route.asks json ids caller = none) :
    route.grants json ids caller = .error (.status .badRequest) := by
  unfold Route.grants
  rw [h]

theorem grants_some {route : Route} {ids : List Id16} {caller : Option Id16} {store : StoreCall}
    (h : route.asks json ids caller = some store) :
    route.grants json ids caller =
      if store.caller = caller then .ok store else .error (.status .forbidden) := by
  unfold Route.grants
  rw [h]

/-- The check of the handlers against the device of the request. -/
theorem ownDevice_grants {device : Id16} {store : StoreCall} {route : Route} {ids : List Id16}
    (hcaller : store.caller = some device)
    (hasks : ∀ d, route.asks json ids (some d) = some store) (d : Id16) :
    ownDevice device store d = route.grants json ids (some d) := by
  rw [grants_some (hasks d), hcaller]
  unfold ownDevice
  by_cases hsame : d = device
  · rw [if_neg (not_not.mpr hsame), if_pos (congrArg some hsame.symm)]
  · rw [if_pos hsame, if_neg fun h => hsame (Option.some.inj h).symm]

/-- **Requests.** Whether a handler is admitted, and how it is refused, follows from its request and
    the answer of `authenticate`. -/
theorem dispatch_outcome (sha : Sha256) (ed : Ed25519) (json : Json) (auth : AuthState)
    (r : HttpRequest) :
    (dispatch sha ed json auth r).1 =
      r.outcome json (r.call.map fun call => (authStep sha ed auth call).1) := by
  obtain ⟨headers, route, nowMs, now⟩ := r
  cases route with
  | enqueue body =>
    refine authenticated_outcome rfl pathIds_nil fun device => ?_
    have hasks : Route.asks json (.enqueue body) [] (some device) =
        (json.message body).map .push := rfl
    cases hbody : json.message body with
    | none => exact (grants_none (by rw [hasks, hbody]; rfl)).symm
    | some message =>
      rw [grants_some (by rw [hasks, hbody]; rfl)]
      by_cases hsender : message.senderDeviceId = device <;> simp [StoreCall.caller, hsender]
  | poll device =>
    unfold dispatch poll
    dsimp only
    obtain ⟨id, hid, hpath⟩ | ⟨hid, reply, hpath⟩ := pathId_cases device
    · rw [hpath]
      exact authenticated_outcome (by simp [HttpRequest.call, hid, Except.toOption])
        (pathIds_cons hpath pathIds_nil) (ownDevice_grants rfl fun _ => rfl)
    · rw [hpath]
      refine outcome_of_pathIds ?_ _
      exact pathIds_head hpath _
  | ack device messageId =>
    unfold dispatch ack
    dsimp only
    obtain ⟨id, hid, hpath⟩ | ⟨hid, reply, hpath⟩ := pathId_cases device
    · obtain ⟨mid, hmid, hpath'⟩ | ⟨hmid, reply, hpath'⟩ := pathId_cases messageId
      · rw [hpath, hpath']
        exact authenticated_outcome (by simp [HttpRequest.call, hid, hmid, Except.toOption])
          (pathIds_cons hpath (pathIds_cons hpath' pathIds_nil))
          (ownDevice_grants rfl fun _ => rfl)
      · rw [hpath, hpath']
        refine outcome_of_pathIds ?_ _
        exact pathIds_tail hpath (pathIds_head hpath' _)
    · rw [hpath]
      refine outcome_of_pathIds ?_ _
      exact pathIds_head hpath _
  | publishPrekeys body =>
    refine authenticated_outcome rfl pathIds_nil fun device => ?_
    have hasks : Route.asks json (.publishPrekeys body) [] (some device) =
        (json.publication body).map fun p => .publish p.bundle.deviceId p := rfl
    cases hbody : json.publication body with
    | none => exact (grants_none (by rw [hasks, hbody]; rfl)).symm
    | some p =>
      rw [grants_some (by rw [hasks, hbody]; rfl)]
      by_cases hdevice : p.bundle.deviceId = device <;> simp [StoreCall.caller, hdevice]
  | getPrekeys device =>
    unfold dispatch getPrekeys
    dsimp only
    obtain ⟨id, hid, hpath⟩ | ⟨hid, reply, hpath⟩ := pathId_cases device
    · have hids : (Route.getPrekeys device).ids.mapM pathId = .ok [id] :=
        pathIds_cons hpath pathIds_nil
      unfold HttpRequest.outcome
      rw [hpath, hids]
      rfl
    · rw [hpath]
      refine outcome_of_pathIds ?_ _
      exact pathIds_head hpath _
  | revokePrekeys device generation =>
    unfold dispatch revokePrekeys
    dsimp only
    obtain ⟨id, hid, hpath⟩ | ⟨hid, reply, hpath⟩ := pathId_cases device
    · rw [hpath]
      exact authenticated_outcome (by simp [HttpRequest.call, hid, Except.toOption])
        (pathIds_cons hpath pathIds_nil) (ownDevice_grants rfl fun _ => rfl)
    · rw [hpath]
      refine outcome_of_pathIds ?_ _
      exact pathIds_head hpath _
  | claimPrekey recipient generation keyId body =>
    unfold dispatch claimPrekey
    dsimp only
    obtain ⟨id, hid, hpath⟩ | ⟨hid, reply, hpath⟩ := pathId_cases recipient
    · rw [hpath]
      refine authenticated_outcome (by simp [HttpRequest.call, hid, Except.toOption])
        (pathIds_cons hpath pathIds_nil) fun claimant => ?_
      have hasks : Route.asks json (.claimPrekey recipient generation keyId body) [id]
          (some claimant) = (json.claimRequest body).map fun request =>
            .claimOpk id generation keyId claimant request.requestId := rfl
      cases hbody : json.claimRequest body with
      | none => exact (grants_none (by rw [hasks, hbody]; rfl)).symm
      | some request =>
        rw [grants_some (by rw [hasks, hbody]; rfl)]
        exact (if_pos rfl).symm
    · rw [hpath]
      refine outcome_of_pathIds ?_ _
      exact pathIds_head hpath _
  | websocket =>
    exact authenticated_outcome rfl pathIds_nil fun device => (if_pos rfl).symm

end

/-! ### The calls on the three parts -/

/-- The call of a handler, as an event of the gateway. -/
def StoreCall.event (nowMs : UInt64) : StoreCall → Option Event
  | .push message => some (.enqueue message.senderDeviceId message nowMs)
  | .pull device => some (.poll device device nowMs)
  | .ack device messageId => some (.ack device device messageId)
  | .upgrade device => some (.upgrade device)
  | .publish .. | .getActive _ | .revoke .. | .claimOpk .. => none

/-- The call of a handler on the registry of prekeys. -/
def StoreCall.op (nowMs : UInt64) : StoreCall → Option RegistryOp
  | .publish device publication => some (.publish device publication nowMs)
  | .getActive device => some (.getActive device nowMs)
  | .revoke device generation => some (.revoke device generation nowMs)
  | .claimOpk recipient generation keyId claimant requestId =>
    some (.claimOpk ⟨recipient, generation, keyId, claimant, requestId, nowMs⟩)
  | .push _ | .pull _ | .ack .. | .upgrade _ => none

/-- The `authenticate` calls of an event. -/
def authCalls (_ : ServerState) : ServerEvent → List AuthCall
  | .request r => r.call.toList
  | .serve .. | .route _ | .session .. => []

/-- What an event is to the gateway without bytes. -/
def gatewayEvents (s : ServerState) : ServerEvent → List Event
  | .request _ => []
  | .serve i nowMs => (s.handlers[i]?.bind fun handler => handler.store.event nowMs).toList
  | .route i => (s.wire.gateway.tasks[i]?.map fun _ => .route i).toList
  | .session k input =>
    (s.wire.gateway.sessions[k]?.map fun session => .session k (heard session input)).toList

/-- What an event is to the registry of prekeys. -/
def registryOps (s : ServerState) : ServerEvent → List RegistryOp
  | .serve i nowMs => (s.handlers[i]?.bind fun handler => handler.store.op nowMs).toList
  | .request _ | .route _ | .session .. => []

/-- What the gateway answered, as the server tells it. -/
def StoreAnswer.effect (nowMs : UInt64) : StoreCall → StoreAnswer → Option Effect
  | .push message, .pushed result => some (.relay (.push message nowMs) (.pushed result))
  | .pull device, .pulled messages => some (.relay (.pull device nowMs) (.pulled messages))
  | .ack device messageId, .acked removed =>
    some (.relay (.ack device messageId) (.acked removed))
  | .upgrade _, .upgraded => some .quiet
  | _, _ => none

def gatewayAnswers : ServerEvent → ServerAnswer → List Effect
  | .serve _ nowMs, .served handler answer => (answer.effect nowMs handler.store).toList
  | _, .moved effect => [effect]
  | _, _ => []

/-- What the registry answered, as the server tells it. -/
def StoreAnswer.registry : StoreAnswer → Option RegistryAnswer
  | .published result => some (.published result)
  | .active publication => some (.active publication)
  | .revoked result => some (.revoked result)
  | .claimed result => some (.claimed result)
  | .pushed _ | .pulled _ | .acked _ | .upgraded => none

def registryAnswers : ServerAnswer → List RegistryAnswer
  | .served _ answer => answer.registry.toList
  | _ => []

/-- What a handler is told by the gateway.  A session that is started says nothing yet. -/
def Effect.told : Effect → Option StoreAnswer
  | .relay _ (.pushed result) => some (.pushed result)
  | .relay _ (.pulled messages) => some (.pulled messages)
  | .relay _ (.acked removed) => some (.acked removed)
  | .quiet => some .upgraded
  | .forbidden | .routed _ => none

/-- What a handler is told by the registry. -/
def RegistryAnswer.told : RegistryAnswer → StoreAnswer
  | .published result => .published result
  | .active publication => .active publication
  | .revoked result => .revoked result
  | .claimed result => .claimed result

/-- The answer of the server to an event, given what the three parts answer to their calls. -/
def partsAnswer (json : Json) (handlers : List Handler) (e : ServerEvent)
    (auth : List (Except AuthError Id16)) (gateway : List Effect)
    (registry : List RegistryAnswer) : ServerAnswer :=
  match e with
  | .request r =>
    match r.outcome json auth.head? with
    | .error reply => .refused reply
    | .ok handler => .admitted handler
  | .serve i _ =>
    match handlers[i]?, (gateway.filterMap Effect.told ++ registry.map RegistryAnswer.told).head?
      with
    | some handler, some answer => .served handler answer
    | _, _ => .idle
  | .route _ | .session .. =>
    match gateway.head? with
    | some effect => .moved effect
    | none => .idle

/-! ### What a client is told -/

/-- The reply that goes out with an answer; an admitted request gets its reply when it is served. -/
def ServerAnswer.reply : ServerAnswer → Option Reply
  | .refused reply => some reply
  | .served _ answer => some answer.reply
  | .admitted _ | .moved _ | .idle => none

/-- `StatusCode::is_success`, or the switch to the protocol of the session. -/
def StatusCode.success : StatusCode → Bool
  | .ok | .switchingProtocols | .accepted | .noContent => true
  | .badRequest | .unauthorized | .forbidden | .notFound | .conflict | .tooManyRequests
  | .internalServerError => false

/-- The store did what it was asked for. -/
def StoreAnswer.granted : StoreAnswer → Bool
  | .pushed result => result = .accepted
  | .pulled _ | .upgraded => true
  | .acked removed => removed
  | .published result | .revoked result => result.isOk
  | .active publication => publication.isSome
  | .claimed result => result.isOk

theorem publicationStatus_not_success (e : PublicationError) :
    (publicationStatus e).success = false := by
  cases e <;> rfl

/-- The status code of a handler says whether its call was granted. -/
theorem StoreAnswer.reply_success (answer : StoreAnswer) :
    answer.reply.code.any StatusCode.success = answer.granted := by
  cases answer with
  | pushed result => cases result <;> rfl
  | pulled messages => rfl
  | acked removed => cases removed <;> rfl
  | published result =>
    cases result with
    | error e => exact publicationStatus_not_success e
    | ok u => rfl
  | active publication => cases publication <;> rfl
  | revoked result =>
    cases result with
    | error e => exact publicationStatus_not_success e
    | ok u => rfl
  | claimed result =>
    cases result with
    | error e => exact publicationStatus_not_success e
    | ok claim => rfl
  | upgraded => rfl

theorem pathId_not_success {text : Text} {reply : Reply} (h : pathId text = .error reply) :
    reply.code.any StatusCode.success = false := by
  unfold pathId at h
  split at h
  · cases h
  · obtain rfl := Except.error.inj h
    rfl
  · obtain rfl := Except.error.inj h
    rfl

theorem pathIds_not_success {texts : List Text} {reply : Reply}
    (h : texts.mapM pathId = .error reply) : reply.code.any StatusCode.success = false := by
  induction texts with
  | nil => cases h
  | cons text texts ih =>
    cases hpath : pathId text with
    | error reply' =>
      rw [pathIds_head hpath texts] at h
      obtain rfl := Except.error.inj h
      exact pathId_not_success hpath
    | ok id =>
      cases hids : texts.mapM pathId with
      | error reply' =>
        rw [pathIds_tail hpath hids] at h
        obtain rfl := Except.error.inj h
        exact ih hids
      | ok ids =>
        rw [pathIds_cons hpath hids] at h
        cases h

theorem grants_not_success {json : Json} {route : Route} {ids : List Id16} {caller : Option Id16}
    {reply : Reply} (h : route.grants json ids caller = .error reply) :
    reply.code.any StatusCode.success = false := by
  unfold Route.grants at h
  split at h
  · obtain rfl := Except.error.inj h
    rfl
  · split at h
    · cases h
    · obtain rfl := Except.error.inj h
      rfl

/-- A refusal is never told as a success. -/
theorem outcome_not_success {json : Json} {r : HttpRequest}
    {answer : Option (Except AuthError Id16)} {reply : Reply}
    (h : r.outcome json answer = .error reply) : reply.code.any StatusCode.success = false := by
  have hgrants : ∀ {ids : List Id16} {caller : Option Id16},
      (r.route.grants json ids caller).map (fun store => Handler.mk r.call store) =
        .error reply → reply.code.any StatusCode.success = false := by
    intro ids caller h
    cases hgrants : r.route.grants json ids caller with
    | error reply' =>
      rw [hgrants] at h
      obtain rfl := Except.error.inj h
      exact grants_not_success hgrants
    | ok store =>
      rw [hgrants] at h
      cases h
  unfold HttpRequest.outcome at h
  split at h
  · rename_i hids
    obtain rfl := Except.error.inj h
    exact pathIds_not_success hids
  · rename_i e _
    obtain rfl := Except.error.inj h
    cases e <;> rfl
  · exact hgrants h
  · exact hgrants h

section
variable {sha : Sha256} {ed : Ed25519} {json : Json} {s : ServerState}

/-- A request moves the `AuthState`, and may add a handler. -/
theorem serverStep_request (sha : Sha256) (ed : Ed25519) (json : Json) (s : ServerState)
    (r : HttpRequest) :
    (∃ reply, (dispatch sha ed json s.auth r).1 = .error reply ∧
      serverStep sha ed json s (.request r) =
        (.refused reply, { s with auth := (dispatch sha ed json s.auth r).2 })) ∨
    (∃ handler, (dispatch sha ed json s.auth r).1 = .ok handler ∧
      serverStep sha ed json s (.request r) =
        (.admitted handler, { s with
          auth := (dispatch sha ed json s.auth r).2, handlers := s.handlers ++ [handler] })) := by
  rcases hadmit : dispatch sha ed json s.auth r with ⟨reply | handler, auth⟩
  · exact .inl ⟨reply, rfl, by simp only [serverStep, hadmit]⟩
  · exact .inr ⟨handler, rfl, by simp only [serverStep, hadmit]⟩

/-- A handler makes its call, and is gone. -/
theorem serverStep_serve (sha : Sha256) (ed : Ed25519) (json : Json) (s : ServerState) (i : Nat)
    (nowMs : UInt64) :
    (s.handlers[i]? = none ∧ serverStep sha ed json s (.serve i nowMs) = (.idle, s)) ∨
    (∃ handler, s.handlers[i]? = some handler ∧ serverStep sha ed json s (.serve i nowMs) =
      (.served handler
        ({ s with handlers := s.handlers.eraseIdx i }.serve ed handler.store nowMs).1,
        ({ s with handlers := s.handlers.eraseIdx i }.serve ed handler.store nowMs).2)) := by
  cases hhandler : s.handlers[i]? with
  | none => exact .inl ⟨rfl, by simp only [serverStep, hhandler]⟩
  | some handler => exact .inr ⟨handler, rfl, by simp only [serverStep, hhandler]⟩

/-- A step that is neither is one of a task or of a session. -/
theorem serverStep_route (sha : Sha256) (ed : Ed25519) (json : Json) (s : ServerState) (i : Nat) :
    (s.wire.gateway.tasks[i]? = none ∧ serverStep sha ed json s (.route i) = (.idle, s)) ∨
    (∃ task, s.wire.gateway.tasks[i]? = some task ∧ serverStep sha ed json s (.route i) =
      (.moved (s.wire.gateway.route i task).1,
        s.setGateway (s.wire.gateway.route i task).2)) := by
  cases htask : s.wire.gateway.tasks[i]? with
  | none => exact .inl ⟨rfl, by simp only [serverStep, htask]⟩
  | some task => exact .inr ⟨task, rfl, by simp only [serverStep, htask]⟩

theorem serverStep_session (sha : Sha256) (ed : Ed25519) (json : Json) (s : ServerState) (k : Nat)
    (input : WireInput) :
    (s.wire.gateway.sessions[k]? = none ∧
      serverStep sha ed json s (.session k input) = (.idle, s)) ∨
    (∃ session, s.wire.gateway.sessions[k]? = some session ∧
      serverStep sha ed json s (.session k input) =
        (.moved (s.wire.sessionStep k session input).1,
          { s with wire := (s.wire.sessionStep k session input).2 })) := by
  cases hs : s.wire.gateway.sessions[k]? with
  | none => exact .inl ⟨rfl, by simp only [serverStep, hs]⟩
  | some session => exact .inr ⟨session, rfl, by simp only [serverStep, hs]⟩

/-! ### One call -/

/-- What the call of a handler leaves alone. -/
theorem serve_frame (s : ServerState) (ed : Ed25519) (store : StoreCall) (nowMs : UInt64) :
    (s.serve ed store nowMs).2.auth = s.auth ∧
      (s.serve ed store nowMs).2.handlers = s.handlers ∧
      (s.serve ed store nowMs).2.wire.sent = s.wire.sent := by
  cases store <;> exact ⟨rfl, rfl, rfl⟩

/-- The call of a handler on the gateway is the event that stands for it. -/
theorem serve_gateway (s : ServerState) (ed : Ed25519) (store : StoreCall) (nowMs : UInt64) :
    (s.serve ed store nowMs).2.wire.gateway =
        after gatewayStep s.wire.gateway (store.event nowMs).toList ∧
      ((s.serve ed store nowMs).1.effect nowMs store).toList =
        (trace gatewayStep s.wire.gateway (store.event nowMs).toList).map (·.2) := by
  cases store with
  | push message =>
    have hstep : gatewayStep s.wire.gateway (.enqueue message.senderDeviceId message nowMs) =
        (.relay (.push message nowMs)
          (.pushed (s.wire.gateway.push message nowMs none).1),
          (s.wire.gateway.push message nowMs none).2) := by simp [gatewayStep]
    show _ = (gatewayStep _ _).2 ∧ _ = [(gatewayStep _ _).1]
    rw [hstep]
    exact ⟨rfl, rfl⟩
  | pull device =>
    show _ = (gatewayStep _ _).2 ∧ _ = [(gatewayStep _ _).1]
    simp [gatewayStep, ServerState.serve, ServerState.setGateway, StoreAnswer.effect]
  | ack device messageId =>
    show _ = (gatewayStep _ _).2 ∧ _ = [(gatewayStep _ _).1]
    simp [gatewayStep, ServerState.serve, ServerState.setGateway, StoreAnswer.effect]
  | upgrade device => exact ⟨rfl, rfl⟩
  | publish device publication => exact ⟨rfl, rfl⟩
  | getActive device => exact ⟨rfl, rfl⟩
  | revoke device generation => exact ⟨rfl, rfl⟩
  | claimOpk recipient generation keyId claimant requestId => exact ⟨rfl, rfl⟩

/-- The call of a handler on the registry. -/
theorem serve_registry (s : ServerState) (ed : Ed25519) (store : StoreCall) (nowMs : UInt64) :
    (s.serve ed store nowMs).2.prekeys =
        after (registryStep ed) s.prekeys (store.op nowMs).toList ∧
      (s.serve ed store nowMs).1.registry.toList =
        (trace (registryStep ed) s.prekeys (store.op nowMs).toList).map (·.2) := by
  cases store <;> exact ⟨rfl, rfl⟩

/-! ### One step -/

theorem serverStep_auth (sha : Sha256) (ed : Ed25519) (json : Json) (s : ServerState)
    (e : ServerEvent) :
    (serverStep sha ed json s e).2.auth = after (authStep sha ed) s.auth (authCalls s e) := by
  cases e with
  | request r =>
    have hstate := (dispatch_admits sha ed json s.auth r).state
    obtain ⟨reply, -, hstep⟩ | ⟨handler, -, hstep⟩ := serverStep_request sha ed json s r
    · rw [hstep]
      exact hstate
    · rw [hstep]
      exact hstate
  | serve i nowMs =>
    obtain ⟨-, hstep⟩ | ⟨handler, -, hstep⟩ := serverStep_serve sha ed json s i nowMs
    · rw [hstep]
      rfl
    · rw [hstep]
      exact (serve_frame _ ed handler.store nowMs).1
  | route i =>
    obtain ⟨-, hstep⟩ | ⟨task, -, hstep⟩ := serverStep_route sha ed json s i
    · rw [hstep]
      rfl
    · rw [hstep]
      rfl
  | session k input =>
    obtain ⟨-, hstep⟩ | ⟨session, -, hstep⟩ := serverStep_session sha ed json s k input
    · rw [hstep]
      rfl
    · rw [hstep]
      rfl

theorem serverStep_prekeys (sha : Sha256) (ed : Ed25519) (json : Json) (s : ServerState)
    (e : ServerEvent) :
    (serverStep sha ed json s e).2.prekeys =
        after (registryStep ed) s.prekeys (registryOps s e) ∧
      registryAnswers (serverStep sha ed json s e).1 =
        (trace (registryStep ed) s.prekeys (registryOps s e)).map (·.2) := by
  cases e with
  | request r =>
    obtain ⟨reply, -, hstep⟩ | ⟨handler, -, hstep⟩ := serverStep_request sha ed json s r
    · rw [hstep]
      exact ⟨rfl, rfl⟩
    · rw [hstep]
      exact ⟨rfl, rfl⟩
  | serve i nowMs =>
    obtain ⟨hnone, hstep⟩ | ⟨handler, hhandler, hstep⟩ := serverStep_serve sha ed json s i nowMs
    · rw [hstep, registryOps, hnone]
      exact ⟨rfl, rfl⟩
    · rw [hstep, registryOps, hhandler]
      exact serve_registry { s with handlers := s.handlers.eraseIdx i } ed handler.store nowMs
  | route i =>
    obtain ⟨-, hstep⟩ | ⟨task, -, hstep⟩ := serverStep_route sha ed json s i
    · rw [hstep]
      exact ⟨rfl, rfl⟩
    · rw [hstep]
      exact ⟨rfl, rfl⟩
  | session k input =>
    obtain ⟨-, hstep⟩ | ⟨session, -, hstep⟩ := serverStep_session sha ed json s k input
    · rw [hstep]
      exact ⟨rfl, rfl⟩
    · rw [hstep]
      exact ⟨rfl, rfl⟩

theorem serverStep_gateway (sha : Sha256) (ed : Ed25519) (json : Json) {s : ServerState}
    (h : Carries (fun _ => ValidMessage) s.wire.gateway) (e : ServerEvent) :
    (serverStep sha ed json s e).2.wire.gateway =
        after gatewayStep s.wire.gateway (gatewayEvents s e) ∧
      gatewayAnswers e (serverStep sha ed json s e).1 =
        (trace gatewayStep s.wire.gateway (gatewayEvents s e)).map (·.2) := by
  cases e with
  | request r =>
    obtain ⟨reply, -, hstep⟩ | ⟨handler, -, hstep⟩ := serverStep_request sha ed json s r
    · rw [hstep]
      exact ⟨rfl, rfl⟩
    · rw [hstep]
      exact ⟨rfl, rfl⟩
  | serve i nowMs =>
    obtain ⟨hnone, hstep⟩ | ⟨handler, hhandler, hstep⟩ := serverStep_serve sha ed json s i nowMs
    · rw [hstep, gatewayEvents, hnone]
      exact ⟨rfl, rfl⟩
    · rw [hstep, gatewayEvents, hhandler]
      exact serve_gateway { s with handlers := s.handlers.eraseIdx i } ed handler.store nowMs
  | route i =>
    obtain ⟨hnone, hstep⟩ | ⟨task, htask, hstep⟩ := serverStep_route sha ed json s i
    · rw [hstep, gatewayEvents, hnone]
      exact ⟨rfl, rfl⟩
    · have hroute : gatewayStep s.wire.gateway (.route i) = s.wire.gateway.route i task := by
        simp only [gatewayStep, htask]
      rw [hstep, gatewayEvents, htask]
      show _ = (gatewayStep _ _).2 ∧ _ = [(gatewayStep _ _).1]
      rw [hroute]
      exact ⟨rfl, rfl⟩
  | session k input =>
    obtain ⟨hnone, hstep⟩ | ⟨session, hs, hstep⟩ := serverStep_session sha ed json s k input
    · rw [hstep, gatewayEvents, hnone]
      exact ⟨rfl, rfl⟩
    · have hsession : gatewayStep s.wire.gateway (.session k (heard session input)) =
          s.wire.gateway.sessionStep k session (heard session input) := by
        simp only [gatewayStep, hs]
      obtain ⟨heffect, hgateway⟩ := WireState.sessionStep_refines h hs input
      rw [hstep, gatewayEvents, hs]
      show _ = (gatewayStep _ _).2 ∧ _ = [(gatewayStep _ _).1]
      rw [hsession]
      exact ⟨hgateway, congrArg (fun effect => [effect]) heffect⟩

end

/-! ### One answer -/

/-- What the parts answer to the call of a handler is what the handler is told. -/
theorem serve_told (s : ServerState) (ed : Ed25519) (store : StoreCall) (nowMs : UInt64) :
    ((((trace gatewayStep s.wire.gateway (store.event nowMs).toList).map (·.2)).filterMap
        Effect.told ++
      ((trace (registryStep ed) s.prekeys (store.op nowMs).toList).map (·.2)).map
        RegistryAnswer.told).head?) = some (s.serve ed store nowMs).1 := by
  rw [← (serve_gateway s ed store nowMs).2, ← (serve_registry s ed store nowMs).2]
  cases store <;> rfl

/-- The answer to a step is made of the answers of the parts. -/
theorem serverStep_answer (sha : Sha256) (ed : Ed25519) (json : Json) {s : ServerState}
    (h : Carries (fun _ => ValidMessage) s.wire.gateway) (e : ServerEvent) :
    (serverStep sha ed json s e).1 = partsAnswer json s.handlers e
      ((trace (authStep sha ed) s.auth (authCalls s e)).map (·.2))
      ((trace gatewayStep s.wire.gateway (gatewayEvents s e)).map (·.2))
      ((trace (registryStep ed) s.prekeys (registryOps s e)).map (·.2)) := by
  cases e with
  | request r =>
    have hcall : ((trace (authStep sha ed) s.auth r.call.toList).map (·.2)).head? =
        r.call.map fun call => (authStep sha ed s.auth call).1 := by
      cases r.call <;> rfl
    rw [partsAnswer, authCalls, hcall, ← dispatch_outcome]
    obtain ⟨reply, hadmit, hstep⟩ | ⟨handler, hadmit, hstep⟩ := serverStep_request sha ed json s r
    · rw [hstep, hadmit]
    · rw [hstep, hadmit]
  | serve i nowMs =>
    obtain ⟨hnone, hstep⟩ | ⟨handler, hhandler, hstep⟩ := serverStep_serve sha ed json s i nowMs
    · rw [hstep, partsAnswer, hnone]
    · have htold := serve_told { s with handlers := s.handlers.eraseIdx i } ed handler.store nowMs
      rw [hstep, partsAnswer, gatewayEvents, registryOps, hhandler]
      dsimp only [Option.bind_some] at htold ⊢
      rw [htold]
  | route i =>
    have hanswer := (serverStep_gateway sha ed json h (.route i)).2
    rw [partsAnswer, ← hanswer]
    obtain ⟨-, hstep⟩ | ⟨task, -, hstep⟩ := serverStep_route sha ed json s i
    · rw [hstep]
      rfl
    · rw [hstep]
      rfl
  | session k input =>
    have hanswer := (serverStep_gateway sha ed json h (.session k input)).2
    rw [partsAnswer, ← hanswer]
    obtain ⟨-, hstep⟩ | ⟨session, -, hstep⟩ := serverStep_session sha ed json s k input
    · rw [hstep]
      rfl
    · rw [hstep]
      rfl

/-- Only a request is refused. -/
theorem refused_of_serverStep {sha : Sha256} {ed : Ed25519} {json : Json} {s : ServerState}
    {e : ServerEvent} {reply : Reply} (h : (serverStep sha ed json s e).1 = .refused reply) :
    ∃ r, (dispatch sha ed json s.auth r).1 = .error reply := by
  cases e with
  | request r =>
    obtain ⟨reply', hadmit, hstep⟩ | ⟨handler, -, hstep⟩ := serverStep_request sha ed json s r
    · rw [hstep] at h
      obtain rfl := ServerAnswer.refused.inj h
      exact ⟨r, hadmit⟩
    · rw [hstep] at h
      cases h
  | serve i nowMs =>
    obtain ⟨-, hstep⟩ | ⟨handler, -, hstep⟩ := serverStep_serve sha ed json s i nowMs <;>
      rw [hstep] at h <;> cases h
  | route i =>
    obtain ⟨-, hstep⟩ | ⟨task, -, hstep⟩ := serverStep_route sha ed json s i <;>
      rw [hstep] at h <;> cases h
  | session k input =>
    obtain ⟨-, hstep⟩ | ⟨session, -, hstep⟩ := serverStep_session sha ed json s k input <;>
      rw [hstep] at h <;> cases h

/-- A client is told of success exactly if a store granted what it was asked for. -/
theorem serverStep_success (sha : Sha256) (ed : Ed25519) (json : Json) (s : ServerState)
    (e : ServerEvent) :
    ((serverStep sha ed json s e).1.reply.bind Reply.code).any StatusCode.success = true ↔
      ∃ handler answer, (serverStep sha ed json s e).1 = .served handler answer ∧
        answer.granted = true := by
  cases hanswer : (serverStep sha ed json s e).1 with
  | refused reply =>
    obtain ⟨r, hadmit⟩ := refused_of_serverStep hanswer
    rw [dispatch_outcome] at hadmit
    have hrefused := outcome_not_success hadmit
    simp [ServerAnswer.reply, hrefused]
  | served handler answer =>
    have hcode := answer.reply_success
    simp [ServerAnswer.reply, hcode]
  | admitted handler => simp [ServerAnswer.reply]
  | moved effect => simp [ServerAnswer.reply]
  | idle => simp [ServerAnswer.reply]

/-! ### Runs -/

section
variable (sha : Sha256) (ed : Ed25519) (json : Json)

theorem drives_auth : Drives (serverStep sha ed json) (authStep sha ed) (fun _ => True)
    (·.auth) authCalls :=
  ⟨fun _ => trivial, fun _ => serverStep_auth sha ed json _ _⟩

theorem drives_registry : Drives (serverStep sha ed json) (registryStep ed) (fun _ => True)
    (·.prekeys) registryOps :=
  ⟨fun _ => trivial, fun _ => (serverStep_prekeys sha ed json _ _).1⟩

theorem drives_gateway : Drives (serverStep sha ed json) gatewayStep
    (fun s => Carries (fun _ => ValidMessage) s.wire.gateway) (·.wire.gateway) gatewayEvents where
  keeps := by
    intro s e h
    rw [(serverStep_gateway sha ed json h e).1]
    exact after_invariant (fun g e hg => hg.step fun _ _ => valid_of_effect) h _
  moves := fun h => (serverStep_gateway sha ed json h _).1

/-- The state of the server after a run. -/
abbrev serving (events : List ServerEvent) : ServerState :=
  after (serverStep sha ed json) ServerState.start events

theorem serving_carries (events : List ServerEvent) :
    Carries (fun _ => ValidMessage) (serving sha ed json events).wire.gateway :=
  (drives_gateway sha ed json).invariant (Carries.start _) events

theorem serving_gateway (events : List ServerEvent) :
    (serving sha ed json events).wire.gateway =
      reached (emitted (serverStep sha ed json) gatewayEvents ServerState.start events) :=
  (drives_gateway sha ed json).after_eq (Carries.start _) events

/-- **The server refines its parts.**  In every run, whatever requests, messages and bytes come in
    and however the tasks interleave, the tables of the `AuthState` are those that its machine
    reaches on the `authenticate` calls of the run; the relay, the registry of connections, the
    channels and the sessions are those of a run of the gateway without bytes; and the published
    prekeys are those of a run of their registry.  At every step the server answers what the parts
    answer: it admits or refuses a request by what `authenticate` answered to it, a served handler
    is told what its store answered, and the status code of the reply says whether that was what the
    client asked for. -/
theorem server_refines (events : List ServerEvent) :
    let s := serving sha ed json events
    s.auth = after (authStep sha ed) AuthState.empty
      (emitted (serverStep sha ed json) authCalls ServerState.start events) ∧
    s.wire.gateway = reached
      (emitted (serverStep sha ed json) gatewayEvents ServerState.start events) ∧
    s.prekeys = after (registryStep ed) PreKeyRegistry.empty
      (emitted (serverStep sha ed json) registryOps ServerState.start events) ∧
    ∀ e,
      gatewayAnswers e (serverStep sha ed json s e).1 =
        (trace gatewayStep s.wire.gateway (gatewayEvents s e)).map (·.2) ∧
      registryAnswers (serverStep sha ed json s e).1 =
        (trace (registryStep ed) s.prekeys (registryOps s e)).map (·.2) ∧
      (serverStep sha ed json s e).1 = partsAnswer json s.handlers e
        ((trace (authStep sha ed) s.auth (authCalls s e)).map (·.2))
        ((trace gatewayStep s.wire.gateway (gatewayEvents s e)).map (·.2))
        ((trace (registryStep ed) s.prekeys (registryOps s e)).map (·.2)) ∧
      (((serverStep sha ed json s e).1.reply.bind Reply.code).any StatusCode.success = true ↔
        ∃ handler answer, (serverStep sha ed json s e).1 = .served handler answer ∧
          answer.granted = true) := by
  intro s
  refine ⟨?_, ?_, ?_, fun e => ⟨?_, ?_, ?_, ?_⟩⟩
  · exact (drives_auth sha ed json).after_eq trivial events
  · exact serving_gateway sha ed json events
  · exact (drives_registry sha ed json).after_eq trivial events
  · exact (serverStep_gateway sha ed json (serving_carries sha ed json events) e).2
  · exact (serverStep_prekeys sha ed json s e).2
  · exact serverStep_answer sha ed json (serving_carries sha ed json events) e
  · exact serverStep_success sha ed json s e

end

end NexaMessenger.Gateway
