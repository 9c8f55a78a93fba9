import NexaMessenger.Gateway.Server

namespace NexaMessenger.Gateway

open Lib Relay Auth

/-!
# Gateway — every call is signed for

No handler makes a call that was not asked for by a request of its own.  In every run the handlers
that were admitted are, in some order, those that were served and those that still wait
(`Accountable`), so each admitted request has its call at most once; and what a served handler did
was asked for by a request that the device in whose name it was done has signed
(`calls_are_signed_for`).
-/

/-- The handlers that a history admits. -/
def admittedHandlers (log : List (ServerEvent × ServerAnswer)) : List Handler :=
  log.filterMap fun
    | (_, .admitted handler) => some handler
    | _ => none

/-- The handlers that a history serves. -/
def servedHandlers (log : List (ServerEvent × ServerAnswer)) : List Handler :=
  log.filterMap fun
    | (_, .served handler _) => some handler
    | _ => none

/-- The device of an upgrade. -/
def Handler.upgraded (handler : Handler) : Option Id16 :=
  match handler.store with
  | .upgrade device => some device
  | _ => none

/-- The request of a handler is signed with a key whose hash is the id of the device in whose name
    the handler makes its call, at a time near the clock of the gateway; and its method, path and
    body, which are signed with it, ask for this call. -/
structure SignedFor (sha : Sha256) (ed : Ed25519) (json : Json) (handler : Handler)
    (r : SignedRequest) : Prop where
  request : ∃ call, handler.call = some call ∧ call.request = .ok r ∧
    timely r.timestampMs call.nowMs = true
  caller : handler.store.caller = some r.deviceId
  key : r.deviceId = deviceIdFromPublicKey sha r.publicKey
  signature : ed.verify r.publicKey (signingBytes r.method r.path r.deviceId r.publicKey
    r.timestampMs r.nonce (sha.digest r.body).toList) r.signature = true
  asks : Spells json r.method r.path r.body handler.store

/-- The handler reads a publication, or its request is signed. -/
def Authorised (sha : Sha256) (ed : Ed25519) (json : Json) (handler : Handler) : Prop :=
  (∃ device, handler = ⟨none, .getActive device⟩) ∨ ∃ r, SignedFor sha ed json handler r

section
variable {sha : Sha256} {ed : Ed25519} {json : Json}

/-- What the checks of a request establish. -/
theorem signed_of_check {r : SignedRequest} {nowMs : UInt64} (h : r.check sha ed nowMs = .ok ()) :
    r.deviceId = deviceIdFromPublicKey sha r.publicKey ∧
      ed.verify r.publicKey (signingBytes r.method r.path r.deviceId r.publicKey r.timestampMs
        r.nonce (sha.digest r.body).toList) r.signature = true := by
  unfold SignedRequest.check at h
  split at h
  · exact absurd h (by simp)
  rename_i hdevice
  split at h
  · exact absurd h (by simp)
  split at h
  · exact absurd h (by simp)
  split at h
  · exact absurd h (by simp)
  rename_i hverify
  exact ⟨not_not.mp hdevice, by simpa using hverify⟩

/-- The request of a call has its method, path and body. -/
theorem request_fields {call : AuthCall} {r : SignedRequest} (h : call.request = .ok r) :
    r.method = call.method ∧ r.path = call.path ∧ r.body = call.body := by
  unfold AuthCall.request at h
  simp only [bind, Except.bind, pure, Except.pure] at h
  -- each line before the last can only fail
  repeat' split at h
  all_goals cases h
  exact ⟨rfl, rfl, rfl⟩

theorem Entitled.authorised {auth : AuthState} {handler : Handler}
    (h : Entitled sha ed json auth handler) : Authorised sha ed json handler := by
  obtain ⟨call, store⟩ := handler
  cases call with
  | none =>
    obtain ⟨device, hstore⟩ := h
    obtain rfl : store = .getActive device := hstore
    exact .inl ⟨device, rfl⟩
  | some call =>
    obtain ⟨device, hanswer, hcaller, hspells⟩ := h
    obtain ⟨r, hrequest, hcheck, rfl, -⟩ := authStep_ok hanswer
    obtain ⟨hmethod, hpath, hbody⟩ := request_fields hrequest
    obtain ⟨hkey, hsignature⟩ := signed_of_check hcheck
    refine .inr ⟨r, ⟨call, rfl, hrequest, timely_of_check hcheck⟩, hcaller, hkey, hsignature, ?_⟩
    rw [hmethod, hpath, hbody]
    exact hspells

/-! ### The account of the handlers -/

/-- Who was admitted was served or still waits, is authorised, and has a session if it came for
    one. -/
structure Accountable (sha : Sha256) (ed : Ed25519) (json : Json)
    (log : List (ServerEvent × ServerAnswer)) (s : ServerState) : Prop where
  conserved : (admittedHandlers log).Perm (servedHandlers log ++ s.handlers)
  authorised : ∀ handler ∈ admittedHandlers log, Authorised sha ed json handler
  sessions : s.wire.gateway.devices = (servedHandlers log).filterMap Handler.upgraded

theorem admittedHandlers_concat (log : List (ServerEvent × ServerAnswer)) (e : ServerEvent)
    (answer : ServerAnswer) :
    admittedHandlers (log ++ [(e, answer)]) = admittedHandlers log ++
      (match answer with | .admitted handler => [handler] | _ => []) := by
  rw [admittedHandlers, List.filterMap_append]
  cases answer <;> rfl

theorem servedHandlers_concat (log : List (ServerEvent × ServerAnswer)) (e : ServerEvent)
    (answer : ServerAnswer) :
    servedHandlers (log ++ [(e, answer)]) = servedHandlers log ++
      (match answer with | .served handler _ => [handler] | _ => []) := by
  rw [servedHandlers, List.filterMap_append]
  cases answer <;> rfl

/-- Only an upgrade starts a session. -/
theorem serve_devices (s : ServerState) (handler : Handler) (nowMs : UInt64) :
    (s.serve ed handler.store nowMs).2.wire.gateway.devices =
      s.wire.gateway.devices ++ handler.upgraded.toList := by
  obtain ⟨call, store⟩ := handler
  cases store with
  | upgrade device => exact List.map_append
  | push message => exact (List.append_nil _).symm
  | pull device => exact (List.append_nil _).symm
  | ack device messageId => exact (List.append_nil _).symm
  | publish device publication => exact (List.append_nil _).symm
  | getActive device => exact (List.append_nil _).symm
  | revoke device generation => exact (List.append_nil _).symm
  | claimOpk recipient generation keyId claimant requestId => exact (List.append_nil _).symm

/-- An event whose answer names no handler, and which leaves handlers and sessions as they are. -/
theorem Accountable.other {log : List (ServerEvent × ServerAnswer)} {s s' : ServerState}
    (h : Accountable sha ed json log s) (e : ServerEvent) {answer : ServerAnswer}
    (hadmitted : ∀ handler, answer ≠ .admitted handler)
    (hserved : ∀ handler reply, answer ≠ .served handler reply)
    (hhandlers : s'.handlers = s.handlers)
    (hdevices : s'.wire.gateway.devices = s.wire.gateway.devices) :
    Accountable sha ed json (log ++ [(e, answer)]) s' := by
  have hsame : admittedHandlers (log ++ [(e, answer)]) = admittedHandlers log := by
    rw [admittedHandlers_concat]
    cases answer with
    | admitted handler => exact absurd rfl (hadmitted handler)
    | _ => exact List.append_nil _
  have hsame' : servedHandlers (log ++ [(e, answer)]) = servedHandlers log := by
    rw [servedHandlers_concat]
    cases answer with
    | served handler reply => exact absurd rfl (hserved handler reply)
    | _ => exact List.append_nil _
  constructor
  · rw [hsame, hsame', hhandlers]
    exact h.conserved
  · rw [hsame]
    exact h.authorised
  · rw [hsame', hdevices]
    exact h.sessions

/-- **Step.** -/
theorem Accountable.step {log : List (ServerEvent × ServerAnswer)} {s : ServerState}
    (hcarries : Carries (fun _ => ValidMessage) s.wire.gateway) (h : Accountable sha ed json log s)
    (e : ServerEvent) :
    Accountable sha ed json (log ++ [(e, (serverStep sha ed json s e).1)])
      (serverStep sha ed json s e).2 := by
  cases e with
  | request r =>
    obtain ⟨reply, -, hstep⟩ | ⟨handler, hadmit, hstep⟩ := serverStep_request sha ed json s r
    · rw [hstep]
      exact h.other _ (fun _ => ServerAnswer.noConfusion) (fun _ _ => ServerAnswer.noConfusion)
        rfl rfl
    · rw [hstep]
      have hentitled := ((dispatch_admits sha ed json s.auth r).handler handler hadmit).2
      constructor
      · rw [admittedHandlers_concat, servedHandlers_concat]
        show (_ ++ [handler]).Perm (_ ++ [] ++ (s.handlers ++ [handler]))
        rw [List.append_nil, ← List.append_assoc]
        exact h.conserved.append_right _
      · intro handler' hmem
        rw [admittedHandlers_concat] at hmem
        rcases List.mem_append.mp hmem with hold | hnew
        · exact h.authorised handler' hold
        · rw [List.mem_singleton.mp hnew]
          exact hentitled.authorised
      · rw [servedHandlers_concat]
        show s.wire.gateway.devices = List.filterMap _ (_ ++ [])
        rw [List.append_nil]
        exact h.sessions
  | serve i nowMs =>
    obtain ⟨-, hstep⟩ | ⟨handler, hhandler, hstep⟩ := serverStep_serve sha ed json s i nowMs
    · rw [hstep]
      exact h.other _ (fun _ => ServerAnswer.noConfusion) (fun _ _ => ServerAnswer.noConfusion)
        rfl rfl
    · obtain ⟨hi, rfl⟩ := List.getElem?_eq_some_iff.mp hhandler
      rw [hstep]
      obtain ⟨-, hhandlers, -⟩ := serve_frame { s with handlers := s.handlers.eraseIdx i } ed
        s.handlers[i].store nowMs
      constructor
      · -- the handler that is served is taken from those that wait, wherever it stands
        rw [admittedHandlers_concat, servedHandlers_concat, hhandlers]
        show (_ ++ []).Perm (_ ++ [s.handlers[i]] ++ s.handlers.eraseIdx i)
        rw [List.append_nil, List.append_assoc]
        refine h.conserved.trans (List.Perm.append_left _ ?_)
        exact (List.getElem_cons_eraseIdx_perm hi).symm
      · intro handler' hmem
        rw [admittedHandlers_concat] at hmem
        exact h.authorised handler' (by simpa using hmem)
      · rw [servedHandlers_concat, List.filterMap_append, serve_devices]
        show s.wire.gateway.devices ++ _ = _
        rw [h.sessions]
        cases hup : s.handlers[i].upgraded <;> simp [hup]
  | route i =>
    obtain ⟨-, hstep⟩ | ⟨task, -, hstep⟩ := serverStep_route sha ed json s i
    · rw [hstep]
      exact h.other _ (fun _ => ServerAnswer.noConfusion) (fun _ _ => ServerAnswer.noConfusion)
        rfl rfl
    · rw [hstep]
      refine h.other _ (fun _ => ServerAnswer.noConfusion) (fun _ _ => ServerAnswer.noConfusion)
        rfl ?_
      have hdevices := (route_keeps s.wire.gateway i task).devices
      rwa [List.append_nil] at hdevices
  | session k input =>
    obtain ⟨-, hstep⟩ | ⟨session, hs, hstep⟩ := serverStep_session sha ed json s k input
    · rw [hstep]
      exact h.other _ (fun _ => ServerAnswer.noConfusion) (fun _ _ => ServerAnswer.noConfusion)
        rfl rfl
    · rw [hstep]
      refine h.other _ (fun _ => ServerAnswer.noConfusion) (fun _ _ => ServerAnswer.noConfusion)
        rfl ?_
      have hdevices := (sessionStep_keeps hs (heard session input)).devices
      rw [List.append_nil] at hdevices
      rw [← hdevices, ← (WireState.sessionStep_refines hcarries hs input).2]

/-- **Run.** -/
theorem run_accountable (sha : Sha256) (ed : Ed25519) (json : Json) (events : List ServerEvent) :
    Accountable sha ed json (trace (serverStep sha ed json) ServerState.start events)
      (serving sha ed json events) := by
  refine history_invariant ⟨List.Perm.refl _, fun handler h => ?_, rfl⟩ events
    fun pre e _ h => h.step (serving_carries sha ed json pre) e
  cases h

/-! ### The calls on the stores are those of the handlers -/

/-- The calls on the registry of prekeys that handlers make in a history. -/
def handlerOps (log : List (ServerEvent × ServerAnswer)) : List RegistryOp :=
  log.filterMap fun
    | (.serve _ nowMs, .served handler _) => handler.store.op nowMs
    | _ => none

/-- The calls on the gateway that handlers make in a history. -/
def handlerEvents (log : List (ServerEvent × ServerAnswer)) : List Event :=
  log.filterMap fun
    | (.serve _ nowMs, .served handler _) => handler.store.event nowMs
    | _ => none

/-- An event of the gateway that a handler is behind. -/
def Event.ofHandler : Event → Bool
  | .enqueue .. | .poll .. | .ack .. | .upgrade _ => true
  | .route _ | .session .. => false

theorem event_ofHandler {store : StoreCall} {nowMs : UInt64} {e : Event}
    (h : store.event nowMs = some e) : e.ofHandler = true := by
  cases store <;> cases h <;> rfl

theorem handlerOps_step (s : ServerState) (e : ServerEvent) :
    registryOps s e = handlerOps [(e, (serverStep sha ed json s e).1)] := by
  cases e with
  | request r =>
    obtain ⟨reply, -, hstep⟩ | ⟨handler, -, hstep⟩ := serverStep_request sha ed json s r
    · rw [hstep]
      rfl
    · rw [hstep]
      rfl
  | serve i nowMs =>
    obtain ⟨hnone, hstep⟩ | ⟨handler, hhandler, hstep⟩ := serverStep_serve sha ed json s i nowMs
    · rw [hstep, registryOps, hnone]
      rfl
    · rw [hstep, registryOps, hhandler]
      cases hop : handler.store.op nowMs <;> simp [handlerOps, hop]
  | route i => rfl
  | session k input => rfl

theorem handlerEvents_step (s : ServerState) (e : ServerEvent) :
    (gatewayEvents s e).filter Event.ofHandler =
      handlerEvents [(e, (serverStep sha ed json s e).1)] := by
  cases e with
  | request r =>
    obtain ⟨reply, -, hstep⟩ | ⟨handler, -, hstep⟩ := serverStep_request sha ed json s r
    · rw [hstep]
      rfl
    · rw [hstep]
      rfl
  | serve i nowMs =>
    obtain ⟨hnone, hstep⟩ | ⟨handler, hhandler, hstep⟩ := serverStep_serve sha ed json s i nowMs
    · rw [hstep, gatewayEvents, hnone]
      rfl
    · rw [hstep, gatewayEvents, hhandler]
      cases hevent : handler.store.event nowMs with
      | none => simp [handlerEvents, hevent]
      | some event => simp [handlerEvents, hevent, event_ofHandler hevent]
  | route i =>
    rw [gatewayEvents]
    cases s.wire.gateway.tasks[i]? <;> rfl
  | session k input =>
    rw [gatewayEvents]
    cases s.wire.gateway.sessions[k]? <;> rfl

theorem run_handlerOps (events : List ServerEvent) :
    emitted (serverStep sha ed json) registryOps ServerState.start events =
      handlerOps (trace (serverStep sha ed json) ServerState.start events) := by
  induction events using List.reverseRecOn with
  | nil => rfl
  | append_singleton events e ih =>
    rw [emitted_concat, trace_concat, ih, handlerOps_step, handlerOps, handlerOps, handlerOps,
      List.filterMap_append]

theorem run_handlerEvents (events : List ServerEvent) :
    (emitted (serverStep sha ed json) gatewayEvents ServerState.start events).filter
        Event.ofHandler =
      handlerEvents (trace (serverStep sha ed json) ServerState.start events) := by
  induction events using List.reverseRecOn with
  | nil => rfl
  | append_singleton events e ih =>
    rw [emitted_concat, trace_concat, List.filter_append, ih, handlerEvents_step, handlerEvents,
      handlerEvents, handlerEvents, List.filterMap_append]

/-- **Every call is signed for.**  In every run of the server, the handlers that have made their
    call are, with those that wait, the handlers that were admitted, each once.  Each of them only
    reads a publication, or makes the one call that a request asks for which the device it acts for
    has signed.  The calls on the registry of prekeys are theirs, and so is all that the gateway
    does but for its tasks and websocket sessions, each of which belongs to the device of such a
    handler. -/
theorem calls_are_signed_for (sha : Sha256) (ed : Ed25519) (json : Json)
    (events : List ServerEvent) :
    let log := trace (serverStep sha ed json) ServerState.start events
    let s := serving sha ed json events
    (admittedHandlers log).Perm (servedHandlers log ++ s.handlers) ∧
    (∀ handler ∈ servedHandlers log, Authorised sha ed json handler) ∧
    emitted (serverStep sha ed json) registryOps ServerState.start events = handlerOps log ∧
    (emitted (serverStep sha ed json) gatewayEvents ServerState.start events).filter
      Event.ofHandler = handlerEvents log ∧
    s.wire.gateway.devices = (servedHandlers log).filterMap Handler.upgraded := by
  intro log s
  have h := run_accountable sha ed json events
  refine ⟨h.conserved, fun handler hserved => ?_, run_handlerOps events, run_handlerEvents events,
    h.sessions⟩
  exact h.authorised handler (h.conserved.mem_iff.mpr (List.mem_append_left _ hserved))

end

end NexaMessenger.Gateway
