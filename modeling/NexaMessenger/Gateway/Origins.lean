import NexaMessenger.Gateway.Authority
import NexaMessenger.Gateway.Entitlement
import NexaMessenger.Gateway.Transcript

namespace NexaMessenger.Gateway

open Lib Relay Auth
open Transport (Frame FrameKind)

/-!
# Gateway — where messages come from

A message names its sender, and nobody but the sender brings it in: it stands in the body of a
request that the sender has signed, or in a frame that was read from a websocket which the sender
has opened with a signed request (`Origin`).  From there the gateway hands it on unchanged, so
whatever a device is given, in the reply to a poll or in the bytes of a websocket, is addressed to
the device and has its origin with the sender it names (`messages_come_from_their_senders`).
-/

/-- A frame with an encrypted message in it. -/
def Encloses (bytes : Bytes) (m : EncryptedMessage) : Prop :=
  ∃ frame, Frame.fromBytes bytes = .ok frame ∧ frame.kind = .ok .encryptedMessage ∧
    EncryptedMessage.decode frame.payload = .ok m

/-- A step in which the relay accepts a message: a handler pushes it, or a session reads it. -/
inductive Brings (m : EncryptedMessage) : ServerEvent → ServerAnswer → Prop
  | handler {i : Nat} {nowMs : UInt64} {handler : Handler} (hstore : handler.store = .push m) :
      Brings m (.serve i nowMs) (.served handler (.pushed .accepted))
  | session {k : Nat} {bytes : Bytes} {ok : Bool} {nowMs : UInt64} (hbytes : Encloses bytes m) :
      Brings m (.session k (.read (some (.binary bytes)) ok nowMs))
        (.moved (.relay (.push m nowMs) (.pushed .accepted)))

/-- The device of the handler or of the session that a step belongs to; `devices` are those of the
    sessions. -/
def actor (devices : List Id16) : ServerEvent → ServerAnswer → Option Id16
  | .serve .., .served handler _ => handler.store.caller
  | .session k _, _ => devices[k]?
  | _, _ => none

/-- The history has a step in which the relay accepts the message, and which belongs to the sender
    of the message. -/
def Origin (log : List (ServerEvent × ServerAnswer)) (m : EncryptedMessage) : Prop :=
  ∃ e answer, (e, answer) ∈ log ∧ Brings m e answer ∧
    actor ((servedHandlers log).filterMap Handler.upgraded) e answer = some m.senderDeviceId

/-! ### Who pushes -/

section
variable {w : WireState} {k : Nat} {s : Session}

/-- The statements of a session that read nothing push nothing. -/
theorem advance_pushes_nothing (ok : Bool) (nowMs : UInt64) {m : EncryptedMessage} {now : UInt64}
    {answer : RelayAnswer} : (w.advance k s ok nowMs).1 ≠ .relay (.push m now) answer := by
  have hplain (ok : Bool) : (w.gateway.advance k s ok nowMs).1 ≠ .relay (.push m now) answer := by
    intro heq
    unfold GatewayState.advance at heq
    repeat' split at heq
    all_goals cases heq
  intro heq
  unfold WireState.advance at heq
  split at heq
  · exact hplain ok heq
  · exact hplain false heq
  · exact hplain ok heq

/-- A frame that makes a session push a message has the message in it, and the session's device has
    sent it. -/
theorem handleFrame_pushes {id : UInt64} {kind : FrameKind} {payload : Bytes} {ok : Bool}
    {nowMs : UInt64} {m : EncryptedMessage} {now : UInt64} {answer : RelayAnswer}
    (h : (w.handleFrame k s id kind payload ok nowMs).1 = .relay (.push m now) answer) :
    kind = .encryptedMessage ∧ EncryptedMessage.decode payload = .ok m ∧
      m.senderDeviceId = s.device ∧ now = nowMs := by
  cases kind with
  | encryptedMessage =>
    unfold WireState.handleFrame at h
    dsimp only at h
    split at h
    · cases h
    · rename_i message hdecode
      split at h
      · cases h
      · rename_i hsender
        obtain ⟨hpush, -⟩ := Effect.relay.inj h
        obtain ⟨rfl, rfl⟩ := RelayOp.push.inj hpush
        exact ⟨rfl, hdecode, not_not.mp hsender, rfl⟩
  | ping =>
    unfold WireState.handleFrame at h
    dsimp only at h
    split at h
    · cases h
    · cases h
  | messageAck =>
    unfold WireState.handleFrame at h
    dsimp only at h
    split at h
    · cases h
    · cases h
  | pong => cases h
  | clientHello => cases h
  | messageBatch => cases h
  | preKeyBundle => cases h
  | preKeyRequest => cases h

/-- A session pushes what it reads, and only if its device has sent it. -/
theorem sessionStep_pushes {input : WireInput} {m : EncryptedMessage} {now : UInt64}
    {answer : RelayAnswer} (h : (w.sessionStep k s input).1 = .relay (.push m now) answer) :
    ∃ bytes ok, input = .read (some (.binary bytes)) ok now ∧ Encloses bytes m ∧
      m.senderDeviceId = s.device := by
  unfold WireState.sessionStep at h
  cases input with
  | next ok nowMs =>
    dsimp only at h
    split at h
    · cases h
    · exact absurd h (advance_pushes_nothing ok nowMs)
  | timeout ok =>
    dsimp only at h
    repeat' split at h
    all_goals cases h
  | read message ok nowMs =>
    dsimp only at h
    split at h
    · cases h
    · rename_i id hphase
      cases message with
      | none => cases h
      | some message =>
        cases message with
        | binary bytes =>
          dsimp only [WireState.handle] at h
          split at h
          · cases h
          · cases hframe : Frame.fromBytes bytes with
            | error e =>
              rw [hframe] at h
              cases h
            | ok frame =>
              rw [hframe] at h
              dsimp only at h
              cases hkind : frame.kind with
              | error e =>
                rw [hkind] at h
                cases h
              | ok kind =>
                rw [hkind] at h
                obtain ⟨rfl, hdecode, hsender, rfl⟩ := handleFrame_pushes h
                exact ⟨bytes, ok, rfl, ⟨frame, hframe, hkind, hdecode⟩, hsender⟩
        | text bytes => cases h
        | ping bytes => cases h
        | pong bytes => cases h
        | close => cases h
    · cases h

end

section
variable {sha : Sha256} {ed : Ed25519} {json : Json} {s : ServerState} {m : EncryptedMessage}

/-- **Who brings a message in is its sender.** -/
theorem brings_of_effect {e : ServerEvent} {nowMs : UInt64}
    (h : .relay (.push m nowMs) (.pushed .accepted) ∈
      gatewayAnswers e (serverStep sha ed json s e).1) :
    Brings m e (serverStep sha ed json s e).1 ∧
      actor s.wire.gateway.devices e (serverStep sha ed json s e).1 = some m.senderDeviceId := by
  cases e with
  | request r =>
    obtain ⟨reply, -, hstep⟩ | ⟨handler, -, hstep⟩ := serverStep_request sha ed json s r
    · rw [hstep] at h
      cases h
    · rw [hstep] at h
      cases h
  | serve i nowMs' =>
    obtain ⟨-, hstep⟩ | ⟨handler, -, hstep⟩ := serverStep_serve sha ed json s i nowMs'
    · rw [hstep] at h
      cases h
    · rw [hstep] at h ⊢
      have heffect := Option.mem_toList.mp h
      obtain ⟨call, store⟩ := handler
      cases store with
      | push message =>
        have heffect : some (Effect.relay (.push message nowMs')
            (.pushed (s.wire.gateway.push message nowMs' none).1)) = some _ := heffect
        obtain ⟨hpush, hanswer⟩ := Effect.relay.inj (Option.some.inj heffect)
        obtain ⟨rfl, rfl⟩ := RelayOp.push.inj hpush
        refine ⟨?_, rfl⟩
        show Brings message _ (.served _ (.pushed (s.wire.gateway.push message nowMs' none).1))
        rw [RelayAnswer.pushed.inj hanswer]
        exact .handler rfl
      | pull device => cases Option.some.inj heffect
      | ack device messageId => cases Option.some.inj heffect
      | upgrade device => cases Option.some.inj heffect
      | publish device publication => cases heffect
      | getActive device => cases heffect
      | revoke device generation => cases heffect
      | claimOpk recipient generation keyId claimant requestId => cases heffect
  | route i =>
    obtain ⟨-, hstep⟩ | ⟨task, -, hstep⟩ := serverStep_route sha ed json s i
    · rw [hstep] at h
      cases h
    · rw [hstep] at h
      cases List.mem_singleton.mp h
  | session k input =>
    obtain ⟨-, hstep⟩ | ⟨session, hs, hstep⟩ := serverStep_session sha ed json s k input
    · rw [hstep] at h
      cases h
    · rw [hstep] at h ⊢
      have heffect := List.mem_singleton.mp h
      obtain ⟨bytes, ok, rfl, hbytes, hsender⟩ := sessionStep_pushes heffect.symm
      dsimp only
      rw [← heffect]
      exact ⟨.session hbytes, by rw [hsender]; exact devices_getElem hs⟩

/-- The gateway without bytes makes one step at most. -/
theorem gatewayEvents_toList (s : ServerState) (e : ServerEvent) :
    ∃ event : Option Event, gatewayEvents s e = event.toList := by
  cases e with
  | request r => exact ⟨none, rfl⟩
  | serve i nowMs => exact ⟨_, rfl⟩
  | route i => exact ⟨_, rfl⟩
  | session k input => exact ⟨_, rfl⟩

/-- A poll is answered with what is stored for its device. -/
theorem pulled_stored {e : ServerEvent} {handler : Handler} {messages : List EncryptedMessage}
    (h : (serverStep sha ed json s e).1 = .served handler (.pulled messages)) :
    ∃ device nowMs, handler.store = .pull device ∧
      messages = (s.wire.gateway.relay.pull device nowMs).1 := by
  cases e with
  | request r =>
    obtain ⟨reply, -, hstep⟩ | ⟨handler', -, hstep⟩ := serverStep_request sha ed json s r
    · rw [hstep] at h
      cases h
    · rw [hstep] at h
      cases h
  | serve i nowMs =>
    obtain ⟨-, hstep⟩ | ⟨⟨call, store⟩, -, hstep⟩ := serverStep_serve sha ed json s i nowMs
    · rw [hstep] at h
      cases h
    · rw [hstep] at h
      obtain ⟨rfl, hanswer⟩ := ServerAnswer.served.inj h
      cases store with
      | pull device => exact ⟨device, nowMs, rfl, (StoreAnswer.pulled.inj hanswer).symm⟩
      | push message => cases hanswer
      | ack device messageId => cases hanswer
      | upgrade device => cases hanswer
      | publish device publication => cases hanswer
      | getActive device => cases hanswer
      | revoke device generation => cases hanswer
      | claimOpk recipient generation keyId claimant requestId => cases hanswer
  | route i =>
    obtain ⟨-, hstep⟩ | ⟨task, -, hstep⟩ := serverStep_route sha ed json s i
    · rw [hstep] at h
      cases h
    · rw [hstep] at h
      cases h
  | session k input =>
    obtain ⟨-, hstep⟩ | ⟨session, -, hstep⟩ := serverStep_session sha ed json s k input
    · rw [hstep] at h
      cases h
    · rw [hstep] at h
      cases h

/-! ### What is known of all that is under way -/

/-- A session keeps its device. -/
theorem actor_append {devices : List Id16} {e : ServerEvent} {answer : ServerAnswer} {device : Id16}
    (h : actor devices e answer = some device) (more : List Id16) :
    actor (devices ++ more) e answer = some device := by
  cases e with
  | session k input =>
    have hk : devices[k]? = some device := h
    show (devices ++ more)[k]? = some device
    rwa [List.getElem?_append_left (List.getElem?_eq_some_iff.mp hk).1]
  | serve i nowMs => cases answer <;> exact h
  | request r => exact h
  | route i => exact h

theorem actor_concat {log : List (ServerEvent × ServerAnswer)} {e : ServerEvent}
    {answer : ServerAnswer} {device : Id16}
    (h : actor ((servedHandlers log).filterMap Handler.upgraded) e answer = some device)
    (step : ServerEvent × ServerAnswer) :
    actor ((servedHandlers (log ++ [step])).filterMap Handler.upgraded) e answer =
      some device := by
  rw [servedHandlers, List.filterMap_append, List.filterMap_append]
  exact actor_append h _

theorem Origin.mono {log : List (ServerEvent × ServerAnswer)} (h : Origin log m)
    (step : ServerEvent × ServerAnswer) : Origin (log ++ [step]) m := by
  obtain ⟨e, answer, hmem, hbrings, hactor⟩ := h
  exact ⟨e, answer, List.mem_append_left _ hmem, hbrings, actor_concat hactor step⟩

/-- Whatever is stored or under way has its origin, and so has what polls have been answered. -/
structure Traced (log : List (ServerEvent × ServerAnswer)) (s : ServerState) : Prop where
  carries : Carries (fun _ => Origin log) s.wire.gateway
  polled : ∀ e handler messages, (e, .served handler (.pulled messages)) ∈ log →
    ∀ m ∈ messages, Origin log m ∧ handler.store.caller = some m.recipientDeviceId

/-- **Step.** -/
theorem Traced.step {log : List (ServerEvent × ServerAnswer)}
    (hcarries : Carries (fun _ => ValidMessage) s.wire.gateway)
    (hrelay : Accounted s.wire.gateway.relay)
    (haccount : Accountable sha ed json log s) (h : Traced log s) (e : ServerEvent) :
    Traced (log ++ [(e, (serverStep sha ed json s e).1)]) (serverStep sha ed json s e).2 := by
  obtain ⟨hgateway, hanswers⟩ := serverStep_gateway sha ed json hcarries e
  have hearlier := h.carries.mono fun _ m hm => hm.mono (e, (serverStep sha ed json s e).1)
  constructor
  · rw [hgateway]
    obtain ⟨event, hevent⟩ := gatewayEvents_toList s e
    rw [hevent] at hanswers ⊢
    cases event with
    | none => exact hearlier
    | some event =>
      refine hearlier.step fun m nowMs heffect => ?_
      -- the message is brought in by this very step
      have hmem : .relay (.push m nowMs) (.pushed .accepted) ∈
          gatewayAnswers e (serverStep sha ed json s e).1 := by
        rw [hanswers]
        exact List.mem_singleton.mpr heffect.symm
      obtain ⟨hbrings, hactor⟩ := brings_of_effect hmem
      rw [haccount.sessions] at hactor
      exact ⟨e, _, List.mem_append_right _ (List.mem_singleton.mpr rfl), hbrings,
        actor_concat hactor _⟩
  · intro e' handler messages hmem m hm
    rcases List.mem_append.mp hmem with hold | hnew
    · obtain ⟨horigin, hcaller⟩ := h.polled e' handler messages hold m hm
      exact ⟨horigin.mono _, hcaller⟩
    · obtain ⟨rfl, hanswer⟩ := Prod.mk.inj (List.mem_singleton.mp hnew)
      obtain ⟨device, nowMs, hstore, rfl⟩ := pulled_stored hanswer.symm
      rw [hstore, pulled_addressed hrelay hm]
      refine ⟨?_, rfl⟩
      rw [pull_answer] at hm
      obtain ⟨x, hx, rfl⟩ := List.mem_map.mp hm
      exact hearlier.stored device x (List.mem_filter.mp hx).1

/-- **Run.** -/
theorem run_traced (sha : Sha256) (ed : Ed25519) (json : Json) (events : List ServerEvent) :
    Traced (trace (serverStep sha ed json) ServerState.start events)
      (serving sha ed json events) := by
  have hrelay (pre : List ServerEvent) :
      Accounted (serving sha ed json pre).wire.gateway.relay := by
    rw [serving_gateway]
    exact (run_ledger _).accounted
  refine history_invariant ⟨Carries.start _, fun e handler messages h => ?_⟩ events fun pre e _ h =>
    h.step (serving_carries sha ed json pre) (hrelay pre) (run_accountable sha ed json pre) e
  cases h

theorem Spells.message {method path body : Bytes} (h : Spells json method path body (.push m)) :
    json.message body = some m := by
  cases h with
  | push hbody => exact hbody

theorem upgraded_store {handler : Handler} {device : Id16} (h : handler.upgraded = some device) :
    handler.store = .upgrade device := by
  unfold Handler.upgraded at h
  split at h
  · rename_i d hstore
    rw [hstore, Option.some.inj h]
  · cases h

/-- A handler that calls in the name of a device has a signed request behind it. -/
theorem Authorised.of_caller {handler : Handler} {device : Id16}
    (h : Authorised sha ed json handler) (hcaller : handler.store.caller = some device) :
    ∃ r, SignedFor sha ed json handler r ∧ r.deviceId = device := by
  obtain ⟨d, rfl⟩ | ⟨r, hr⟩ := h
  · cases hcaller
  · exact ⟨r, hr, Option.some.inj (hr.caller.symm.trans hcaller)⟩

/-- **Messages come from their senders.**  In every run of the server, each message that the peer of
    a session reads from its websocket is addressed to the device of the session, and each message
    in the reply to a poll to the device that was authenticated.  And each of them was brought in by
    its sender, which had signed a request for it: one with the message in its body, or one for the
    websocket from which a frame with the message in it was read. -/
theorem messages_come_from_their_senders (sha : Sha256) (ed : Ed25519) (json : Json)
    (events : List ServerEvent) :
    let log := trace (serverStep sha ed json) ServerState.start events
    let w := (serving sha ed json events).wire
    (∀ k : Fin w.gateway.sessions.length, ∀ m ∈ (w.sent k).filterMap WsMessage.message,
      m.recipientDeviceId = (w.gateway.sessions.get k).device ∧ Origin log m) ∧
    (∀ e handler messages, (e, .served handler (.pulled messages)) ∈ log → ∀ m ∈ messages,
      handler.store.caller = some m.recipientDeviceId ∧ Origin log m) ∧
    ∀ m, Origin log m → ∃ handler r, handler ∈ servedHandlers log ∧
      SignedFor sha ed json handler r ∧ r.deviceId = m.senderDeviceId ∧
      (json.message r.body = some m ∨
        ∃ k bytes ok nowMs answer, ((servedHandlers log).filterMap Handler.upgraded)[k]? =
          some m.senderDeviceId ∧ handler.store = .upgrade m.senderDeviceId ∧ Encloses bytes m ∧
          (.session k (.read (some (.binary bytes)) ok nowMs), answer) ∈ log) := by
  intro log w
  have htraced := run_traced sha ed json events
  have haccount := run_accountable sha ed json events
  have hauthorised : ∀ handler ∈ servedHandlers log, Authorised sha ed json handler :=
    fun handler h => haccount.authorised handler
      (haccount.conserved.mem_iff.mpr (List.mem_append_left _ h))
  refine ⟨fun k m hm => ?_, fun e handler messages hlog m hm => ?_, fun m horigin => ?_⟩
  · have hsession : w.gateway.sessions[k.val]? = some (w.gateway.sessions.get k) :=
      List.getElem?_eq_getElem k.isLt
    rw [((serving_told sha ed json events).transcript k _ hsession).reads] at hm
    have hheld := held_of_socket hm
    refine ⟨?_, htraced.carries.sessions k _ hsession m hheld⟩
    have haddressed := run_addressed
      (emitted (serverStep sha ed json) gatewayEvents ServerState.start events)
    rw [← serving_gateway] at haddressed
    exact haddressed.sessions k _ hsession m hheld
  · obtain ⟨horigin, hcaller⟩ := htraced.polled e handler messages hlog m hm
    exact ⟨hcaller, horigin⟩
  · obtain ⟨e, answer, hmem, hbrings, hactor⟩ := horigin
    cases hbrings with
    | @handler i nowMs handler hstore =>
      have hserved : handler ∈ servedHandlers log := List.mem_filterMap.mpr ⟨_, hmem, rfl⟩
      obtain ⟨r, hr, hsender⟩ := (hauthorised handler hserved).of_caller hactor
      have hasks := hr.asks
      rw [hstore] at hasks
      exact ⟨handler, r, hserved, hr, hsender, .inl hasks.message⟩
    | @session k bytes ok nowMs hbytes =>
      -- the session was started by an upgrade of its device
      have hk : ((servedHandlers log).filterMap Handler.upgraded)[k]? = some m.senderDeviceId :=
        hactor
      obtain ⟨handler, hserved, hupgraded⟩ := List.mem_filterMap.mp (List.mem_of_getElem? hk)
      have hstore := upgraded_store hupgraded
      obtain ⟨r, hr, hsender⟩ := (hauthorised handler hserved).of_caller (by rw [hstore]; rfl)
      exact ⟨handler, r, hserved, hr, hsender, .inr ⟨k, bytes, ok, nowMs, _, hk, hstore, hbytes,
        hmem⟩⟩

end

end NexaMessenger.Gateway
