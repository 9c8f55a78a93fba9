import NexaMessenger.Gateway.HandOver
import NexaMessenger.Gateway.Numbers

namespace NexaMessenger.Gateway

open Lib Relay

/-!
# Gateway — delivery to a websocket session

What the peer of a session gets, whatever other sessions of its device there were or are.

* `nothing_falls_between`: as long as the entry of the device is the session's, a message whose
  `try_send` has run is in the backlog of the session or comes through its channel, unless it was
  acknowledged or expired before the pull.  It needs room for every message that is routed, and
  ids that are not used twice.
* `delivered_at_most_once`: no message is written to the socket twice, as long as no message of
  the backlog is routed after `activate`.  `late_route_delivers_twice` is a run where one is:
  `push` and `try_send` are two steps, and the session can pull, write and activate between them.
-/

/-- The phases of a session that has activated its connection. -/
def Phase.active : Phase → Bool
  | .live _ | .routing _ => true
  | _ => false

/-- The phases of a session that has pulled its backlog and not left. -/
def Phase.pulled : Phase → Bool
  | .sending _ _ _ | .live _ | .routing _ => true
  | _ => false

/-- The phases of a session for which nothing waits in the entry any more. -/
def Phase.settled : Phase → Bool
  | .live _ | .routing _ | .leaving _ | .closed => true
  | _ => false

/-- The end of a task leaves a session its device and its backlog, and in the same part of its
    course. -/
theorem route_session (v : View) (m : EncryptedMessage) (own : Bool) :
    (v.route m own).session.device = v.session.device ∧
      (v.route m own).session.backlog = v.session.backlog ∧
      (v.route m own).session.phase.pulled = v.session.phase.pulled ∧
      (v.route m own).session.phase.settled = v.session.phase.settled := by
  have hresume (v : View) : v.resume.session.device = v.session.device ∧
      v.resume.session.backlog = v.session.backlog ∧
      v.resume.session.phase.pulled = v.session.phase.pulled ∧
      v.resume.session.phase.settled = v.session.phase.settled := by
    obtain ⟨entry, channel, ⟨device, phase, backlog, received, socket⟩⟩ := v
    cases phase <;> exact ⟨rfl, rfl, rfl, rfl⟩
  have harrive : (if m.recipientDeviceId = v.session.device then v.arrive m else v).session =
      v.session := by
    split <;> rfl
  unfold View.route
  dsimp only
  generalize (if m.recipientDeviceId = v.session.device then v.arrive m else v) = w at harrive ⊢
  rw [← harrive]
  cases own
  · exact ⟨rfl, rfl, rfl, rfl⟩
  · exact hresume _

theorem route_entry (v : View) (m : EncryptedMessage) (own : Bool) :
    (v.route m own).entry =
      (if m.recipientDeviceId = v.session.device then v.arrive m else v).entry := by
  have hresume (v : View) : v.resume.entry = v.entry := by
    obtain ⟨entry, channel, ⟨device, phase, backlog, received, socket⟩⟩ := v
    cases phase <;> rfl
  unfold View.route
  cases own
  · rfl
  · exact hresume _

/-! ### Nothing falls between backlog and channel -/

/-- The place to which a message for the device is routed now has room for it. -/
def GatewayState.hasRoom (g : GatewayState) (device : Id16) : Bool :=
  (g.connections.inner.lookup device).all fun c =>
    if c.ready then (g.channels c.sender).queue.length < liveChannelCapacity
    else c.pending.length < liveChannelCapacity

/-- If the event is the `try_send` of a message for the device, there is room for it. -/
def routesWithRoom (device : Id16) (g : GatewayState) : Event → Bool
  | .route i => (g.tasks[i]?).all fun task =>
      task.message.recipientDeviceId ≠ device || g.hasRoom device
  | _ => true

/-- A message was acknowledged or expired before session `k` pulled its backlog. -/
def LostBeforePull (k : Nat) (m : EncryptedMessage) (log : List (Event × Effect)) : Prop :=
  ∃ pre input now backlog post,
    log = pre ++ (.session k input,
      .relay (.pull m.recipientDeviceId now) (.pulled backlog)) :: post ∧
    ∃ calls since later, relayLog pre = calls ++ (.push m since, .pushed .accepted) :: later ∧
      Lost m since (later ++ [(.pull m.recipientDeviceId now, .pulled backlog)])

theorem LostBeforePull.concat {k : Nat} {m : EncryptedMessage} {log : List (Event × Effect)}
    (h : LostBeforePull k m log) (entry : Event × Effect) :
    LostBeforePull k m (log ++ [entry]) := by
  obtain ⟨pre, input, now, backlog, post, rfl, hlost⟩ := h
  exact ⟨pre, input, now, backlog, post ++ [entry], by simp, hlost⟩

theorem routed_concat (log : List (Event × Effect)) (e : Event) (effect : Effect) :
    routed (log ++ [(e, effect)]) = routed log ++ routed [(e, effect)] := routed_append _ _

theorem routed_none {e : Event} {effect : Effect} (h : ∀ m, effect ≠ .routed m) :
    routed [(e, effect)] = [] := by
  cases effect with
  | routed m => exact absurd rfl (h m)
  | _ => rfl

/-- A task that ends has routed its own message. -/
theorem task_of_routed {g : GatewayState} {i : Nat} {m : EncryptedMessage}
    (h : (gatewayStep g (.route i)).1 = .routed m) :
    ∃ task, g.tasks[i]? = some task ∧ task.message = m := by
  obtain ⟨task, htask, hstep⟩ | ⟨-, hstep⟩ := gatewayStep_route g i
  · rw [hstep] at h
    exact ⟨task, htask, Effect.routed.inj h⟩
  · rw [hstep] at h
    exact Effect.noConfusion h

/-- As long as the entry is there, what is held stays held, but for the messages of the backlog at
    `activate`. -/
theorem Moves.mem_holding {k : Nat} {v v' : View} {e : Event} {effect : Effect} (h : Stage v)
    (hmove : Moves k v e effect v') (hpulled : v'.session.phase.pulled = true)
    (hentry : v'.entry.isSome = true) {m : EncryptedMessage} (hm : m ∈ v.holding) :
    m ∈ v'.holding ∨ ∃ b ∈ v'.session.backlog, b.messageId = m.messageId := by
  cases hmove with
  | still => exact .inl hm
  | routes i m own =>
    obtain ⟨sent, -, hholding⟩ := route_holding v m own
    rw [hholding]
    exact .inl (List.mem_append_left _ hm)
  | enters _ _ _ phase hphase =>
    obtain ⟨entry, channel, ⟨device, before, backlog, received, socket⟩⟩ := v
    cases hphase with
    | routing id => exact .inl hm
    | _ => exact Bool.noConfusion hpulled
  | registers _ id hphase => exact Bool.noConfusion hpulled
  | pulls input id now pulled hphase =>
    obtain ⟨entry, channel, ⟨device, before, backlog, received, socket⟩⟩ := v
    obtain rfl : before = .greeted id := hphase
    exact .inl hm
  | writes _ id delivered m' rest hphase =>
    obtain ⟨entry, channel, ⟨device, before, backlog, received, socket⟩⟩ := v
    obtain rfl : before = .sending id delivered (m' :: rest) := hphase
    exact .inl hm
  | activates _ id delivered c hphase hstate =>
    rw [h.activate_holding hphase hstate]
    -- a message leaves only if the backlog has its id
    by_cases hin : m.messageId ∈ v.session.backlog.map (·.messageId)
    · obtain ⟨b, hb, hid⟩ := List.mem_map.mp hin
      exact .inr ⟨b, hb, hid⟩
    · exact .inl (List.mem_filter.mpr ⟨hm, decide_eq_true hin⟩)
  | receives _ id m' rest ok hphase hqueue =>
    obtain ⟨entry, channel, ⟨device, before, backlog, received, socket⟩⟩ := v
    obtain rfl : before = .live id := hphase
    have hqueue : channel.queue = m' :: rest := hqueue
    cases ok
    · exact Bool.noConfusion hpulled
    · left
      have hm : m ∈ received ++ channel.queue := hm
      rw [hqueue] at hm
      show m ∈ (received ++ [m']) ++ rest
      rw [List.append_assoc]
      exact hm
  | strays _ id delivered hphase hnone =>
    rw [show (v.enter (.live id)).entry = none from hnone] at hentry
    exact Bool.noConfusion hentry
  | closes _ entry => exact Bool.noConfusion hpulled
  | loses => exact Bool.noConfusion hentry

/-- An entry that is there after a move of a session that has pulled was there before. -/
theorem Moves.entry_isSome {k : Nat} {v v' : View} {e : Event} {effect : Effect}
    (hmove : Moves k v e effect v') (hpulled : v'.session.phase.pulled = true)
    (hentry : v'.entry.isSome = true) : v.entry.isSome = true := by
  cases hmove with
  | still => exact hentry
  | routes i m own =>
    rw [route_entry] at hentry
    split at hentry
    · rwa [View.arrive, Option.isSome_map] at hentry
    · exact hentry
  | enters => exact hentry
  | registers => exact Bool.noConfusion hpulled
  | pulls => exact hentry
  | writes => exact hentry
  | activates _ id delivered c hphase hstate => rw [hstate]; rfl
  | receives => exact hentry
  | strays => exact hentry
  | closes => exact Bool.noConfusion hpulled
  | loses => exact Bool.noConfusion hentry

/-- With room, a message that comes to the entry of a session that has pulled is held. -/
theorem Stage.mem_arrive {k : Nat} {g : GatewayState} {s : Session} (h : Stage (g.view k s))
    (hpulled : s.phase.pulled = true) (hentry : (g.view k s).entry.isSome = true)
    (hroom : g.hasRoom s.device = true) (m : EncryptedMessage) :
    m ∈ ((g.view k s).arrive m).holding := by
  obtain ⟨c, hc⟩ := Option.isSome_iff_exists.mp hentry
  obtain ⟨hlook, hsender⟩ := (own_eq_some _ _ _).mp hc
  obtain ⟨device, phase, backlog, received, socket⟩ := s
  rw [GatewayState.hasRoom, show g.connections.inner.lookup device = some c from hlook,
    Option.all_some, hsender] at hroom
  have hown : g.connections.own k device = some c := hc
  -- an active session gets it in its channel
  have hactive (h : (∀ c, (g.connections.own k device) = some c → c.ready = true) ∧
      (g.channels k).closed = false ∧ socket = backlog ++ received) :
      m ∈ received ++ (if (g.connections.own k device).any (·.ready) then
        (g.channels k).trySend m else g.channels k).queue := by
    have hready := h.1 c hown
    rw [if_pos hready] at hroom
    have hqueue := trySend_of_room h.2.1 (of_decide_eq_true hroom) m
    rw [hown, if_pos (by simpa using hready), hqueue]
    simp
  cases phase with
  | sending id delivered rest =>
    -- one that writes its backlog, in its entry
    obtain ⟨hready, -⟩ := h.1.1 c hc
    rw [hready, if_neg Bool.false_ne_true] at hroom
    have hfits : c.pending.length < liveChannelCapacity := of_decide_eq_true hroom
    show m ∈ (((g.connections.own k device).map (·.keep m)).map (·.pending)).getD []
    rw [hown]
    show m ∈ (c.keep m).pending
    rw [ConnectionState.keep, if_neg (by simpa [hready] using hfits)]
    exact List.mem_append_right _ (List.mem_singleton.mpr rfl)
  | live id => exact hactive h
  | routing id => exact hactive h
  | _ => exact Bool.noConfusion hpulled

/-- What is known of a session and of the messages routed so far. -/
structure Covered (k : Nat) (log : List (Event × Effect)) (v : View) : Prop where
  stage : Stage v
  backlog : ∀ m ∈ v.session.backlog, m ∈ accepted (relayLog log)
  /-- as long as the entry is its own, nothing is missing -/
  covered : v.session.phase.pulled = true → v.entry.isSome = true → ∀ m ∈ routed log,
    m.recipientDeviceId = v.session.device →
      m ∈ v.session.backlog ∨ m ∈ v.holding ∨ LostBeforePull k m log

/-- A message that was routed before the pull is pulled, unless it is lost: it was accepted before
    it was routed, and the store still has it. -/
theorem pulled_or_lost {log : List (Event × Effect)} {g : GatewayState} (h : Ledger log g)
    {m : EncryptedMessage} (hm : m ∈ routed log) (k : Nat) (input : SessionInput) (now : UInt64)
    (rest : List (Event × Effect)) :
    m ∈ (g.relay.pull m.recipientDeviceId now).1 ∨
      LostBeforePull k m (log ++ (.session k input, .relay (.pull m.recipientDeviceId now)
        (.pulled (g.relay.pull m.recipientDeviceId now).1)) :: rest) := by
  obtain ⟨calls, since, later, hcalls⟩ := exists_of_mem_accepted (h.accepted_of_routed hm)
  by_cases hlost : Lost m since (later ++ [(.pull m.recipientDeviceId now,
    .pulled (g.relay.pull m.recipientDeviceId now).1)])
  · exact .inr ⟨log, input, now, _, rest, rfl, calls, since, later, hcalls, hlost⟩
  · left
    have hqueue := h.retains.all calls m since later hcalls fun ⟨call, hcall, hwhy⟩ =>
      hlost ⟨call, List.mem_append_left _ hcall, hwhy⟩
    refine mem_pull hqueue (UInt64.not_le.mp fun hexpired => hlost ?_)
    exact ⟨_, List.mem_append_right _ (List.mem_singleton.mpr rfl), .inr ⟨now, rfl, hexpired⟩⟩

/-- **Step.** -/
theorem Covered.move {k : Nat} {log : List (Event × Effect)} {g : GatewayState} {s : Session}
    {e : Event} {v' : View} (hledger : Ledger log g) (h : Covered k log (g.view k s))
    (hdistinct : ((accepted (relayLog log)).map (·.messageId)).Nodup)
    (hroom : routesWithRoom s.device g e = true)
    (hmove : Moves k (g.view k s) e (gatewayStep g e).1 v') :
    Covered k (log ++ [(e, (gatewayStep g e).1)]) v' := by
  have hflows := gatewayStep_flows g e
  generalize heffect : (gatewayStep g e).1 = effect at hmove hflows ⊢
  have hstage := h.stage.move hmove
  have hgrows : ∀ m ∈ accepted (relayLog log), m ∈ accepted (relayLog (log ++ [(e, effect)])) := by
    intro m hm
    rw [relayLog_append, accepted_append]
    exact List.mem_append_left _ hm
  have hsome (hpulled : v'.session.phase.pulled = true) (hentry : v'.entry.isSome = true) :
      (g.view k s).entry.isSome = true := hmove.entry_isSome hpulled hentry
  -- a message of the past stays covered when the backlog does not change
  have hpast (hpulled : v'.session.phase.pulled = true) (hentry : v'.entry.isSome = true)
      (hold : s.phase.pulled = true) (hbacklog : v'.session.backlog = s.backlog)
      (m : EncryptedMessage) (hm : m ∈ routed log) (hrecipient : m.recipientDeviceId = s.device) :
      m ∈ v'.session.backlog ∨ m ∈ v'.holding ∨ LostBeforePull k m (log ++ [(e, effect)]) := by
    rcases h.covered hold (hsome hpulled hentry) m hm hrecipient with
      hin | hheld | hlost
    · rw [hbacklog]; exact .inl hin
    · rcases hmove.mem_holding h.stage hpulled hentry hheld with hheld | ⟨b, hb, hid⟩
      · exact .inr (.inl hheld)
      · -- the message of the backlog under this id is the same message
        left
        rw [hbacklog] at hb
        have hsame : b = m := List.inj_on_of_nodup_map hdistinct (h.backlog b hb)
          (hledger.accepted_of_routed hm) hid
        rw [hbacklog, ← hsame]
        exact hb
    · exact .inr (.inr (hlost.concat _))
  cases hmove with
  | still _ _ hnot =>
    refine ⟨hstage, fun m hm => hgrows m (h.backlog m hm), ?_⟩
    intro hpulled hentry m hm hrecipient
    rw [routed_concat, routed_none hnot, List.append_nil] at hm
    exact hpast hpulled hentry hpulled rfl m hm hrecipient
  | routes i m own =>
    obtain ⟨hdevice, hbacklog, hphase, -⟩ := route_session (g.view k s) m own
    refine ⟨hstage, ?_, ?_⟩
    · intro b hb
      rw [hbacklog] at hb
      exact hgrows b (h.backlog b hb)
    · intro hpulled hentry m' hm' hrecipient
      have hold : s.phase.pulled = true := hphase.symm.trans hpulled
      rw [hdevice] at hrecipient
      rw [routed_concat] at hm'
      rcases List.mem_append.mp hm' with hm' | hnew
      · exact hpast hpulled hentry hold hbacklog m' hm' hrecipient
      · -- the message of the task finds room
        obtain rfl : m' = m := List.mem_singleton.mp hnew
        obtain ⟨task, htask, rfl⟩ := task_of_routed heffect
        rw [routesWithRoom, htask, Option.all_some] at hroom
        right; left
        rw [route_holding_eq, if_pos hrecipient]
        apply h.stage.mem_arrive hold (hsome hpulled hentry)
        simpa [show task.message.recipientDeviceId = s.device from hrecipient] using hroom
  | enters _ _ hnot phase hphase =>
    refine ⟨hstage, fun m hm => hgrows m (h.backlog m hm), ?_⟩
    intro hpulled hentry m hm hrecipient
    rw [routed_concat, routed_none hnot, List.append_nil] at hm
    refine hpast hpulled hentry ?_ rfl m hm hrecipient
    obtain ⟨device, before, backlog, received, socket⟩ := s
    cases hphase with
    | routing id => rfl
    | _ => exact Bool.noConfusion hpulled
  | registers _ id hphase =>
    refine ⟨hstage, fun m hm => hgrows m (h.backlog m hm), ?_⟩
    intro hpulled
    exact Bool.noConfusion hpulled
  | pulls input id now pulled hphase =>
    -- what the session pulls was accepted, and what was routed before is pulled
    obtain ⟨hanswer, -, -⟩ := hflows
    obtain rfl : pulled = (g.relay.pull s.device now).1 := RelayAnswer.pulled.inj hanswer
    refine ⟨hstage, ?_, ?_⟩
    · intro m hm
      exact hgrows m ((pull_accepted hledger.retains hledger.accounted s.device now).1 m hm).1
    · intro _ _ m hm hrecipient
      have hrecipient : m.recipientDeviceId = s.device := hrecipient
      rw [routed_concat, routed_none fun m => Effect.noConfusion, List.append_nil] at hm
      have hcovered := pulled_or_lost hledger hm k input now []
      rw [hrecipient] at hcovered
      exact hcovered.imp_right .inr
  | writes _ id delivered m rest hphase =>
    refine ⟨hstage, fun m hm => hgrows m (h.backlog m hm), ?_⟩
    intro hpulled hentry m hm hrecipient
    rw [routed_concat, routed_none quiet_ne, List.append_nil] at hm
    refine hpast hpulled hentry ?_ rfl m hm hrecipient
    rw [show s.phase = .sending id delivered (_ :: rest) from hphase]
    rfl
  | activates _ id delivered c hphase =>
    refine ⟨hstage, fun m hm => hgrows m (h.backlog m hm), ?_⟩
    intro hpulled hentry m hm hrecipient
    rw [routed_concat, routed_none quiet_ne, List.append_nil] at hm
    refine hpast hpulled hentry ?_ rfl m hm hrecipient
    rw [show s.phase = .sending id delivered [] from hphase]
    rfl
  | receives _ id m rest ok hphase hqueue =>
    refine ⟨hstage, fun m hm => hgrows m (h.backlog m hm), ?_⟩
    intro hpulled hentry m hm hrecipient
    rw [routed_concat, routed_none quiet_ne, List.append_nil] at hm
    refine hpast hpulled hentry ?_ rfl m hm hrecipient
    rw [show s.phase = .live id from hphase]
    rfl
  | strays _ id delivered hphase hnone =>
    refine ⟨hstage, fun m hm => hgrows m (h.backlog m hm), ?_⟩
    intro hpulled hentry
    rw [show ((g.view k s).enter (.live id)).entry = none from hnone] at hentry
    exact Bool.noConfusion hentry
  | closes _ entry =>
    refine ⟨hstage, fun m hm => hgrows m (h.backlog m hm), ?_⟩
    intro hpulled
    exact Bool.noConfusion hpulled
  | loses =>
    refine ⟨hstage, fun m hm => hgrows m (h.backlog m hm), ?_⟩
    intro _ hentry
    exact Bool.noConfusion hentry

/-- What was accepted in the first part of a run is accepted in the run. -/
theorem accepted_sublist {pre events : List Event} (hpre : pre <+: events) :
    (accepted (relayLog (history pre))).Sublist (accepted (relayLog (history events))) := by
  obtain ⟨post, rfl⟩ := hpre
  show List.Sublist _ (accepted (relayLog (trace gatewayStep GatewayState.start (pre ++ post))))
  rw [trace_append, relayLog_append, accepted_append]
  exact List.sublist_append_left _ _

/-- **Nothing falls between backlog and channel.** Of a session that has activated its connection
    and whose entry is still there: every message for the device whose `try_send` has run, be it
    before the session was there, is in the backlog the session pulled, or it was received from the
    channel or is in it, unless it was lost before the pull; as long as ids are not used twice and
    each `try_send` finds room. -/
theorem nothing_falls_between (events : List Event) {k : Nat} {s : Session} {c : ConnectionState}
    (hs : (reached events).sessions[k]? = some s)
    (hentry : (reached events).connections.inner.lookup s.device = some c) (hown : c.sender = k)
    (hactive : s.phase.active = true)
    (hother : Along gatewayStep (fun g e => activatedByOther k g e = false) GatewayState.start
      events)
    (hdistinct : ((accepted (relayLog (history events))).map (·.messageId)).Nodup)
    (hroom : Along gatewayStep (fun g e => routesWithRoom s.device g e = true)
      GatewayState.start events) :
    ∀ m ∈ routed (history events), m.recipientDeviceId = s.device →
      ¬ LostBeforePull k m (history events) →
        m ∈ s.backlog ∨ m ∈ s.received ++ ((reached events).channels k).queue := by
  -- every move of the session keeps what was routed covered
  have hcovered : Covered k (history events) ((reached events).view k s) := by
    refine session_rule events hother ?_ ?_ s hs rfl
    · -- a new session has pulled nothing
      rintro log ⟨entry, channel, session⟩ rfl
      refine ⟨⟨rfl, rfl, rfl⟩, ?_, ?_⟩
      · intro m hm
        exact absurd hm List.not_mem_nil
      · intro hpulled
        exact Bool.noConfusion hpulled
    · intro pre e s₀ v' hpre hs₀ hdevice hcov hmove
      have hbefore : pre <+: events := (List.prefix_append _ _).trans hpre
      refine hcov.move (run_ledger pre) ?_ ?_ hmove
      · exact hdistinct.sublist ((accepted_sublist hbefore).map _)
      · rw [hdevice]
        exact hroom.at_step hpre
  intro m hm hrecipient hkept
  have hsome : ((reached events).view k s).entry.isSome = true := by
    rw [show ((reached events).view k s).entry = some c from (own_eq_some _ _ _).mpr ⟨hentry, hown⟩]
    rfl
  obtain ⟨device, phase, backlog, received, socket⟩ := s
  have hpulled : phase.pulled = true := by
    cases phase with
    | live id => rfl
    | routing id => rfl
    | _ => exact Bool.noConfusion hactive
  rcases hcovered.covered hpulled hsome m hm hrecipient with hin | hheld | hlost
  · exact .inl hin
  · right
    -- what an active session holds is what it received and what is in its channel
    cases phase with
    | live id => exact hheld
    | routing id => exact hheld
    | _ => exact Bool.noConfusion hactive
  · exact absurd hlost hkept

/-! ### A run -/

/-- The session takes its next step; the socket works. -/
def proceed (k : Nat) : Event := .session k (.next true 0)

/-- Device 2 connects and gets the hello. -/
def connected (k : Nat) : List Event := [.upgrade (idOf 2), proceed k, proceed k, proceed k]

/-- Device 2 connects again.  A message comes before the pull, and another one while the backlog is
    written. -/
def handOverRun : List Event :=
  connected 0 ++ connected 1 ++ [.enqueue (idOf 1) (letter 1 2 0) 0, .route 0, proceed 1,
    .enqueue (idOf 1) (letter 2 2 0) 0, .route 0, proceed 1, proceed 1, proceed 1]

def handOverSession : Session :=
  ⟨idOf 2, .live 2, [letter 1 2 0], [letter 2 2 0], [letter 1 2 0, letter 2 2 0]⟩

theorem handOverRun_session : (reached handOverRun).sessions[1]? = some handOverSession := by
  decide +kernel

theorem handOverRun_entry :
    (reached handOverRun).connections.inner.lookup (idOf 2) = some ⟨2, 1, true, []⟩ := by
  decide +kernel

theorem handOverRun_own :
    Along gatewayStep (fun g e => activatedByOther 1 g e = false) GatewayState.start
      handOverRun :=
  never_activatedByOther handOverRun (by decide +kernel) 1

/-- The step is a pull. -/
def Effect.isPull : Effect → Bool
  | .relay (.pull _ _) _ => true
  | _ => false

/-- What is lost before the pull was accepted before it. -/
theorem LostBeforePull.accepted {k : Nat} {m : EncryptedMessage} {log : List (Event × Effect)}
    (h : LostBeforePull k m log) :
    ∃ n < log.length, (log[n]?).any (·.2.isPull) = true ∧
      m ∈ accepted (relayLog (log.take n)) := by
  obtain ⟨pre, input, now, backlog, post, rfl, calls, since, later, hcalls, -⟩ := h
  refine ⟨pre.length, by simp, by simp [Effect.isPull], ?_⟩
  rw [List.take_left, hcalls, accepted_append]
  apply List.mem_append_right
  exact List.mem_cons_self

/-- The second message is received from the channel. -/
theorem sample_handed_over :
    letter 2 2 0 ∈ handOverSession.backlog ∨
      letter 2 2 0 ∈ handOverSession.received ++ ((reached handOverRun).channels 1).queue := by
  refine nothing_falls_between handOverRun handOverRun_session handOverRun_entry rfl rfl
    handOverRun_own (by decide +kernel) (by decide +kernel) (letter 2 2 0) (by decide +kernel)
    rfl ?_
  -- it is accepted after the only pull
  have hafter : ∀ n < (history handOverRun).length,
      ((history handOverRun)[n]?).any (·.2.isPull) = true →
        letter 2 2 0 ∉ accepted (relayLog ((history handOverRun).take n)) := by decide +kernel
  intro hlost
  obtain ⟨n, hn, hpull, hmem⟩ := hlost.accepted
  exact hafter n hn hpull hmem

/-! ### Delivered at most once -/

/-- The event is the `try_send` of a message that session `k`, now active, has in its backlog, and
    the entry of the device is the session's. -/
def lateRoute (k : Nat) (g : GatewayState) : Event → Bool
  | .route i => (g.tasks[i]?).any fun task => (g.sessions[k]?).any fun s =>
      s.phase.active && (g.connections.own k s.device).isSome && s.backlog.contains task.message
  | _ => false

/-- What is known of a session to which no message of its backlog is routed late: what is held
    for it was routed, and from `activate` on nothing of the backlog is held. -/
structure Single (log : List (Event × Effect)) (v : View) : Prop where
  stage : Stage v
  held : v.holding.Sublist (routed log)
  nodup : v.session.backlog.Nodup
  apart : v.session.phase.settled = true → ∀ m ∈ v.session.backlog, m ∉ v.holding

/-- A session has received nothing before its hand-over. -/
theorem Stage.received_nil {v : View} (h : Stage v)
    (hphase : v.session.phase.settled = false) : v.session.received = [] := by
  obtain ⟨entry, channel, ⟨device, phase, backlog, received, socket⟩⟩ := v
  cases phase with
  | upgraded => exact h.2.1
  | numbered id => exact h.2.1
  | registered id => exact h.1.2.2
  | greeted id => exact h.1.2.2
  | sending id delivered rest => exact h.1.2.2
  | _ => exact Bool.noConfusion hphase

/-- No message of the backlog is received again. -/
theorem Single.not_received {log : List (Event × Effect)} {v : View} (h : Single log v)
    {m : EncryptedMessage} (hm : m ∈ v.session.backlog) : m ∉ v.session.received := by
  intro hin
  cases hphase : v.session.phase.settled with
  | true => exact h.apart hphase m hm (h.stage.received_sublist.subset hin)
  | false =>
    rw [h.stage.received_nil hphase] at hin
    exact absurd hin List.not_mem_nil

/-- A message comes to a session in its loop or not at all, once nothing waits in the entry. -/
theorem route_settled {v : View} (hphase : v.session.phase.settled = true)
    (hactive : v.session.phase.active = false) (m : EncryptedMessage) (own : Bool) :
    (v.route m own).holding = v.session.received := by
  rw [route_holding_eq]
  obtain ⟨entry, channel, ⟨device, phase, backlog, received, socket⟩⟩ := v
  cases phase with
  | leaving id => split <;> rfl
  | closed => split <;> rfl
  | live id => exact Bool.noConfusion hactive
  | routing id => exact Bool.noConfusion hactive
  | _ => exact Bool.noConfusion hphase

/-- Without an entry of its own, nothing that is routed comes to a session in its loop. -/
theorem route_lost {v : View} (hactive : v.session.phase.active = true) (hentry : v.entry = none)
    (m : EncryptedMessage) (own : Bool) : (v.route m own).holding = v.holding := by
  rw [route_holding_eq]
  split
  · obtain ⟨entry, channel, ⟨device, phase, backlog, received, socket⟩⟩ := v
    obtain rfl : entry = none := hentry
    cases phase with
    | live id => rfl
    | routing id => rfl
    | _ => exact Bool.noConfusion hactive
  · rfl

/-- **Step.** -/
theorem Single.move {k : Nat} {log : List (Event × Effect)} {g : GatewayState} {s : Session}
    {e : Event} {v' : View} (hledger : Ledger log g) (h : Single log (g.view k s))
    (hs : g.sessions[k]? = some s) (hlate : lateRoute k g e = false)
    (hmove : Moves k (g.view k s) e (gatewayStep g e).1 v') :
    Single (log ++ [(e, (gatewayStep g e).1)]) v' := by
  have hflows := gatewayStep_flows g e
  generalize heffect : (gatewayStep g e).1 = effect at hmove hflows ⊢
  have hstage := h.stage.move hmove
  have hsublist := hmove.holding_sublist h.stage
  have hheld : v'.holding.Sublist (routed (log ++ [(e, effect)])) := by
    rw [routed_concat]
    exact hsublist.trans (h.held.append (List.Sublist.refl _))
  -- the session keeps what it received, and receives nothing of the backlog
  have hreceived (m : EncryptedMessage) (hm : m ∈ s.backlog) : m ∉ s.received := h.not_received hm
  cases hmove with
  | still => exact ⟨hstage, hheld, h.nodup, h.apart⟩
  | routes i m own =>
    obtain ⟨-, hbacklog, -, hphase⟩ := route_session (g.view k s) m own
    refine ⟨hstage, hheld, by rw [hbacklog]; exact h.nodup, ?_⟩
    intro hsettled b hb hin
    rw [hbacklog] at hb
    rw [hphase] at hsettled
    cases hactive : s.phase.active with
    | false =>
      rw [route_settled hsettled hactive] at hin
      exact hreceived b hb hin
    | true =>
      rcases List.mem_append.mp (hsublist.subset hin) with hold | hnew
      · exact h.apart hsettled b hb hold
      · -- the message of the task is in the backlog: it comes late
        obtain rfl : b = m := List.mem_singleton.mp hnew
        obtain ⟨task, htask, rfl⟩ := task_of_routed heffect
        have hb : task.message ∈ s.backlog := hb
        have hlost : g.connections.own k s.device = none := by
          simpa [lateRoute, htask, hs, hactive, hb] using hlate
        rw [route_lost hactive hlost] at hin
        exact h.apart hsettled _ hb hin
  | enters _ _ hnot phase hphase =>
    refine ⟨hstage, hheld, h.nodup, ?_⟩
    intro hsettled b hb
    obtain ⟨device, before, backlog, received, socket⟩ := s
    cases hphase with
    | routing id => exact h.apart rfl b hb
    | hello id => exact hreceived b hb
    | unsent id delivered rest => exact hreceived b hb
    | done id => exact hreceived b hb
    | _ => exact Bool.noConfusion hsettled
  | registers _ id hphase =>
    refine ⟨hstage, hheld, h.nodup, ?_⟩
    intro hsettled
    exact Bool.noConfusion hsettled
  | pulls input id now pulled hphase =>
    -- a queue of the store holds no message twice
    obtain ⟨hanswer, -, -⟩ := hflows
    obtain rfl : pulled = (g.relay.pull s.device now).1 := RelayAnswer.pulled.inj hanswer
    refine ⟨hstage, hheld, ?_, ?_⟩
    · exact (pull_accepted hledger.retains hledger.accounted s.device now).2.of_map
    · intro hsettled
      exact Bool.noConfusion hsettled
  | writes _ id delivered m rest hphase =>
    refine ⟨hstage, hheld, h.nodup, ?_⟩
    intro hsettled
    exact Bool.noConfusion hsettled
  | activates _ id delivered c hphase hentry =>
    refine ⟨hstage, hheld, h.nodup, ?_⟩
    intro _ b hb
    rw [h.stage.activate_holding hphase hentry]
    intro hin
    exact of_decide_eq_true (List.mem_filter.mp hin).2 (List.mem_map_of_mem hb)
  | receives _ id m rest ok hphase hqueue =>
    refine ⟨hstage, hheld, h.nodup, ?_⟩
    intro _ b hb hin
    have hsettled : s.phase.settled = true := by
      rw [show s.phase = .live id from hphase]
      rfl
    have hin := hsublist.subset hin
    rw [routed_none quiet_ne, List.append_nil] at hin
    exact h.apart hsettled b hb hin
  | strays _ id delivered hphase hnone =>
    refine ⟨hstage, hheld, h.nodup, ?_⟩
    intro _ b hb hin
    -- the channel is still empty, and nothing is received
    have hin := hsublist.subset hin
    rw [routed_none quiet_ne, List.append_nil] at hin
    obtain ⟨device, before, backlog, received, socket⟩ := s
    obtain rfl : before = .sending id delivered [] := hphase
    have hnone : g.connections.own k device = none := hnone
    have hin : b ∈ ((g.connections.own k device).map (·.pending)).getD [] := hin
    rw [hnone] at hin
    exact absurd hin List.not_mem_nil
  | loses =>
    refine ⟨hstage, hheld, h.nodup, ?_⟩
    intro hsettled b hb hin
    exact h.apart hsettled b hb ((lose_holding _).subset hin)
  | closes _ entry => exact ⟨hstage, hheld, h.nodup, fun _ b hb => hreceived b hb⟩

/-- **Delivered at most once.** A message that was accepted once is written to the socket of a
    session at most once, as long as no message of the backlog is routed to it after `activate`. -/
theorem delivered_at_most_once (events : List Event) {k : Nat} {s : Session}
    (hs : (reached events).sessions[k]? = some s)
    (hother : Along gatewayStep (fun g e => activatedByOther k g e = false) GatewayState.start
      events)
    (hlate : Along gatewayStep (fun g e => lateRoute k g e = false) GatewayState.start events)
    (m : EncryptedMessage) (honce : (accepted (relayLog (history events))).count m ≤ 1) :
    s.socket.count m ≤ 1 := by
  have hsingle : Single (history events) ((reached events).view k s) := by
    refine session_rule events hother ?_ ?_ s hs rfl
    · rintro log ⟨entry, channel, session⟩ rfl
      exact ⟨⟨rfl, rfl, rfl⟩, List.nil_sublist _, List.nodup_nil, fun hsettled =>
        Bool.noConfusion hsettled⟩
    · intro pre e s₀ v' hpre hs₀ _ hsingle hmove
      exact hsingle.move (run_ledger pre) hs₀ (hlate.at_step hpre) hmove
  obtain ⟨backlog, received, hbacklog, hreceived, hsocket⟩ := hsingle.stage.written
  have hsocket : s.socket = backlog ++ received := hsocket
  rw [hsocket, List.count_append]
  by_cases hin : m ∈ s.backlog
  · -- written from the backlog, once, and never received
    have hnot : m ∉ received := fun hm => hsingle.not_received hin (hreceived.subset hm)
    rw [List.count_eq_zero_of_not_mem hnot, Nat.add_zero]
    exact (hbacklog.sublist.count_le m).trans (List.nodup_iff_count_le_one.mp hsingle.nodup m)
  · have hnot : m ∉ backlog := fun hm => hin (hbacklog.subset hm)
    rw [List.count_eq_zero_of_not_mem hnot, Nat.zero_add]
    calc received.count m
        ≤ s.received.count m := hreceived.sublist.count_le m
      _ ≤ ((reached events).view k s).holding.count m :=
        hsingle.stage.received_sublist.count_le m
      _ ≤ (routed (history events)).count m := hsingle.held.count_le m
      _ ≤ (accepted (relayLog (history events))).count m := by
        rw [(run_ledger events).messages.count_eq, List.count_append]
        exact Nat.le_add_left _ _
      _ ≤ 1 := honce

/-- Each message of the run is written once. -/
theorem sample_delivered_once : handOverSession.socket.count (letter 2 2 0) ≤ 1 :=
  delivered_at_most_once handOverRun handOverRun_session handOverRun_own (by decide +kernel)
    (letter 2 2 0) (by decide +kernel)

/-- The message is pushed before the session pulls and routed after it has activated. -/
def lateRun : List Event :=
  connected 0 ++ [.enqueue (idOf 1) (letter 1 2 0) 0, proceed 0, proceed 0, proceed 0, .route 0,
    proceed 0]

/-- A message that is pushed once is written twice. -/
theorem late_route_delivers_twice :
    (accepted (relayLog (history lateRun))).count (letter 1 2 0) = 1 ∧
      (reached lateRun).devices = [idOf 2] ∧
      ((reached lateRun).sessions[0]?).map (·.socket) = some [letter 1 2 0, letter 1 2 0] := by
  decide +kernel

end NexaMessenger.Gateway
