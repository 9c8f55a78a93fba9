import NexaMessenger.Gateway.View

namespace NexaMessenger.Gateway

open Lib Relay

/-!
# Gateway — from the backlog to the channel

A websocket session first writes the backlog it pulled and then what comes through its channel.
This file follows one session through a run of the gateway, whatever other sessions do:

* `session_rule` — what every new session has and every move of its view keeps, the session has
  whenever it is reached.
* `Stage` — what holds in each phase: before `activate` its channel is empty and arriving
  messages wait in the entry; after it they go to the channel.
* `View.holding` — the messages held for the session, in the entry first and in the channel
  later: an arrival appends to them, and `activate` takes out what is in the backlog.
-/

/-- The state of the gateway after a run. -/
abbrev reached (events : List Event) : GatewayState := after gatewayStep GatewayState.start events

/-- The history of a run. -/
abbrev history (events : List Event) : List (Event × Effect) :=
  trace gatewayStep GatewayState.start events

/-! ### The rule for runs -/

/-- Only an upgrade starts a session. -/
theorem new_session {g : GatewayState} {e : Event} {k : Nat} {s : Session}
    (hnone : g.sessions[k]? = none) (hs : (gatewayStep g e).2.sessions[k]? = some s) :
    s = ⟨s.device, .upgraded, [], [], []⟩ := by
  have hlength : g.sessions.length ≤ k := List.getElem?_eq_none_iff.mp hnone
  have hdevice := devices_getElem hs
  rw [(gatewayStep_keeps g e).devices, List.getElem?_append_right (by
    rw [GatewayState.devices, List.length_map]; exact hlength)] at hdevice
  cases e with
  | upgrade device =>
    have hs : (g.sessions ++ [⟨device, .upgraded, [], [], []⟩])[k]? = some s := hs
    rw [List.getElem?_append_right hlength] at hs
    obtain rfl := List.mem_singleton.mp (List.mem_of_getElem? hs)
    rfl
  | _ => exact absurd hdevice (by simp [Event.added])

/-- **Rule for one session.** What holds of every new session and is carried along by every move
    of its view holds whenever the session is reached, if no other session activates its
    connection. -/
theorem session_rule {k : Nat} {device : Id16} {I : List (Event × Effect) → View → Prop}
    (events : List Event)
    (hother : Along gatewayStep (fun g e => activatedByOther k g e = false) GatewayState.start
      events)
    (hstart : ∀ log v, v.session = ⟨device, .upgraded, [], [], []⟩ → I log v)
    (hmove : ∀ pre e s v', pre ++ [e] <+: events → (reached pre).sessions[k]? = some s →
      s.device = device → I (history pre) ((reached pre).view k s) →
      Moves k ((reached pre).view k s) e (gatewayStep (reached pre) e).1 v' →
      I (history pre ++ [(e, (gatewayStep (reached pre) e).1)]) v') :
    ∀ s, (reached events).sessions[k]? = some s → s.device = device →
      I (history events) ((reached events).view k s) := by
  induction events using List.reverseRecOn with
  | nil =>
    intro s hs
    exact absurd hs (by simp [reached, GatewayState.start])
  | append_singleton events e ih =>
    intro s hs hdevice
    rw [reached, after_concat] at hs
    rw [reached, history, after_concat, trace_concat]
    have hkeeps := gatewayStep_keeps (reached events) e
    cases hbefore : (reached events).sessions[k]? with
    | none => exact hstart _ _ (by rw [← hdevice]; exact new_session hbefore hs)
    | some s₀ =>
      -- the session keeps its device, and its view has made one move
      have hsame : s₀.device = device := by
        have hold := hkeeps.getElem? (devices_getElem hbefore)
        rw [devices_getElem hs, hdevice] at hold
        exact (Option.some.inj hold).symm
      obtain ⟨s', hs', -, hmoves⟩ := gatewayStep_movesTo (run_owned events) hbefore e
        (hother.at_step (List.prefix_refl _))
      obtain rfl : s' = s := Option.some.inj (hs'.symm.trans hs)
      apply hmove events e s₀ _ (List.prefix_refl _) hbefore hsame _ hmoves
      refine ih (hother.of_prefix (List.prefix_append _ _)) ?_ s₀ hbefore hsame
      intro pre e' s v' hpre
      exact hmove pre e' s v' (hpre.trans (List.prefix_append _ _))

/-! ### The phases -/

/-- Registered and not yet active: messages for the device wait in the entry, as long as it is
    there, and the channel is empty. -/
def Waiting (v : View) : Prop :=
  (∀ c, v.entry = some c → c.ready = false ∧ c.pending.length ≤ liveChannelCapacity) ∧
    v.channel = Channel.new ∧ v.session.received = []

/-- Some of the backlog and some of what was received is written, in this order. -/
def Written (s : Session) : Prop :=
  ∃ backlog received, backlog <+: s.backlog ∧ received <+: s.received ∧
    s.socket = backlog ++ received

/-- What holds of a session in each phase. -/
def Stage (v : View) : Prop :=
  match v.session.phase with
  | .upgraded | .numbered _ =>
    v.session.backlog = [] ∧ v.session.received = [] ∧ v.session.socket = []
  | .registered _ | .greeted _ =>
    Waiting v ∧ v.session.backlog = [] ∧ v.session.socket = []
  | .sending _ delivered rest =>
    Waiting v ∧ delivered = v.session.backlog.map (·.messageId) ∧
      v.session.socket ++ rest = v.session.backlog
  | .live _ | .routing _ =>
    (∀ c, v.entry = some c → c.ready = true) ∧ v.channel.closed = false ∧
      v.session.socket = v.session.backlog ++ v.session.received
  | .leaving _ | .closed => Written v.session

theorem Stage.written {v : View} (h : Stage v) : Written v.session := by
  obtain ⟨entry, channel, ⟨device, phase, backlog, received, socket⟩⟩ := v
  cases phase with
  | upgraded =>
    obtain ⟨-, -, hsocket⟩ := h
    exact ⟨[], [], List.nil_prefix, List.nil_prefix, hsocket⟩
  | numbered id =>
    obtain ⟨-, -, hsocket⟩ := h
    exact ⟨[], [], List.nil_prefix, List.nil_prefix, hsocket⟩
  | registered id =>
    obtain ⟨-, -, hsocket⟩ := h
    exact ⟨[], [], List.nil_prefix, List.nil_prefix, hsocket⟩
  | greeted id =>
    obtain ⟨-, -, hsocket⟩ := h
    exact ⟨[], [], List.nil_prefix, List.nil_prefix, hsocket⟩
  | sending id delivered rest =>
    obtain ⟨-, -, hbacklog⟩ := h
    exact ⟨socket, [], ⟨rest, hbacklog⟩, List.nil_prefix, (List.append_nil _).symm⟩
  | live id =>
    obtain ⟨-, -, hsocket⟩ := h
    exact ⟨backlog, received, List.prefix_refl _, List.prefix_refl _, hsocket⟩
  | routing id =>
    obtain ⟨-, -, hsocket⟩ := h
    exact ⟨backlog, received, List.prefix_refl _, List.prefix_refl _, hsocket⟩
  | leaving id => exact h
  | closed => exact h

/-- A message that comes while the session waits is kept in the entry, if there is room. -/
theorem Waiting.arrive {v : View} (h : Waiting v) (m : EncryptedMessage) :
    Waiting (v.arrive m) := by
  obtain ⟨hentry, hchannel, hreceived⟩ := h
  refine ⟨fun c' hc' => ?_, ?_, hreceived⟩
  · obtain ⟨c, hc, rfl⟩ := Option.map_eq_some_iff.mp hc'
    obtain ⟨hready, hlength⟩ := hentry c hc
    unfold ConnectionState.keep
    split
    · exact ⟨hready, hlength⟩
    · rename_i hroom
      refine ⟨hready, ?_⟩
      rw [List.length_append, List.length_singleton]
      exact Nat.not_le.mp fun h => hroom (.inr h)
  · -- an entry that is not ready sends nothing
    have hwaits : v.entry.any (·.ready) = false := by
      cases hc : v.entry with
      | none => rfl
      | some c => exact (hentry c hc).1
    show (if v.entry.any (·.ready) then v.channel.trySend m else v.channel) = _
    rw [hwaits]
    exact hchannel

/-- An arrival leaves every phase in order. -/
theorem Stage.arrive {v : View} (h : Stage v) (m : EncryptedMessage) : Stage (v.arrive m) := by
  obtain ⟨entry, channel, ⟨device, phase, backlog, received, socket⟩⟩ := v
  -- an active entry keeps nothing, it sends
  have hactive (h : (∀ c, entry = some c → c.ready = true) ∧ channel.closed = false ∧
      socket = backlog ++ received) :
      (∀ c, entry.map (·.keep m) = some c → c.ready = true) ∧
        (if entry.any (·.ready) then channel.trySend m else channel).closed = false ∧
        socket = backlog ++ received := by
    obtain ⟨hentry, hclosed, hsocket⟩ := h
    refine ⟨fun c' hc' => ?_, ?_, hsocket⟩
    · obtain ⟨c, hc, rfl⟩ := Option.map_eq_some_iff.mp hc'
      rw [ConnectionState.keep, if_pos (.inl (hentry c hc))]
      exact hentry c hc
    · split
      · exact (trySend_closed channel m).trans hclosed
      · exact hclosed
  cases phase with
  | upgraded => exact h
  | numbered id => exact h
  | registered id => exact ⟨h.1.arrive m, h.2⟩
  | greeted id => exact ⟨h.1.arrive m, h.2⟩
  | sending id delivered rest => exact ⟨h.1.arrive m, h.2⟩
  | live id => exact hactive h
  | routing id => exact hactive h
  | leaving id => exact h
  | closed => exact h

/-- A session that has lost its entry goes on. -/
theorem Stage.lose {v : View} (h : Stage v) : Stage { v with entry := none } := by
  obtain ⟨entry, channel, ⟨device, phase, backlog, received, socket⟩⟩ := v
  have hwaiting (h : Waiting ⟨entry, channel, ⟨device, phase, backlog, received, socket⟩⟩) :
      Waiting ⟨none, channel, ⟨device, phase, backlog, received, socket⟩⟩ :=
    ⟨fun c hc => (by cases hc), h.2⟩
  cases phase with
  | upgraded => exact h
  | numbered id => exact h
  | registered id => exact ⟨hwaiting h.1, h.2⟩
  | greeted id => exact ⟨hwaiting h.1, h.2⟩
  | sending id delivered rest => exact ⟨hwaiting h.1, h.2⟩
  | live id => exact ⟨fun c hc => (by cases hc), h.2⟩
  | routing id => exact ⟨fun c hc => (by cases hc), h.2⟩
  | leaving id => exact h
  | closed => exact h

theorem Stage.resume {v : View} (h : Stage v) : Stage v.resume := by
  obtain ⟨entry, channel, ⟨device, phase, backlog, received, socket⟩⟩ := v
  cases phase <;> exact h

theorem Stage.route {v : View} (h : Stage v) (m : EncryptedMessage) (own : Bool) :
    Stage (v.route m own) := by
  unfold View.route
  split
  · cases own
    · exact h.arrive m
    · exact (h.arrive m).resume
  · cases own
    · exact h
    · exact h.resume

/-- **Every move leaves the phases in order.** -/
theorem Stage.move {k : Nat} {v v' : View} {e : Event} {effect : Effect} (h : Stage v)
    (hmove : Moves k v e effect v') : Stage v' := by
  have hwritten := h.written
  cases hmove with
  | still => exact h
  | routes i m own => exact h.route m own
  | enters _ _ _ phase hphase =>
    obtain ⟨entry, channel, ⟨device, before, backlog, received, socket⟩⟩ := v
    cases hphase with
    | numbered id => exact h
    | greeted id => exact h
    | routing id => exact h
    | hello id => exact hwritten
    | unsent id delivered rest => exact hwritten
    | done id => exact hwritten
  | registers _ id hphase =>
    obtain ⟨entry, channel, ⟨device, before, backlog, received, socket⟩⟩ := v
    obtain rfl : before = .numbered id := hphase
    obtain ⟨hbacklog, hreceived, hsocket⟩ := h
    refine ⟨⟨fun c hc => ?_, rfl, hreceived⟩, hbacklog, hsocket⟩
    obtain rfl := Option.some.inj hc
    exact ⟨rfl, Nat.zero_le _⟩
  | pulls input id now pulled hphase =>
    obtain ⟨entry, channel, ⟨device, before, backlog, received, socket⟩⟩ := v
    obtain rfl : before = .greeted id := hphase
    obtain ⟨hwaiting, -, hsocket⟩ := h
    obtain rfl : socket = [] := hsocket
    exact ⟨hwaiting, rfl, rfl⟩
  | writes _ id delivered m rest hphase =>
    obtain ⟨entry, channel, ⟨device, before, backlog, received, socket⟩⟩ := v
    obtain rfl : before = .sending id delivered (m :: rest) := hphase
    -- one message goes from the rest to the socket
    obtain ⟨hwaiting, hdelivered, hbacklog⟩ := h
    refine ⟨hwaiting, hdelivered, ?_⟩
    show (socket ++ [m]) ++ rest = backlog
    rw [List.append_assoc]
    exact hbacklog
  | activates _ id delivered c hphase hentry =>
    obtain ⟨entry, channel, ⟨device, before, backlog, received, socket⟩⟩ := v
    obtain rfl : before = .sending id delivered [] := hphase
    obtain ⟨⟨-, hchannel, hreceived⟩, -, hbacklog⟩ := h
    obtain rfl : channel = Channel.new := hchannel
    obtain rfl : received = [] := hreceived
    -- the rest is empty, so the whole backlog is written
    have hbacklog : socket ++ [] = backlog := hbacklog
    refine ⟨fun c' hc' => ?_, sendAll_closed _ _, ?_⟩
    · obtain rfl := Option.some.inj hc'
      rfl
    · show socket = backlog ++ []
      rw [List.append_nil] at hbacklog ⊢
      exact hbacklog
  | receives _ id m rest ok hphase hqueue =>
    obtain ⟨entry, channel, ⟨device, before, backlog, received, socket⟩⟩ := v
    obtain rfl : before = .live id := hphase
    obtain ⟨hentry, hclosed, hsocket⟩ := h
    obtain rfl : socket = backlog ++ received := hsocket
    cases ok
    · -- the write failed: the message is received but not on the socket
      exact ⟨backlog, received, List.prefix_refl _, List.prefix_append _ _, rfl⟩
    · exact ⟨hentry, hclosed, List.append_assoc _ _ _⟩
  | strays _ id delivered hphase hentry =>
    obtain ⟨entry, channel, ⟨device, before, backlog, received, socket⟩⟩ := v
    obtain rfl : before = .sending id delivered [] := hphase
    obtain rfl : entry = none := hentry
    obtain ⟨⟨-, hchannel, hreceived⟩, -, hbacklog⟩ := h
    obtain rfl : channel = Channel.new := hchannel
    obtain rfl : received = [] := hreceived
    have hbacklog : socket ++ [] = backlog := hbacklog
    refine ⟨fun c hc => (by cases hc), rfl, ?_⟩
    show socket = backlog ++ []
    rw [List.append_nil] at hbacklog ⊢
    exact hbacklog
  | closes _ entry => exact hwritten
  | loses => exact h.lose

/-! ### What is held for the session -/

/-- The messages held for the session: first those that wait in its entry, from `activate` on
    those it has received with those in its channel. -/
def View.holding (v : View) : List EncryptedMessage :=
  match v.session.phase with
  | .upgraded | .numbered _ => []
  | .registered _ | .greeted _ | .sending _ _ _ => (v.entry.map (·.pending)).getD []
  | .live _ | .routing _ => v.session.received ++ v.channel.queue
  | .leaving _ | .closed => v.session.received

/-- A connection that is not ready keeps a message or drops it. -/
theorem keep_pending (c : ConnectionState) (m : EncryptedMessage) :
    ∃ sent, sent.Sublist [m] ∧ (c.keep m).pending = c.pending ++ sent := by
  unfold ConnectionState.keep
  split
  · exact ⟨[], List.nil_sublist _, (List.append_nil _).symm⟩
  · exact ⟨[m], List.Sublist.refl _, rfl⟩

/-- A message that comes is appended to what is held, or dropped. -/
theorem arrive_holding (v : View) (m : EncryptedMessage) :
    ∃ sent, sent.Sublist [m] ∧ (v.arrive m).holding = v.holding ++ sent := by
  obtain ⟨entry, channel, ⟨device, phase, backlog, received, socket⟩⟩ := v
  have hnone (held : List EncryptedMessage) : ∃ sent, sent.Sublist [m] ∧ held = held ++ sent :=
    ⟨[], List.nil_sublist _, (List.append_nil _).symm⟩
  -- until `activate` a message waits in the entry
  have hentry : ∃ sent, sent.Sublist [m] ∧ ((entry.map (·.keep m)).map (·.pending)).getD [] =
      (entry.map (·.pending)).getD [] ++ sent := by
    cases entry with
    | none => exact hnone []
    | some c => exact keep_pending c m
  -- from then on it goes to the channel
  have hchannel : ∃ sent, sent.Sublist [m] ∧
      received ++ (if entry.any (·.ready) then channel.trySend m else channel).queue =
        (received ++ channel.queue) ++ sent := by
    split
    · obtain ⟨sent, hsent, hqueue⟩ := trySend_queue channel m
      exact ⟨sent, hsent, by rw [hqueue, List.append_assoc]⟩
    · exact hnone _
  cases phase with
  | upgraded => exact hnone []
  | numbered id => exact hnone []
  | registered id => exact hentry
  | greeted id => exact hentry
  | sending id delivered rest => exact hentry
  | live id => exact hchannel
  | routing id => exact hchannel
  | leaving id => exact hnone received
  | closed => exact hnone received

/-- With its entry a session loses what waits in it. -/
theorem lose_holding (v : View) : (View.holding { v with entry := none }).Sublist v.holding := by
  obtain ⟨entry, channel, ⟨device, phase, backlog, received, socket⟩⟩ := v
  cases phase with
  | registered id => exact List.nil_sublist _
  | greeted id => exact List.nil_sublist _
  | sending id delivered rest => exact List.nil_sublist _
  | _ => exact List.Sublist.refl _

theorem resume_holding (v : View) : v.resume.holding = v.holding := by
  obtain ⟨entry, channel, ⟨device, phase, backlog, received, socket⟩⟩ := v
  cases phase <;> rfl

/-- A task that ends leaves what is held as the arrival of its message does. -/
theorem route_holding_eq (v : View) (m : EncryptedMessage) (own : Bool) :
    (v.route m own).holding =
      (if m.recipientDeviceId = v.session.device then v.arrive m else v).holding := by
  unfold View.route
  cases own
  · rfl
  · exact resume_holding _

theorem route_holding (v : View) (m : EncryptedMessage) (own : Bool) :
    ∃ sent, sent.Sublist [m] ∧ (v.route m own).holding = v.holding ++ sent := by
  rw [route_holding_eq]
  split
  · exact arrive_holding v m
  · exact ⟨[], List.nil_sublist _, (List.append_nil _).symm⟩

/-- Before `activate` nothing is received, and after it what is received is held. -/
theorem Stage.received_sublist {v : View} (h : Stage v) :
    v.session.received.Sublist v.holding := by
  obtain ⟨entry, channel, ⟨device, phase, backlog, received, socket⟩⟩ := v
  have hnone {held : List EncryptedMessage} (hreceived : received = []) :
      received.Sublist held := by
    rw [hreceived]
    exact List.nil_sublist _
  cases phase with
  | upgraded => exact hnone h.2.1
  | numbered id => exact hnone h.2.1
  | registered id => exact hnone h.1.2.2
  | greeted id => exact hnone h.1.2.2
  | sending id delivered rest => exact hnone h.1.2.2
  | live id => exact List.sublist_append_left _ _
  | routing id => exact List.sublist_append_left _ _
  | leaving id => exact List.Sublist.refl _
  | closed => exact List.Sublist.refl _

/-- `activate` keeps of what is held the messages that are not in the backlog; the empty channel
    has room for all of them. -/
theorem Stage.activate_holding {v : View} (h : Stage v) {id : UInt64}
    {delivered : List Id16} {c : ConnectionState}
    (hphase : v.session.phase = .sending id delivered []) (hentry : v.entry = some c) :
    View.holding { v.enter (.live id) with
      entry := some { c with pending := [], ready := true }
      channel := v.channel.sendAll (c.pending.filter fun m => m.messageId ∉ delivered) } =
    v.holding.filter fun m => m.messageId ∉ v.session.backlog.map (·.messageId) := by
  obtain ⟨entry, channel, ⟨device, phase, backlog, received, socket⟩⟩ := v
  obtain rfl : phase = .sending id delivered [] := hphase
  obtain ⟨⟨hwaits, hchannel, hreceived⟩, hdelivered, -⟩ := h
  obtain rfl : channel = Channel.new := hchannel
  obtain rfl : received = [] := hreceived
  obtain rfl : delivered = backlog.map (·.messageId) := hdelivered
  have hlength : c.pending.length ≤ liveChannelCapacity := (hwaits c hentry).2
  obtain rfl : entry = some c := hentry
  -- no more can wait in the entry than fits the channel
  have hfits : (c.pending.filter fun m => m.messageId ∉ backlog.map (·.messageId)).length ≤
      liveChannelCapacity := (List.length_filter_le _ _).trans hlength
  exact sendAll_of_room rfl (by simpa [Channel.new] using hfits)

/-- **What is held after a move** was held before or has just been routed. -/
theorem Moves.holding_sublist {k : Nat} {v v' : View} {e : Event} {effect : Effect}
    (h : Stage v) (hmove : Moves k v e effect v') :
    v'.holding.Sublist (v.holding ++ routed [(e, effect)]) := by
  have hkept {held : List EncryptedMessage} (hheld : held.Sublist v.holding) :
      held.Sublist (v.holding ++ routed [(e, effect)]) :=
    hheld.trans (List.sublist_append_left _ _)
  have hreceived := hkept h.received_sublist
  cases hmove with
  | still => exact hkept (List.Sublist.refl _)
  | routes i m own =>
    obtain ⟨sent, hsent, hholding⟩ := route_holding v m own
    rw [hholding]
    exact List.Sublist.append (List.Sublist.refl _) hsent
  | enters _ _ _ phase hphase =>
    obtain ⟨entry, channel, ⟨device, before, backlog, received, socket⟩⟩ := v
    cases hphase with
    | numbered id => exact List.nil_sublist _
    | greeted id => exact hkept (List.Sublist.refl _)
    | routing id => exact hkept (List.Sublist.refl _)
    | hello id => exact hreceived
    | unsent id delivered rest => exact hreceived
    | done id => exact hreceived
  | registers _ id hphase => exact List.nil_sublist _
  | pulls input id now pulled hphase =>
    obtain ⟨entry, channel, ⟨device, before, backlog, received, socket⟩⟩ := v
    obtain rfl : before = .greeted id := hphase
    exact hkept (List.Sublist.refl _)
  | writes _ id delivered m rest hphase =>
    obtain ⟨entry, channel, ⟨device, before, backlog, received, socket⟩⟩ := v
    obtain rfl : before = .sending id delivered (m :: rest) := hphase
    exact hkept (List.Sublist.refl _)
  | activates _ id delivered c hphase hentry =>
    rw [h.activate_holding hphase hentry]
    exact hkept List.filter_sublist
  | receives _ id m rest ok hphase hqueue =>
    obtain ⟨entry, channel, ⟨device, before, backlog, received, socket⟩⟩ := v
    obtain rfl : before = .live id := hphase
    have hqueue : channel.queue = m :: rest := hqueue
    -- the message goes from the channel to what is received
    have hmoved : received ++ channel.queue = (received ++ [m]) ++ rest := by
      rw [hqueue, List.append_assoc]
      rfl
    apply hkept
    show List.Sublist _ (received ++ channel.queue)
    rw [hmoved]
    cases ok
    · exact List.sublist_append_left _ _
    · exact List.Sublist.refl _
  | strays _ id delivered hphase hentry =>
    obtain ⟨entry, channel, ⟨device, before, backlog, received, socket⟩⟩ := v
    obtain rfl : before = .sending id delivered [] := hphase
    obtain ⟨⟨-, hchannel, hempty⟩, -⟩ := h
    obtain rfl : channel = Channel.new := hchannel
    obtain rfl : received = [] := hempty
    exact List.nil_sublist _
  | closes _ entry => exact hreceived
  | loses => exact hkept (lose_holding v)

end NexaMessenger.Gateway
