import NexaMessenger.Gateway.Owners

namespace NexaMessenger.Gateway

open Lib Relay

/-!
# Gateway — one session and its surroundings

What a websocket session can notice of the gateway is its own entry in the registry, which is gone
when another session of the device has taken its place, and its own channel; with the session itself
they are its `View`.  `Moves` lists what a step of the gateway does to a view: the session's own
statements, the arrival of a message, the loss of the entry, and nothing.

`gatewayStep_movesTo` says that these are all: the tasks and the other sessions touch its view in
no other way, unless one of these has drawn the same number and activates the connection in its
place (`activatedByOther`).
-/

/-! ### The view of a session -/

/-- What a session can notice: its entry, its channel, and itself. -/
structure View where
  entry : Option ConnectionState
  channel : Channel
  session : Session

/-- The entry of the device, if it is that of session `k`. -/
def ConnectionRegistry.own (r : ConnectionRegistry) (k : Nat) (device : Id16) :
    Option ConnectionState :=
  (r.inner.lookup device).filter (·.sender = k)

def GatewayState.view (g : GatewayState) (k : Nat) (s : Session) : View :=
  ⟨g.connections.own k s.device, g.channels k, s⟩

section
variable (r : ConnectionRegistry) (channels : Channels) (k : Nat) (device d : Id16)

theorem own_eq_some {c : ConnectionState} :
    r.own k d = some c ↔ r.inner.lookup d = some c ∧ c.sender = k := by
  rw [ConnectionRegistry.own, Option.filter_eq_some_iff, decide_eq_true_eq]

theorem own_register (id : UInt64) (j : Nat) :
    (r.register device id j).own k d =
      if d = device then if j = k then some ⟨id, j, false, []⟩ else none else r.own k d := by
  rw [ConnectionRegistry.own, register_lookup]
  by_cases hd : d = device
  · by_cases hj : j = k <;> simp [hd, hj]
  · rw [if_neg hd, if_neg hd]
    rfl

theorem own_unregister (id : UInt64) :
    (r.unregister device id).own k d = r.own k d ∨ (r.unregister device id).own k d = none := by
  rw [ConnectionRegistry.own, unregister_lookup]
  split
  · exact .inr rfl
  · exact .inl rfl

/-- A message that an entry keeps leaves it the entry of the same session. -/
theorem own_trySend (message : EncryptedMessage) :
    (r.trySend channels device message).1.own k d =
      if d = device then (r.own k d).map (·.keep message) else r.own k d := by
  have hkeep (c : ConnectionState) : (c.keep message).sender = c.sender := by
    unfold ConnectionState.keep
    split <;> rfl
  rw [ConnectionRegistry.own, trySend_lookup, ConnectionRegistry.own]
  split
  · cases r.inner.lookup d with
    | none => rfl
    | some c => by_cases hc : c.sender = k <;> simp [Option.filter_some, hkeep, hc]
  · rfl

end

/-- Another session activates the connection of session `k`.  It can only if it has drawn the same
    number. -/
def activatedByOther (k : Nat) (g : GatewayState) : Event → Bool
  | .session j (.next _ _) => j ≠ k && (g.sessions[j]?).any fun s =>
      match s.phase with
      | .sending id _ [] => (g.connections.own k s.device).any fun c => c.id = id
      | _ => false
  | _ => false

namespace View

def enter (v : View) (phase : Phase) : View := { v with session := { v.session with phase } }

/-- The session returns, and its receiver is dropped. -/
def close (v : View) : View :=
  { v.enter .closed with channel := { v.channel with closed := true } }

/-- A message for the device comes to the registry. -/
def arrive (v : View) (message : EncryptedMessage) : View :=
  { v with
    entry := v.entry.map (·.keep message)
    channel := if v.entry.any (·.ready) then v.channel.trySend message else v.channel }

/-- A session that waits for a task goes on. -/
def resume (v : View) : View :=
  match v.session.phase with
  | .routing id => v.enter (.live id)
  | _ => v

/-- The `try_send` of a task; `own` says that the session waits for it. -/
def route (v : View) (message : EncryptedMessage) (own : Bool) : View :=
  let v := if message.recipientDeviceId = v.session.device then v.arrive message else v
  if own then v.resume else v

end View

/-- The changes of phase in which nothing else happens. -/
inductive Enters : Phase → Phase → Prop
  | numbered (id : UInt64) : Enters .upgraded (.numbered id)
  | greeted (id : UInt64) : Enters (.registered id) (.greeted id)
  | routing (id : UInt64) : Enters (.live id) (.routing id)
  | hello (id : UInt64) : Enters (.registered id) (.leaving id)
  | unsent (id : UInt64) (delivered : List Id16) (rest : List EncryptedMessage) :
      Enters (.sending id delivered rest) (.leaving id)
  | done (id : UInt64) : Enters (.live id) (.leaving id)

/-- What a step of the gateway does to the view of session `k`. -/
inductive Moves (k : Nat) : View → Event → Effect → View → Prop
  | still (v : View) (e : Event) (effect : Effect) (h : ∀ m, effect ≠ .routed m) :
      Moves k v e effect v
  | routes (v : View) (i : Nat) (m : EncryptedMessage) (own : Bool) :
      Moves k v (.route i) (.routed m) (v.route m own)
  | enters (v : View) (e : Event) (effect : Effect) (h : ∀ m, effect ≠ .routed m) (phase : Phase)
      (hphase : Enters v.session.phase phase) : Moves k v e effect (v.enter phase)
  | registers (v : View) (e : Event) (id : UInt64) (h : v.session.phase = .numbered id) :
      Moves k v e .quiet ⟨some ⟨id, k, false, []⟩, Channel.new, (v.enter (.registered id)).session⟩
  | pulls (v : View) (input : SessionInput) (id now : UInt64) (backlog : List EncryptedMessage)
      (h : v.session.phase = .greeted id) :
      Moves k v (.session k input) (.relay (.pull v.session.device now) (.pulled backlog))
        { v with session := { v.session with
          phase := .sending id (backlog.map (·.messageId)) backlog, backlog } }
  | writes (v : View) (e : Event) (id : UInt64) (delivered : List Id16) (m : EncryptedMessage)
      (rest : List EncryptedMessage) (h : v.session.phase = .sending id delivered (m :: rest)) :
      Moves k v e .quiet { v with session := { v.session with
        phase := .sending id delivered rest, socket := v.session.socket ++ [m] } }
  | activates (v : View) (e : Event) (id : UInt64) (delivered : List Id16) (c : ConnectionState)
      (h : v.session.phase = .sending id delivered []) (hentry : v.entry = some c) :
      Moves k v e .quiet
        { v.enter (.live id) with
          entry := some { c with pending := [], ready := true }
          channel := v.channel.sendAll (c.pending.filter fun m => m.messageId ∉ delivered) }
  | receives (v : View) (e : Event) (id : UInt64) (m : EncryptedMessage)
      (rest : List EncryptedMessage) (ok : Bool) (h : v.session.phase = .live id)
      (hqueue : v.channel.queue = m :: rest) :
      Moves k v e .quiet
        { v with
          channel := { v.channel with queue := rest }
          session := { v.session with
            phase := if ok then .live id else .leaving id
            received := v.session.received ++ [m]
            socket := if ok then v.session.socket ++ [m] else v.session.socket } }
  /-- the registry has an entry with the same number, of another session -/
  | strays (v : View) (e : Event) (id : UInt64) (delivered : List Id16)
      (h : v.session.phase = .sending id delivered []) (hentry : v.entry = none) :
      Moves k v e .quiet (v.enter (.live id))
  | closes (v : View) (e : Event) (entry : Option ConnectionState) :
      Moves k v e .quiet { v.close with entry }
  /-- another session of the device takes its place, or unregisters under the same number -/
  | loses (v : View) (e : Event) (effect : Effect) (h : ∀ m, effect ≠ .routed m) :
      Moves k v e effect { v with entry := none }

/-! ### The session's own steps -/

/-- The session and its view after a step. -/
def MovesTo (k : Nat) (g : GatewayState) (s : Session) (e : Event)
    (result : Effect × GatewayState) : Prop :=
  ∃ s', result.2.sessions[k]? = some s' ∧ s'.device = s.device ∧
    Moves k (g.view k s) e result.1 (result.2.view k s')

section
variable {g : GatewayState} {k : Nat} {s : Session}

theorem setSession_self (hs : g.sessions[k]? = some s) (s' : Session) :
    (g.setSession k s').sessions[k]? = some s' := by
  show (g.sessions.set k s')[k]? = some s'
  rw [List.getElem?_set_self (List.getElem?_eq_some_iff.mp hs).1]

theorem still_movesTo (hs : g.sessions[k]? = some s) (e : Event) {effect : Effect}
    (h : ∀ m, effect ≠ .routed m) : MovesTo k g s e (effect, g) :=
  ⟨s, hs, rfl, Moves.still _ e effect h⟩

theorem enter_movesTo (hs : g.sessions[k]? = some s) (e : Event) {effect : Effect}
    (h : ∀ m, effect ≠ .routed m) {phase : Phase} (hphase : Enters s.phase phase) :
    MovesTo k g s e (effect, g.setPhase k s phase) :=
  ⟨{ s with phase }, setSession_self hs _, rfl, Moves.enters _ e effect h phase hphase⟩

theorem quiet_ne (m : EncryptedMessage) : Effect.quiet ≠ .routed m := Effect.noConfusion

theorem receive_movesTo (hs : g.sessions[k]? = some s) (e : Event) {id : UInt64}
    (hphase : s.phase = .live id) (ok : Bool) : MovesTo k g s e (.quiet, g.receive k s id ok) := by
  unfold GatewayState.receive
  split
  · rename_i m rest hqueue
    refine ⟨{ s with
        phase := if ok then .live id else .leaving id
        received := s.received ++ [m]
        socket := if ok then s.socket ++ [m] else s.socket }, ?_, rfl, ?_⟩
    · cases ok
      · exact setSession_self hs _
      · rw [show (if true = true then Phase.live id else .leaving id) = s.phase from hphase.symm]
        exact setSession_self hs _
    · convert Moves.receives (g.view k s) e id m rest ok hphase hqueue using 1
      cases ok <;> simp [GatewayState.view, GatewayState.setSession, GatewayState.setPhase]
  · split
    · exact still_movesTo hs e quiet_ne
    · exact enter_movesTo hs e quiet_ne (by rw [hphase]; exact Enters.done id)

/-- The session returns; its own entry may be gone. -/
theorem close_movesTo (hs : g.sessions[k]? = some s) (e : Event)
    (connections : ConnectionRegistry) :
    MovesTo k g s e (.quiet, { g.close k s with connections }) := by
  refine ⟨{ s with phase := .closed }, setSession_self hs _, rfl, ?_⟩
  have hchannel : (g.close k s).channels k = { g.channels k with closed := true } :=
    Function.update_self _ _ _
  have hmove := Moves.closes (k := k) (g.view k s) e (connections.own k s.device)
  rw [View.close, show (g.view k s).channel = g.channels k from rfl, ← hchannel] at hmove
  exact hmove

theorem register_movesTo (hs : g.sessions[k]? = some s) (e : Event) {id : UInt64}
    (hphase : s.phase = .numbered id) :
    MovesTo k g s e (.quiet, { g.setPhase k s (.registered id) with
      connections := g.connections.register s.device id k
      channels := Function.update g.channels k Channel.new }) := by
  refine ⟨{ s with phase := .registered id }, setSession_self hs _, rfl, ?_⟩
  have hentry : (g.connections.register s.device id k).own k s.device =
      some ⟨id, k, false, []⟩ := by rw [own_register, if_pos rfl, if_pos rfl]
  have hchannel : Function.update g.channels k Channel.new k = Channel.new :=
    Function.update_self _ _ _
  have hmove := Moves.registers (k := k) (g.view k s) e id hphase
  rw [← hentry, ← hchannel] at hmove
  exact hmove

/-- What `activate` finds is the session's own entry, or that of another session with the same
    number. -/
theorem activate_movesTo (hs : g.sessions[k]? = some s) (e : Event) {id : UInt64}
    {delivered : List Id16} (hphase : s.phase = .sending id delivered []) :
    MovesTo k g s e
      (let (active, connections, channels) :=
        g.connections.activate g.channels s.device id delivered
      if active then (.quiet, { g.setPhase k s (.live id) with connections, channels })
      else (.quiet, g.close k s)) := by
  obtain ⟨state, hlook, -, hactive, hentries, hchannels⟩ | ⟨-, hfail⟩ :=
    activate_cases g.connections g.channels s.device id delivered
  · rcases hact : g.connections.activate g.channels s.device id delivered with
      ⟨active, connections, channels⟩
    rw [hact] at hactive hentries hchannels
    obtain rfl : active = true := hactive
    refine ⟨{ s with phase := .live id }, setSession_self hs _, rfl, ?_⟩
    have hentry := hentries s.device
    have hchannel := hchannels k
    rw [if_pos rfl] at hentry
    by_cases hsender : state.sender = k
    · rw [if_pos hsender.symm] at hchannel
      have hown : (g.view k s).entry = some state :=
        (own_eq_some _ _ _).mpr ⟨hlook, hsender⟩
      have hown' : connections.own k s.device = some { state with pending := [], ready := true } :=
        (own_eq_some _ _ _).mpr ⟨hentry, hsender⟩
      have hmove := Moves.activates (k := k) (g.view k s) e id delivered state hphase hown
      rw [← hown', show (g.view k s).channel = g.channels k from rfl, ← hchannel] at hmove
      exact hmove
    · rw [if_neg fun h => hsender h.symm] at hchannel
      have hown : (g.view k s).entry = none := by
        show (g.connections.inner.lookup s.device).filter _ = none
        rw [hlook]
        simp [hsender]
      have hown' : connections.own k s.device = none := by
        rw [ConnectionRegistry.own, hentry]
        simp [hsender]
      have hmove := Moves.strays (k := k) (g.view k s) e id delivered hphase hown
      have hview : (g.view k s).enter (.live id) =
          ⟨connections.own k s.device, channels k, { s with phase := .live id }⟩ := by
        rw [hown', show channels k = g.channels k from hchannel, ← hown]
        rfl
      rw [hview] at hmove
      exact hmove
  · rw [hfail]
    exact close_movesTo hs e g.connections

theorem advance_movesTo (hs : g.sessions[k]? = some s) (input : SessionInput) (ok : Bool)
    (now : UInt64) :
    MovesTo k g s (.session k input) (g.advance k s ok now) := by
  unfold GatewayState.advance
  split
  · rename_i hphase
    split
    · exact ⟨_, setSession_self hs _, rfl, Moves.enters (g.view k s) _ _ quiet_ne _
        (show Enters s.phase _ by rw [hphase]; exact Enters.numbered _)⟩
    · exact close_movesTo hs _ g.connections
  · rename_i id hphase
    exact register_movesTo hs _ hphase
  · rename_i id hphase
    apply enter_movesTo hs _ quiet_ne
    rw [hphase]
    cases ok
    · exact Enters.hello id
    · exact Enters.greeted id
  · rename_i id hphase
    exact ⟨_, setSession_self hs _, rfl, Moves.pulls (g.view k s) input id now _ hphase⟩
  · rename_i id delivered m rest hphase
    split
    · exact ⟨_, setSession_self hs _, rfl, Moves.writes (g.view k s) _ id delivered m rest hphase⟩
    · exact enter_movesTo hs _ quiet_ne (by rw [hphase]; exact Enters.unsent _ _ _)
  · rename_i id delivered hphase
    exact activate_movesTo hs _ hphase
  · rename_i id hphase
    exact receive_movesTo hs _ hphase ok
  · exact still_movesTo hs _ quiet_ne
  · rename_i id _
    exact close_movesTo hs _ (g.connections.unregister s.device id)
  · exact still_movesTo hs _ quiet_ne

theorem handle_movesTo (hs : g.sessions[k]? = some s) (e : Event) {id : UInt64}
    (hphase : s.phase = .live id) (frame : Inbound) (ok : Bool) (now : UInt64) :
    MovesTo k g s e (g.handle k s id frame ok now) := by
  have hdone : Enters s.phase (.leaving id) := by rw [hphase]; exact Enters.done id
  have hrouting : Enters s.phase (.routing id) := by rw [hphase]; exact Enters.routing id
  cases frame with
  | ping =>
    cases ok
    · exact enter_movesTo hs e quiet_ne hdone
    · exact still_movesTo hs e quiet_ne
  | pong => exact still_movesTo hs e quiet_ne
  | refused => exact enter_movesTo hs e quiet_ne hdone
  | ack messageId => exact ⟨s, hs, rfl, Moves.still _ e _ fun m => Effect.noConfusion⟩
  | message message =>
    unfold GatewayState.handle
    dsimp only
    split
    · exact enter_movesTo hs e (fun m => Effect.noConfusion) hdone
    · -- a push changes nothing that the session sees
      have hrelay (result : PushResult) (m : EncryptedMessage) :
          Effect.relay (.push message now) (.pushed result) ≠ .routed m := Effect.noConfusion
      cases (g.push message now (some k)).1 with
      | accepted =>
        exact ⟨_, setSession_self hs _, rfl, Moves.enters (g.view k s) e _ (hrelay _) _ hrouting⟩
      | duplicate => exact ⟨s, hs, rfl, Moves.still _ e _ (hrelay _)⟩
      | invalid =>
        exact ⟨_, setSession_self hs _, rfl, Moves.enters (g.view k s) e _ (hrelay _) _ hdone⟩
      | full =>
        exact ⟨_, setSession_self hs _, rfl, Moves.enters (g.view k s) e _ (hrelay _) _ hdone⟩

/-- **Step of the session.** Each is one of its own moves. -/
theorem sessionStep_movesTo (hs : g.sessions[k]? = some s) (input : SessionInput) :
    MovesTo k g s (.session k input) (g.sessionStep k s input) := by
  unfold GatewayState.sessionStep
  split
  · exact advance_movesTo hs _ _ _
  · split
    · rename_i hphase
      exact handle_movesTo hs _ hphase _ _ _
    · exact still_movesTo hs _ quiet_ne
  · split
    · rename_i id hphase
      exact enter_movesTo hs _ quiet_ne (by rw [hphase]; exact Enters.done id)
    · exact still_movesTo hs _ quiet_ne

end

/-! ### The steps of others -/

/-- A step of which session `k` sees no more than that its entry is gone. -/
def Unseen (k : Nat) (g : GatewayState) (s : Session) (result : Effect × GatewayState) : Prop :=
  result.2.sessions[k]? = g.sessions[k]? ∧
    (result.2.view k s = g.view k s ∨ result.2.view k s = { g.view k s with entry := none }) ∧
    ∀ m, result.1 ≠ .routed m

section
variable {g : GatewayState} {j k : Nat} {s sj : Session}

theorem Unseen.movesTo (hs : g.sessions[k]? = some s) {e : Event} {result : Effect × GatewayState}
    (h : Unseen k g s result) : MovesTo k g s e result := by
  obtain ⟨hsessions, hview, heffect⟩ := h
  refine ⟨s, hsessions.trans hs, rfl, ?_⟩
  rcases hview with hview | hview
  · rw [hview]
    exact Moves.still _ e _ heffect
  · rw [hview]
    exact Moves.loses _ e _ heffect

theorem setSession_other (hjk : j ≠ k) (g : GatewayState) (s' : Session) :
    (g.setSession j s').sessions[k]? = g.sessions[k]? := List.getElem?_set_ne hjk

theorem setPhase_unseen (hjk : j ≠ k) {effect : Effect} (h : ∀ m, effect ≠ .routed m)
    (phase : Phase) : Unseen k g s (effect, g.setPhase j sj phase) :=
  ⟨setSession_other hjk g _, .inl rfl, h⟩

/-- Another channel changes, and the entry stays or goes. -/
theorem unseen_of_apart (hjk : j ≠ k) (s' : Session) (channel : Channel)
    {connections : ConnectionRegistry}
    (hentry : connections.own k s.device = g.connections.own k s.device ∨
      connections.own k s.device = none) :
    Unseen k g s (.quiet, { g.setSession j s' with
      connections, channels := Function.update g.channels j channel }) := by
  refine ⟨setSession_other hjk g _, ?_, quiet_ne⟩
  have hchannel : Function.update g.channels j channel k = g.channels k :=
    Function.update_of_ne (Ne.symm hjk) _ _
  show View.mk (connections.own k s.device) (Function.update g.channels j channel k) s = _ ∨
    View.mk (connections.own k s.device) (Function.update g.channels j channel k) s = _
  rw [hchannel]
  rcases hentry with hentry | hentry
  · rw [hentry]
    exact .inl rfl
  · rw [hentry]
    exact .inr rfl

theorem receive_unseen (hjk : j ≠ k) (id : UInt64) (ok : Bool) :
    Unseen k g s (.quiet, g.receive j sj id ok) := by
  unfold GatewayState.receive
  split
  · cases ok
    · exact unseen_of_apart hjk _ _ (.inl rfl)
    · exact unseen_of_apart hjk _ _ (.inl rfl)
  · split
    · exact ⟨rfl, .inl rfl, quiet_ne⟩
    · exact setPhase_unseen hjk quiet_ne _

/-- What another session activates is not the connection of session `k`. -/
theorem activate_unseen (hjk : j ≠ k) {id : UInt64}
    (hother : ∀ c, g.connections.own k sj.device = some c → c.id ≠ id)
    (delivered : List Id16) :
    Unseen k g s
      (let (active, connections, channels) :=
        g.connections.activate g.channels sj.device id delivered
      if active then (.quiet, { g.setPhase j sj (.live id) with connections, channels })
      else (.quiet, g.close j sj)) := by
  obtain ⟨state, hlook, hid, hactive, hentries, hchannels⟩ | ⟨-, hfail⟩ :=
    activate_cases g.connections g.channels sj.device id delivered
  · rcases hact : g.connections.activate g.channels sj.device id delivered with
      ⟨active, connections, channels⟩
    rw [hact] at hactive hentries hchannels
    obtain rfl : active = true := hactive
    have hsender : state.sender ≠ k := fun hk =>
      hother state ((own_eq_some _ _ _).mpr ⟨hlook, hk⟩) hid
    refine ⟨setSession_other hjk g _, .inl ?_, quiet_ne⟩
    have hchannel := hchannels k
    rw [if_neg fun h => hsender h.symm] at hchannel
    have hentry : connections.own k s.device = g.connections.own k s.device := by
      rw [ConnectionRegistry.own, show connections.inner.lookup s.device = _ from
        hentries s.device, ConnectionRegistry.own]
      split
      · rename_i hdevice
        rw [hdevice, hlook]
        simp [Option.filter_some, hsender]
      · rfl
    show View.mk (connections.own k s.device) (channels k) s = _
    rw [hentry, show channels k = g.channels k from hchannel]
    rfl
  · rw [hfail]
    exact unseen_of_apart hjk _ _ (.inl rfl)

theorem advance_unseen (hjk : j ≠ k) (hsj : g.sessions[j]? = some sj) (ok : Bool) (now : UInt64)
    (hother : activatedByOther k g (.session j (.next ok now)) = false) :
    Unseen k g s (g.advance j sj ok now) := by
  unfold GatewayState.advance
  split
  · split
    · exact ⟨setSession_other hjk g _, .inl rfl, quiet_ne⟩
    · exact unseen_of_apart hjk _ _ (.inl rfl)
  · rename_i id _
    -- a new connection takes the place of the entry of its device
    apply unseen_of_apart hjk
    rw [own_register, if_neg hjk]
    split
    · exact .inr rfl
    · exact .inl rfl
  · exact setPhase_unseen hjk quiet_ne _
  · exact ⟨setSession_other hjk g _, .inl rfl, fun m => Effect.noConfusion⟩
  · split
    · exact ⟨setSession_other hjk g _, .inl rfl, quiet_ne⟩
    · exact setPhase_unseen hjk quiet_ne _
  · rename_i id delivered hphase
    refine activate_unseen hjk ?_ delivered
    intro c hc hid
    rw [activatedByOther, hsj, Option.any_some, hphase] at hother
    simp [hjk, hc, hid] at hother
  · exact receive_unseen hjk _ _
  · exact ⟨rfl, .inl rfl, quiet_ne⟩
  · rename_i id _
    exact unseen_of_apart hjk _ _ (own_unregister _ _ _ _ id)
  · exact ⟨rfl, .inl rfl, quiet_ne⟩

theorem handle_unseen (hjk : j ≠ k) (id : UInt64) (frame : Inbound) (ok : Bool) (now : UInt64) :
    Unseen k g s (g.handle j sj id frame ok now) := by
  cases frame with
  | ping =>
    cases ok
    · exact setPhase_unseen hjk quiet_ne _
    · exact ⟨rfl, .inl rfl, quiet_ne⟩
  | pong => exact ⟨rfl, .inl rfl, quiet_ne⟩
  | refused => exact setPhase_unseen hjk quiet_ne _
  | ack messageId => exact ⟨rfl, .inl rfl, fun m => Effect.noConfusion⟩
  | message message =>
    unfold GatewayState.handle
    dsimp only
    split
    · exact setPhase_unseen hjk (fun m => Effect.noConfusion) _
    · cases (g.push message now (some j)).1
      · exact ⟨setSession_other hjk g _, .inl rfl, fun m => Effect.noConfusion⟩
      · exact ⟨rfl, .inl rfl, fun m => Effect.noConfusion⟩
      · exact ⟨setSession_other hjk g _, .inl rfl, fun m => Effect.noConfusion⟩
      · exact ⟨setSession_other hjk g _, .inl rfl, fun m => Effect.noConfusion⟩

/-- **Step of another session.** It takes the entry away, if anything. -/
theorem sessionStep_unseen (hjk : j ≠ k) (hsj : g.sessions[j]? = some sj) (input : SessionInput)
    (hother : activatedByOther k g (.session j input) = false) :
    Unseen k g s (g.sessionStep j sj input) := by
  unfold GatewayState.sessionStep
  split
  · exact advance_unseen hjk hsj _ _ hother
  · split
    · exact handle_unseen hjk _ _ _ _
    · exact ⟨rfl, .inl rfl, quiet_ne⟩
  · split
    · exact setPhase_unseen hjk quiet_ne _
    · exact ⟨rfl, .inl rfl, quiet_ne⟩

end

/-! ### All steps -/

/-- The session goes on if it is the one that waits. -/
theorem resume_view {g : GatewayState} {k : Nat} {s : Session} (hs : g.sessions[k]? = some s)
    (owner : Option Nat) :
    ∃ s', (g.resume owner).sessions[k]? = some s' ∧ s'.device = s.device ∧
      (g.resume owner).view k s' =
        if owner = some k then (g.view k s).resume else g.view k s := by
  cases owner with
  | none => exact ⟨s, hs, rfl, rfl⟩
  | some j =>
    by_cases hjk : j = k
    · subst hjk
      rw [if_pos rfl]
      simp only [GatewayState.resume, hs, View.resume]
      show ∃ s', _ ∧ _ ∧ _ = (match s.phase with
        | .routing id => (g.view j s).enter (.live id)
        | _ => g.view j s)
      cases s.phase with
      | routing id => exact ⟨{ s with phase := .live id }, setSession_self hs _, rfl, rfl⟩
      | _ => exact ⟨s, hs, rfl, rfl⟩
    · rw [if_neg fun h => hjk (Option.some.inj h)]
      refine ⟨s, ?_, rfl, ?_⟩
      · unfold GatewayState.resume
        dsimp only
        split
        · split
          · exact (setSession_other hjk g _).trans hs
          · exact hs
        · exact hs
      · unfold GatewayState.resume
        dsimp only
        split
        · split <;> rfl
        · rfl

/-- What `try_send` does to the view: the message comes if it is for the device. -/
theorem trySend_view {g : GatewayState} {k : Nat} {s : Session} (hown : Owned g)
    (hs : g.sessions[k]? = some s) (message : EncryptedMessage) :
    View.mk
      ((g.connections.trySend g.channels message.recipientDeviceId message).1.own k s.device)
      ((g.connections.trySend g.channels message.recipientDeviceId message).2 k) s =
    if message.recipientDeviceId = s.device then (g.view k s).arrive message else g.view k s := by
  rw [own_trySend, trySend_channel]
  by_cases hdevice : message.recipientDeviceId = s.device
  · -- the message goes to the session's channel if the entry is its own, and ready
    have hready : ((g.connections.inner.lookup s.device).any fun c => c.ready ∧ c.sender = k) =
        (g.connections.own k s.device).any (·.ready) := by
      rw [ConnectionRegistry.own]
      cases g.connections.inner.lookup s.device with
      | none => rfl
      | some c => by_cases hsender : c.sender = k <;> simp [hsender]
    rw [if_pos hdevice.symm, if_pos hdevice, hdevice, hready]
    rfl
  · -- an entry of another device is not owned by this session
    have hother : ((g.connections.inner.lookup message.recipientDeviceId).any
        fun c => c.ready ∧ c.sender = k) = false := by
      cases hlook : g.connections.inner.lookup message.recipientDeviceId with
      | none => rfl
      | some c =>
        have hsender : c.sender ≠ k := by
          intro hk
          have howner := hown _ c hlook
          rw [hk, devices_getElem hs] at howner
          exact hdevice (Option.some.inj howner).symm
        simp [hsender]
    rw [if_neg fun h => hdevice h.symm, if_neg hdevice, hother]
    rfl

/-- A task that ends brings its message to the device, and the session that waits for it on. -/
theorem route_movesTo {g : GatewayState} {k : Nat} {s : Session} (hown : Owned g)
    (hs : g.sessions[k]? = some s) (i : Nat) (task : RouteTask) :
    MovesTo k g s (.route i) (g.route i task) := by
  have hview := trySend_view hown hs task.message
  unfold GatewayState.route
  rcases htry : g.connections.trySend g.channels task.message.recipientDeviceId task.message
    with ⟨connections, channels⟩
  rw [htry] at hview
  obtain ⟨s', hs', hdevice, hresume⟩ := @resume_view
    { g with connections, channels, tasks := g.tasks.eraseIdx i } k s hs task.owner
  refine ⟨s', hs', hdevice, ?_⟩
  have hmove := Moves.routes (k := k) (g.view k s) i task.message (decide (task.owner = some k))
  rw [View.route, show (g.view k s).session.device = s.device from rfl, ← hview] at hmove
  simp only [decide_eq_true_eq] at hmove
  dsimp only
  rw [hresume]
  exact hmove

/-- A request is refused, or answered without a look at sessions, connections and channels. -/
theorem request_movesTo {g g' : GatewayState} {k : Nat} {s : Session}
    (hs : g.sessions[k]? = some s) (e : Event) (refused : Prop) [Decidable refused]
    {op : RelayOp} {answer : RelayAnswer} (hs' : g'.sessions[k]? = some s)
    (hview : g'.view k s = g.view k s) :
    MovesTo k g s e (if refused then (.forbidden, g) else (.relay op answer, g')) := by
  split
  · exact still_movesTo hs e fun _ => Effect.noConfusion
  · refine ⟨s, hs', rfl, ?_⟩
    rw [hview]
    exact Moves.still _ e _ fun _ => Effect.noConfusion

/-- **What a step of the gateway does to the view of a session.** -/
theorem gatewayStep_movesTo {g : GatewayState} {k : Nat} {s : Session} (hown : Owned g)
    (hs : g.sessions[k]? = some s) (e : Event) (hother : activatedByOther k g e = false) :
    MovesTo k g s e (gatewayStep g e) := by
  cases e with
  | enqueue device message now => exact request_movesTo hs _ _ hs rfl
  | route i =>
    obtain ⟨task, -, hstep⟩ | ⟨-, hstep⟩ := gatewayStep_route g i
    · rw [hstep]; exact route_movesTo hown hs i task
    · rw [hstep]; exact still_movesTo hs _ quiet_ne
  | poll authenticated device now => exact request_movesTo hs _ _ hs rfl
  | ack authenticated device messageId => exact request_movesTo hs _ _ hs rfl
  | upgrade device =>
    -- the new session comes last
    refine ⟨s, ?_, rfl, Moves.still _ _ _ quiet_ne⟩
    exact (List.getElem?_append_left (List.getElem?_eq_some_iff.mp hs).1).trans hs
  | session j input =>
    obtain ⟨sj, hsj, hstep⟩ | ⟨-, hstep⟩ := gatewayStep_session g j input
    · rw [hstep]
      by_cases hjk : j = k
      · subst hjk
        obtain rfl : s = sj := Option.some.inj (hs.symm.trans hsj)
        exact sessionStep_movesTo hs input
      · exact (sessionStep_unseen hjk hsj input hother).movesTo hs
    · rw [hstep]; exact still_movesTo hs _ quiet_ne

end NexaMessenger.Gateway
