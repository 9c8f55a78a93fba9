import NexaMessenger.Lib.Tickets
import NexaMessenger.Gateway.View

namespace NexaMessenger.Gateway

open Lib Relay

/-!
# Gateway — the numbers of connections

A session draws the number of its connection once, before it takes the entry of its device.  While
fewer than 2^64 sessions are started the numbers are all different, and an entry has the number of
the session that registered it (`Numbered`).  So no session can activate the connection of another
one (`never_activatedByOther`).
-/

/-- The number of its connection, from the time a session has drawn it until the session returns. -/
def Phase.number : Phase → Option UInt64
  | .numbered id | .registered id | .greeted id | .sending id _ _ | .live id | .routing id
  | .leaving id => some id
  | .upgraded | .closed => none

/-- Session `k` has the number. -/
def GatewayState.Holds (g : GatewayState) (k : Nat) (id : UInt64) : Prop :=
  ∃ s, g.sessions[k]? = some s ∧ s.phase.number = some id

/-- How many sessions may still draw. -/
def GatewayState.undrawn (g : GatewayState) : Nat := g.sessions.countP fun s => s.phase = .upgraded

/-- After `n` draws: the sessions have different numbers, each has drawn at most once, and an entry
    has the number of its session. -/
structure Numbered (n : Nat) (g : GatewayState) : Prop where
  issued : Issued n g.connections.nextId g.Holds
  draws : n + g.undrawn ≤ g.sessions.length
  entry : ∀ device c, g.connections.inner.lookup device = some c → g.Holds c.sender c.id

section
variable {g : GatewayState} {n k : Nat} {s : Session}

theorem holds_self (hs : g.sessions[k]? = some s) {id : UInt64} :
    g.Holds k id ↔ s.phase.number = some id := by
  constructor
  · rintro ⟨s', hs', hid⟩
    obtain rfl := Option.some.inj (hs.symm.trans hs')
    exact hid
  · exact fun hid => ⟨s, hs, hid⟩

/-- The other sessions keep their numbers. -/
theorem holds_setSession (hs : g.sessions[k]? = some s) (s' : Session) (j : Nat) (id : UInt64) :
    (g.setSession k s').Holds j id ↔
      if j = k then s'.phase.number = some id else g.Holds j id := by
  by_cases hj : j = k
  · subst hj
    rw [if_pos rfl, holds_self (setSession_self hs s')]
  · rw [if_neg hj, GatewayState.Holds, setSession_other (Ne.symm hj)]
    rfl

theorem undrawn_setSession (hs : g.sessions[k]? = some s) (s' : Session) :
    (g.setSession k s').undrawn + (if s.phase = .upgraded then 1 else 0) =
      g.undrawn + if s'.phase = .upgraded then 1 else 0 := by
  obtain ⟨hlength, hget⟩ := List.getElem?_eq_some_iff.mp hs
  have hpos : (if s.phase = .upgraded then 1 else 0) ≤ g.undrawn := by
    split
    · rename_i hphase
      exact List.countP_pos_iff.mpr ⟨s, List.mem_of_getElem? hs, by simpa using hphase⟩
    · exact Nat.zero_le _
  have hset := List.countP_set (p := fun s : Session => decide (s.phase = .upgraded)) (a := s')
    hlength
  rw [hget] at hset
  simp only [decide_eq_true_eq] at hset
  have hset : (g.setSession k s').undrawn = g.undrawn - (if s.phase = .upgraded then 1 else 0) +
    if s'.phase = .upgraded then 1 else 0 := hset
  omega

/-- A step that draws no number, and whose entries are of sessions that have their numbers. -/
theorem Numbered.congr (h : Numbered n g) {g' : GatewayState}
    (hnext : g'.connections.nextId = g.connections.nextId)
    (hundrawn : g'.undrawn + g.sessions.length ≤ g.undrawn + g'.sessions.length)
    (hholds : ∀ k id, g'.Holds k id → g.Holds k id)
    (hentry : ∀ device c, g'.connections.inner.lookup device = some c → g'.Holds c.sender c.id) :
    Numbered n g' where
  issued := by
    rw [hnext]
    exact h.issued.mono hholds
  draws := by
    have := h.draws
    omega
  entry := hentry

/-- Entries that keep their sender and number. -/
def SameEntries (r r' : ConnectionRegistry) : Prop :=
  ∀ device c', r'.inner.lookup device = some c' →
    ∃ c, r.inner.lookup device = some c ∧ c.sender = c'.sender ∧ c.id = c'.id

theorem SameEntries.refl (r : ConnectionRegistry) : SameEntries r r :=
  fun _ c h => ⟨c, h, rfl, rfl⟩

/-- A step that leaves the sessions alone. -/
theorem Numbered.still (h : Numbered n g) {connections : ConnectionRegistry}
    (hnext : connections.nextId = g.connections.nextId)
    (hentries : SameEntries g.connections connections) (channels : Channels) (relay : RelayStore)
    (tasks : List RouteTask) : Numbered n { g with connections, channels, relay, tasks } := by
  refine h.congr hnext (Nat.le_refl _) (fun _ _ hj => hj) ?_
  intro device c' hc'
  obtain ⟨c, hc, hsender, hid⟩ := hentries device c' hc'
  rw [← hsender, ← hid]
  exact h.entry device c hc

/-- A session goes on under its number. -/
theorem Numbered.setSession (h : Numbered n g) (hs : g.sessions[k]? = some s) {id : UInt64}
    (hold : s.phase.number = some id) {s' : Session} (hnumber : s'.phase.number = some id) :
    Numbered n (g.setSession k s') := by
  have hphase : s'.phase ≠ .upgraded := by
    intro hphase
    rw [hphase] at hnumber
    cases hnumber
  have hholds (j : Nat) (id : UInt64) : (g.setSession k s').Holds j id ↔ g.Holds j id := by
    rw [holds_setSession hs]
    split
    · rename_i hj
      rw [hj, hnumber, holds_self hs, hold]
    · exact Iff.rfl
  have hundrawn := undrawn_setSession hs s'
  rw [if_neg hphase] at hundrawn
  refine h.congr rfl ?_ (fun j id hj => (hholds j id).mp hj) ?_
  · show (g.setSession k s').undrawn + _ ≤ _ + (g.sessions.set k s').length
    rw [List.length_set]
    omega
  · intro device c hc
    exact (hholds c.sender c.id).mpr (h.entry device c hc)

/-- **Draw.** The new number is nobody's, as long as there are any. -/
theorem Numbered.draw (h : Numbered n g) (hs : g.sessions[k]? = some s)
    (hphase : s.phase = .upgraded) (hn : n + 1 < 2 ^ 64) :
    Numbered (n + 1) { g.setPhase k s (.numbered g.connections.fetchId.1) with
      connections := g.connections.fetchId.2 } := by
  have hnone (id : UInt64) : ¬ g.Holds k id := by
    rw [holds_self hs, hphase]
    simp [Phase.number]
  refine ⟨h.issued.draw (k := k) hn fun j id hj => ?_, ?_, ?_⟩
  · have hj := (holds_setSession hs _ j id).mp hj
    split at hj
    · rename_i hjk
      exact .inl ⟨hjk, (Option.some.inj hj).symm⟩
    · exact .inr hj
  · have hundrawn := undrawn_setSession hs { s with phase := .numbered g.connections.fetchId.1 }
    rw [if_pos hphase, if_neg (by simp)] at hundrawn
    have hdraws := h.draws
    show n + 1 + (g.setPhase k s _).undrawn ≤ (g.sessions.set k _).length
    rw [List.length_set, GatewayState.setPhase]
    omega
  · intro device c hc
    have hc := h.entry device c hc
    have hsender : c.sender ≠ k := by
      intro hk
      rw [hk] at hc
      exact hnone c.id hc
    refine (holds_setSession hs _ c.sender c.id).mpr ?_
    rw [if_neg hsender]
    exact hc

/-- **Return.** A session that returns has no entry any more. -/
theorem Numbered.close (h : Numbered n g) (hs : g.sessions[k]? = some s)
    {connections : ConnectionRegistry} (hnext : connections.nextId = g.connections.nextId)
    (hentries : ∀ device c, connections.inner.lookup device = some c →
      g.connections.inner.lookup device = some c ∧ c.sender ≠ k) :
    Numbered n { g.close k s with connections } := by
  have hholds (j : Nat) (id : UInt64) :
      (g.setPhase k s .closed).Holds j id ↔ j ≠ k ∧ g.Holds j id := by
    rw [GatewayState.setPhase, holds_setSession hs]
    split
    · rename_i hj
      simp [hj, Phase.number]
    · rename_i hj
      simp [hj]
  have hclosed : Phase.closed ≠ .upgraded := by simp
  have hundrawn := undrawn_setSession hs { s with phase := .closed }
  rw [if_neg hclosed] at hundrawn
  refine h.congr hnext ?_ (fun j id hj => ((hholds j id).mp hj).2) ?_
  · show (g.setPhase k s .closed).undrawn + _ ≤ _ + (g.sessions.set k _).length
    rw [List.length_set, GatewayState.setPhase]
    omega
  · intro device c hc
    obtain ⟨hc, hsender⟩ := hentries device c hc
    exact (hholds c.sender c.id).mpr ⟨hsender, h.entry device c hc⟩

/-- An entry of session `k` is under its device and has its number. -/
theorem Numbered.own_entry (h : Numbered n g) (hown : Owned g) (hs : g.sessions[k]? = some s)
    {device : Id16} {c : ConnectionState} (hc : g.connections.inner.lookup device = some c)
    (hsender : c.sender = k) : device = s.device ∧ s.phase.number = some c.id := by
  constructor
  · have howner := hown device c hc
    rw [hsender, devices_getElem hs] at howner
    exact (Option.some.inj howner).symm
  · have hholds := h.entry device c hc
    rw [hsender, holds_self hs] at hholds
    exact hholds

/-- **Registration.** The new entry has the number of its session. -/
theorem Numbered.register (h : Numbered n g) (hs : g.sessions[k]? = some s) {id : UInt64}
    (hphase : s.phase = .numbered id) (channels : Channels) :
    Numbered n { g.setPhase k s (.registered id) with
      connections := g.connections.register s.device id k, channels } := by
  have hold : s.phase.number = some id := by rw [hphase]; rfl
  have hsame : Numbered n (g.setPhase k s (.registered id)) := h.setSession hs hold rfl
  refine hsame.congr rfl (Nat.le_refl _) (fun _ _ hj => hj) ?_
  intro device c hc
  have hc : (g.connections.register s.device id k).inner.lookup device = some c := hc
  rw [register_lookup] at hc
  split at hc
  · obtain rfl := Option.some.inj hc
    refine (holds_setSession hs _ k id).mpr ?_
    rw [if_pos rfl]
    rfl
  · exact hsame.entry device c hc

theorem Numbered.receive (h : Numbered n g) (hs : g.sessions[k]? = some s) {id : UInt64}
    (hphase : s.phase = .live id) (ok : Bool) : Numbered n (g.receive k s id ok) := by
  have hold : s.phase.number = some id := by rw [hphase]; rfl
  unfold GatewayState.receive
  split
  · cases ok
    · exact (h.setSession hs hold rfl).still rfl (SameEntries.refl _) _ g.relay g.tasks
    · refine (h.setSession hs hold ?_).still rfl (SameEntries.refl _) _ g.relay g.tasks
      exact hold
  · split
    · exact h
    · exact h.setSession hs hold rfl

/-- A session that finds another number in the entry returns, and the entry is not its own. -/
theorem Numbered.activate (h : Numbered n g) (hown : Owned g) (hs : g.sessions[k]? = some s)
    {id : UInt64} {delivered : List Id16} (hphase : s.phase = .sending id delivered []) :
    Numbered n
      (let (active, connections, channels) :=
        g.connections.activate g.channels s.device id delivered
      if active then (Effect.quiet, { g.setPhase k s (.live id) with connections, channels })
      else (.quiet, g.close k s)).2 := by
  have hold : s.phase.number = some id := by rw [hphase]; rfl
  have hnext := nextId_activate g.connections g.channels s.device id delivered
  obtain ⟨state, hlook, -, hactive, hentries, -⟩ | ⟨hothers, hfail⟩ :=
    activate_cases g.connections g.channels s.device id delivered
  · rcases hact : g.connections.activate g.channels s.device id delivered with
      ⟨active, connections, channels⟩
    rw [hact] at hactive hentries hnext
    obtain rfl : active = true := hactive
    refine (h.setSession hs hold rfl).still hnext ?_ channels g.relay g.tasks
    intro device c' hc'
    rw [hentries] at hc'
    split at hc'
    · rename_i hdevice
      obtain rfl := Option.some.inj hc'
      exact ⟨state, by rw [hdevice]; exact hlook, rfl, rfl⟩
    · exact ⟨c', hc', rfl, rfl⟩
  · rw [hfail]
    refine h.close hs rfl fun device c hc => ⟨hc, ?_⟩
    intro hsender
    obtain ⟨rfl, hid⟩ := h.own_entry hown hs hc hsender
    exact hothers c hc (Option.some.inj (hid.symm.trans hold))

/-- A session that leaves takes its entry with it. -/
theorem Numbered.leave (h : Numbered n g) (hown : Owned g) (hs : g.sessions[k]? = some s)
    {id : UInt64} (hphase : s.phase = .leaving id) :
    Numbered n { g.close k s with connections := g.connections.unregister s.device id } := by
  refine h.close hs (nextId_unregister _ _ _) fun device c hc => ?_
  rw [unregister_lookup] at hc
  split at hc
  · cases hc
  · rename_i hkept
    refine ⟨hc, fun hsender => hkept ?_⟩
    obtain ⟨rfl, hid⟩ := h.own_entry hown hs hc hsender
    rw [hphase] at hid
    refine ⟨rfl, ?_⟩
    rw [hc]
    exact decide_eq_true (Option.some.inj hid).symm

/-- Another draw is possible. -/
theorem Numbered.draws_lt (h : Numbered n g) (hs : g.sessions[k]? = some s)
    (hphase : s.phase = .upgraded) (hlength : g.sessions.length < 2 ^ 64) : n + 1 < 2 ^ 64 := by
  have hpos : 0 < g.undrawn :=
    List.countP_pos_iff.mpr ⟨s, List.mem_of_getElem? hs, decide_eq_true hphase⟩
  have hdraws := h.draws
  omega

theorem Numbered.advance (h : Numbered n g) (hown : Owned g) (hlength : g.sessions.length < 2 ^ 64)
    (hs : g.sessions[k]? = some s) (ok : Bool) (now : UInt64) :
    ∃ n', Numbered n' (g.advance k s ok now).2 := by
  unfold GatewayState.advance
  split
  · rename_i hphase
    split
    · exact ⟨n + 1, h.draw hs hphase (h.draws_lt hs hphase hlength)⟩
    · refine ⟨n, h.close hs rfl fun device c hc => ⟨hc, fun hsender => ?_⟩⟩
      have hnumber := (h.own_entry hown hs hc hsender).2
      rw [hphase] at hnumber
      cases hnumber
  · rename_i id hphase
    exact ⟨n, h.register hs hphase _⟩
  · rename_i id hphase
    have hold : s.phase.number = some id := by rw [hphase]; rfl
    exact ⟨n, h.setSession hs hold (by cases ok <;> rfl)⟩
  · rename_i id hphase
    have hold : s.phase.number = some id := by rw [hphase]; rfl
    exact ⟨n, (h.setSession hs hold rfl).still rfl (SameEntries.refl _) g.channels _ g.tasks⟩
  · rename_i id delivered m rest hphase
    have hold : s.phase.number = some id := by rw [hphase]; rfl
    split
    · exact ⟨n, h.setSession hs hold rfl⟩
    · exact ⟨n, h.setSession hs hold rfl⟩
  · rename_i id delivered hphase
    exact ⟨n, h.activate hown hs hphase⟩
  · rename_i id hphase
    exact ⟨n, h.receive hs hphase ok⟩
  · exact ⟨n, h⟩
  · rename_i id hphase
    exact ⟨n, h.leave hown hs hphase⟩
  · exact ⟨n, h⟩

/-- What is stored and routed is not about numbers. -/
theorem Numbered.push (h : Numbered n g) (message : EncryptedMessage) (now : UInt64)
    (owner : Option Nat) : Numbered n (g.push message now owner).2 :=
  h.still rfl (SameEntries.refl _) g.channels _ _

theorem Numbered.handle (h : Numbered n g) (hs : g.sessions[k]? = some s) {id : UInt64}
    (hphase : s.phase = .live id) (frame : Inbound) (ok : Bool) (now : UInt64) :
    Numbered n (g.handle k s id frame ok now).2 := by
  have hold : s.phase.number = some id := by rw [hphase]; rfl
  cases frame with
  | ping =>
    cases ok
    · exact h.setSession hs hold rfl
    · exact h
  | pong => exact h
  | refused => exact h.setSession hs hold rfl
  | ack messageId => exact h.still rfl (SameEntries.refl _) g.channels _ g.tasks
  | message message =>
    unfold GatewayState.handle
    dsimp only
    split
    · exact h.setSession hs hold rfl
    · have hpush := h.push message now (some k)
      cases (g.push message now (some k)).1
      · exact hpush.setSession hs hold rfl
      · exact hpush
      · exact hpush.setSession hs hold rfl
      · exact hpush.setSession hs hold rfl

theorem Numbered.resume (h : Numbered n g) (owner : Option Nat) : Numbered n (g.resume owner) := by
  unfold GatewayState.resume
  cases owner with
  | none => exact h
  | some j =>
    dsimp only
    split
    · rename_i s hs
      split
      · rename_i id hphase
        exact h.setSession hs (by rw [hphase]; rfl) rfl
      · exact h
    · exact h

/-- An entry that keeps a message keeps its sender and its number. -/
theorem Numbered.route (h : Numbered n g) (i : Nat) (task : RouteTask) :
    Numbered n (g.route i task).2 := by
  have hkeep (c : ConnectionState) (m : EncryptedMessage) :
      c.sender = (c.keep m).sender ∧ c.id = (c.keep m).id := by
    unfold ConnectionState.keep
    split <;> exact ⟨rfl, rfl⟩
  unfold GatewayState.route
  refine (h.still (nextId_trySend _ _ _ _) ?_ _ g.relay _).resume task.owner
  intro device c' hc'
  rw [trySend_lookup] at hc'
  split at hc'
  · obtain ⟨c, hc, rfl⟩ := Option.map_eq_some_iff.mp hc'
    exact ⟨c, hc, hkeep c task.message⟩
  · exact ⟨c', hc', rfl, rfl⟩

theorem Numbered.upgrade (h : Numbered n g) (device : Id16) :
    Numbered n { g with sessions := g.sessions ++ [⟨device, .upgraded, [], [], []⟩] } := by
  have hholds (k : Nat) (id : UInt64) :
      GatewayState.Holds { g with sessions := g.sessions ++ [⟨device, .upgraded, [], [], []⟩] }
        k id ↔ g.Holds k id := by
    constructor
    · rintro ⟨s, hs, hid⟩
      by_cases hk : k < g.sessions.length
      · exact ⟨s, (List.getElem?_append_left hk).symm.trans hs, hid⟩
      · -- the new session has no number
        have hs := (List.getElem?_append_right (Nat.not_lt.mp hk)).symm.trans hs
        obtain rfl := List.mem_singleton.mp (List.mem_of_getElem? hs)
        cases hid
    · rintro ⟨s, hs, hid⟩
      exact ⟨s, (List.getElem?_append_left (List.getElem?_eq_some_iff.mp hs).1).trans hs, hid⟩
  refine h.congr rfl ?_ (fun k id => (hholds k id).mp) fun d c hc =>
    (hholds c.sender c.id).mpr (h.entry d c hc)
  show List.countP _ (g.sessions ++ [_]) + _ ≤ _ + (g.sessions ++ [_]).length
  rw [List.countP_append, List.length_append, List.length_singleton, List.countP_singleton,
    if_pos (by simp), GatewayState.undrawn]
  omega

end

/-- **Step.** -/
theorem Numbered.step {g : GatewayState} {n : Nat} (h : Numbered n g) (hown : Owned g)
    (hlength : g.sessions.length < 2 ^ 64) (e : Event) :
    ∃ n', Numbered n' (gatewayStep g e).2 := by
  cases e with
  | enqueue device message now =>
    unfold gatewayStep
    dsimp only
    split
    · exact ⟨n, h⟩
    · exact ⟨n, h.push message now none⟩
  | route i =>
    obtain ⟨task, -, hstep⟩ | ⟨-, hstep⟩ := gatewayStep_route g i
    · rw [hstep]
      exact ⟨n, h.route i task⟩
    · rw [hstep]
      exact ⟨n, h⟩
  | poll authenticated device now =>
    unfold gatewayStep
    dsimp only
    split
    · exact ⟨n, h⟩
    · exact ⟨n, h.still rfl (SameEntries.refl _) g.channels _ g.tasks⟩
  | ack authenticated device messageId =>
    unfold gatewayStep
    dsimp only
    split
    · exact ⟨n, h⟩
    · exact ⟨n, h.still rfl (SameEntries.refl _) g.channels _ g.tasks⟩
  | upgrade device => exact ⟨n, h.upgrade device⟩
  | session k input =>
    obtain ⟨s, hs, hstep⟩ | ⟨-, hstep⟩ := gatewayStep_session g k input
    · rw [hstep]
      unfold GatewayState.sessionStep
      split
      · exact h.advance hown hlength hs _ _
      · split
        · rename_i hphase
          exact ⟨n, h.handle hs hphase _ _ _⟩
        · exact ⟨n, h⟩
      · split
        · rename_i id hphase
          exact ⟨n, h.setSession hs (by rw [hphase]; rfl) rfl⟩
        · exact ⟨n, h⟩
    · rw [hstep]
      exact ⟨n, h⟩

/-- Sessions do not go away. -/
theorem sessions_length_mono {pre events : List Event} (hpre : pre <+: events) :
    (after gatewayStep GatewayState.start pre).sessions.length ≤
      (after gatewayStep GatewayState.start events).sessions.length := by
  obtain ⟨post, rfl⟩ := hpre
  rw [after_append]
  refine after_invariant (P := fun g : GatewayState =>
    (after gatewayStep GatewayState.start pre).sessions.length ≤ g.sessions.length)
    (fun g e hle => hle.trans ?_) (Nat.le_refl _) post
  have hkeeps := congrArg List.length (gatewayStep_keeps g e).devices
  rw [List.length_append, GatewayState.devices, GatewayState.devices, List.length_map,
    List.length_map] at hkeeps
  omega

/-- **Runs.** -/
theorem run_numbered (events : List Event)
    (hlength : (after gatewayStep GatewayState.start events).sessions.length < 2 ^ 64) :
    ∃ n, Numbered n (after gatewayStep GatewayState.start events) := by
  induction events using List.reverseRecOn with
  | nil =>
    refine ⟨0, Issued.start ?_, Nat.zero_le _, ?_⟩
    · rintro k id ⟨s, hs, -⟩
      cases hs
    · intro device c hc
      simp [GatewayState.start, ConnectionRegistry.empty] at hc
  | append_singleton events e ih =>
    have hshorter := (sessions_length_mono (List.prefix_append events [e])).trans_lt hlength
    obtain ⟨n, h⟩ := ih hshorter
    rw [after_concat]
    exact h.step (run_owned events) hshorter e

/-- **Numbers differ.**  With fewer than 2^64 sessions, none ever activates the connection of
    another one. -/
theorem never_activatedByOther (events : List Event)
    (hlength : (after gatewayStep GatewayState.start events).sessions.length < 2 ^ 64) (k : Nat) :
    Along gatewayStep (fun g e => activatedByOther k g e = false) GatewayState.start events := by
  refine along_of_steps fun pre e hpre => ?_
  have hshorter : (after gatewayStep GatewayState.start pre).sessions.length < 2 ^ 64 :=
    (sessions_length_mono ((List.prefix_append _ _).trans hpre)).trans_lt hlength
  obtain ⟨n, h⟩ := run_numbered pre hshorter
  cases e with
  | session j input =>
    cases input with
    | next ok now =>
      rw [activatedByOther, Bool.and_eq_false_iff]
      by_cases hjk : j = k
      · exact .inl (by simp [hjk])
      right
      cases hsj : (after gatewayStep GatewayState.start pre).sessions[j]? with
      | none => rfl
      | some sj =>
        rw [Option.any_some]
        split
        · rename_i id delivered hphase
          -- an entry of session `k` has the number of session `k`
          rw [Option.any_eq_false]
          intro c hc
          obtain ⟨hlook, hsender⟩ := (own_eq_some _ _ _).mp hc
          have hholds := h.entry _ c hlook
          rw [hsender] at hholds
          rw [decide_eq_false_iff_not]
          intro hid
          rw [hid] at hholds
          exact hjk (h.issued.unique j k id ⟨sj, hsj, by rw [hphase]; rfl⟩ hholds)
        · rfl
    | inbound frame ok now => rfl
    | hangUp => rfl
  | _ => rfl

end NexaMessenger.Gateway
