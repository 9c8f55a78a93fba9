import NexaMessenger.Gateway.Ledger

namespace NexaMessenger.Gateway

open Lib Relay

/-!
# Gateway — whose entry it is

Every entry of the registry belongs to a session of its device: the sender of an entry is the
session that registered it, and sessions keep their device (`run_owned`).  `Keeps` is what every
step leaves of the registry and of the list of sessions.
-/

/-- The devices of the sessions, in the order of their upgrades. -/
def GatewayState.devices (g : GatewayState) : List Id16 := g.sessions.map (·.device)

/-- Every entry of the registry belongs to a session of its device. -/
def Owned (g : GatewayState) : Prop :=
  ∀ device c, g.connections.inner.lookup device = some c → g.devices[c.sender]? = some device

theorem devices_getElem {g : GatewayState} {k : Nat} {s : Session}
    (hs : g.sessions[k]? = some s) : g.devices[k]? = some s.device := by
  rw [GatewayState.devices, List.getElem?_map, hs]
  rfl

/-- A session keeps its device. -/
theorem devices_setSession {g : GatewayState} {k : Nat} {s s' : Session}
    (hs : g.sessions[k]? = some s) (hdevice : s'.device = s.device) :
    (g.setSession k s').devices = g.devices := by
  apply List.ext_getElem?
  intro j
  show ((g.sessions.set k s').map (·.device))[j]? = _
  rw [GatewayState.devices, List.map_set, hdevice, List.getElem?_set]
  split
  · rename_i hj
    subst hj
    have hlength : k < (g.sessions.map (·.device)).length := by
      rw [List.length_map]
      exact (List.getElem?_eq_some_iff.mp hs).1
    rw [if_pos hlength, List.getElem?_map, hs]
    rfl
  · rfl

/-- What a step leaves of the registry and of the list of devices: the devices of new sessions
    are appended, and every entry is of a sender that the entry of this device had before, or of
    a session of the device. -/
structure Keeps (added : List Id16) (g g' : GatewayState) : Prop where
  devices : g'.devices = g.devices ++ added
  entries : ∀ device c', g'.connections.inner.lookup device = some c' →
    (∃ c, g.connections.inner.lookup device = some c ∧ c.sender = c'.sender) ∨
      g'.devices[c'.sender]? = some device

theorem Keeps.of_eq {g g' : GatewayState} (hdevices : g'.devices = g.devices)
    (hinner : g'.connections.inner = g.connections.inner) : Keeps [] g g' := by
  refine ⟨by rw [hdevices, List.append_nil], fun device c' h => .inl ⟨c', ?_, rfl⟩⟩
  rw [← hinner]
  exact h

/-- A device keeps its place in the list. -/
theorem Keeps.getElem? {added : List Id16} {g g' : GatewayState} (h : Keeps added g g') {i : Nat}
    {device : Id16} (hi : g.devices[i]? = some device) : g'.devices[i]? = some device := by
  rw [h.devices, List.getElem?_append_left (List.getElem?_eq_some_iff.mp hi).1]
  exact hi

theorem Owned.of_keeps {added : List Id16} {g g' : GatewayState} (h : Owned g)
    (hkeeps : Keeps added g g') : Owned g' := by
  intro device c' hc'
  rcases hkeeps.entries device c' hc' with ⟨c, hc, hsender⟩ | howned
  · rw [← hsender]
    exact hkeeps.getElem? (h device c hc)
  · exact howned

section
variable {g : GatewayState} {k : Nat} {s : Session}

theorem setPhase_keeps (hs : g.sessions[k]? = some s) (phase : Phase) :
    Keeps [] g (g.setPhase k s phase) := by
  apply Keeps.of_eq
  · exact devices_setSession hs rfl
  · rfl

theorem receive_entries (hs : g.sessions[k]? = some s) (id : UInt64) (ok : Bool) :
    Keeps [] g (g.receive k s id ok) := by
  unfold GatewayState.receive
  split
  · dsimp only
    cases ok
    · exact Keeps.of_eq (devices_setSession hs rfl) rfl
    · exact Keeps.of_eq (devices_setSession hs rfl) rfl
  · split
    · exact Keeps.of_eq rfl rfl
    · exact setPhase_keeps hs _

theorem advance_keeps (hs : g.sessions[k]? = some s) (ok : Bool) (now : UInt64) :
    Keeps [] g (g.advance k s ok now).2 := by
  unfold GatewayState.advance
  split
  · -- `fetch_add` does not touch the entries
    cases ok
    · exact Keeps.of_eq (devices_setSession hs rfl) rfl
    · exact Keeps.of_eq (devices_setSession hs rfl) rfl
  · rename_i id _
    -- the new entry is owned by this session, which is of the device
    have hdevices : (g.setPhase k s (.registered id)).devices = g.devices :=
      devices_setSession hs rfl
    refine ⟨?_, ?_⟩
    · show (g.setPhase k s (.registered id)).devices = _
      rw [hdevices, List.append_nil]
    intro device c' hc'
    rw [register_lookup] at hc'
    split at hc'
    · rename_i hdevice
      obtain rfl := Option.some.inj hc'
      right
      show (g.setPhase k s (.registered id)).devices[k]? = some device
      rw [hdevices, hdevice]
      exact devices_getElem hs
    · exact .inl ⟨c', hc', rfl⟩
  · exact setPhase_keeps hs _
  · exact Keeps.of_eq (devices_setSession hs rfl) rfl
  · cases ok
    · exact setPhase_keeps hs _
    · exact Keeps.of_eq (devices_setSession hs rfl) rfl
  · rename_i id delivered _
    -- `activate` keeps the sender of the entry
    obtain ⟨state, hlook, -, hactive, hentries, -⟩ | ⟨-, hfail⟩ :=
      activate_cases g.connections g.channels s.device id delivered
    · rcases hact : g.connections.activate g.channels s.device id delivered with
        ⟨active, connections, channels⟩
      rw [hact] at hactive hentries
      obtain rfl : active = true := hactive
      have hdevices : (g.setPhase k s (.live id)).devices = g.devices := devices_setSession hs rfl
      refine ⟨by show (g.setPhase k s (.live id)).devices = _; rw [hdevices, List.append_nil], ?_⟩
      intro device c' hc'
      have hc' : connections.inner.lookup device = some c' := hc'
      rw [hentries] at hc'
      left
      split at hc'
      · rename_i hdevice
        obtain rfl := Option.some.inj hc'
        exact ⟨state, by rw [hdevice]; exact hlook, rfl⟩
      · exact ⟨c', hc', rfl⟩
    · rw [hfail]
      exact Keeps.of_eq (devices_setSession hs rfl) rfl
  · exact receive_entries hs _ _
  · exact Keeps.of_eq rfl rfl
  · rename_i id _
    -- `unregister` adds no entry
    have hdevices : (g.close k s).devices = g.devices := devices_setSession hs rfl
    refine ⟨by show (g.close k s).devices = _; rw [hdevices, List.append_nil], ?_⟩
    intro device c' hc'
    have hc' : (g.connections.unregister s.device id).inner.lookup device = some c' := hc'
    rw [unregister_lookup] at hc'
    split at hc'
    · exact absurd hc' (by simp)
    · exact .inl ⟨c', hc', rfl⟩
  · exact Keeps.of_eq rfl rfl

theorem handle_keeps (hs : g.sessions[k]? = some s) (id : UInt64) (frame : Inbound) (ok : Bool)
    (now : UInt64) : Keeps [] g (g.handle k s id frame ok now).2 := by
  cases frame with
  | ping =>
    cases ok
    · exact setPhase_keeps hs _
    · exact Keeps.of_eq rfl rfl
  | pong => exact Keeps.of_eq rfl rfl
  | refused => exact setPhase_keeps hs _
  | ack messageId => exact Keeps.of_eq rfl rfl
  | message message =>
    unfold GatewayState.handle
    dsimp only
    split
    · exact setPhase_keeps hs _
    · cases (g.push message now (some k)).1
      · exact Keeps.of_eq (devices_setSession hs rfl) rfl
      · exact Keeps.of_eq rfl rfl
      · exact Keeps.of_eq (devices_setSession hs rfl) rfl
      · exact Keeps.of_eq (devices_setSession hs rfl) rfl

/-- **Step of a session.** Only `register` makes an entry, and it is the session's own. -/
theorem sessionStep_keeps (hs : g.sessions[k]? = some s) (input : SessionInput) :
    Keeps [] g (g.sessionStep k s input).2 := by
  unfold GatewayState.sessionStep
  split
  · exact advance_keeps hs _ _
  · split
    · exact handle_keeps hs _ _ _ _
    · exact Keeps.of_eq rfl rfl
  · split
    · exact setPhase_keeps hs _
    · exact Keeps.of_eq rfl rfl

end

theorem resume_entries (g : GatewayState) (owner : Option Nat) : Keeps [] g (g.resume owner) := by
  unfold GatewayState.resume
  cases owner with
  | none => exact Keeps.of_eq rfl rfl
  | some j =>
    dsimp only
    split
    · rename_i s hs
      split
      · exact setPhase_keeps hs _
      · exact Keeps.of_eq rfl rfl
    · exact Keeps.of_eq rfl rfl

theorem route_keeps (g : GatewayState) (i : Nat) (task : RouteTask) :
    Keeps [] g (g.route i task).2 := by
  unfold GatewayState.route
  have hentries := trySend_lookup g.connections g.channels task.message.recipientDeviceId
  rcases htry : g.connections.trySend g.channels task.message.recipientDeviceId task.message
    with ⟨connections, channels⟩
  have hresume := resume_entries { g with connections, channels, tasks := g.tasks.eraseIdx i }
    task.owner
  refine ⟨hresume.devices, fun device c' hc' => ?_⟩
  rcases hresume.entries device c' hc' with ⟨c, hc, hsender⟩ | howned
  · left
    have hc : connections.inner.lookup device = some c := hc
    have hlook := hentries device task.message
    rw [htry] at hlook
    rw [hlook] at hc
    split at hc
    · obtain ⟨state, hstate, rfl⟩ := Option.map_eq_some_iff.mp hc
      -- an entry that keeps a message keeps its sender
      refine ⟨state, hstate, ?_⟩
      rw [← hsender, ConnectionState.keep]
      split <;> rfl
    · exact ⟨c, hc, hsender⟩
  · exact .inr howned

/-- The device of the session that an event starts. -/
def Event.added : Event → List Id16
  | .upgrade device => [device]
  | _ => []

/-- **Step.** -/
theorem gatewayStep_keeps (g : GatewayState) (e : Event) :
    Keeps e.added g (gatewayStep g e).2 := by
  cases e with
  | enqueue device message now =>
    unfold gatewayStep
    dsimp only
    split
    · exact Keeps.of_eq rfl rfl
    · exact Keeps.of_eq rfl rfl
  | route i =>
    obtain ⟨task, -, hstep⟩ | ⟨-, hstep⟩ := gatewayStep_route g i
    · rw [hstep]; exact route_keeps g i task
    · rw [hstep]; exact Keeps.of_eq rfl rfl
  | poll authenticated device now =>
    unfold gatewayStep
    dsimp only
    split
    · exact Keeps.of_eq rfl rfl
    · exact Keeps.of_eq rfl rfl
  | ack authenticated device messageId =>
    unfold gatewayStep
    dsimp only
    split
    · exact Keeps.of_eq rfl rfl
    · exact Keeps.of_eq rfl rfl
  | upgrade device =>
    -- the new session comes last, so the numbers of the others stay
    refine ⟨?_, fun device c' h => .inl ⟨c', h, rfl⟩⟩
    show (g.sessions ++ [_]).map Session.device = g.devices ++ [device]
    rw [List.map_append]
    rfl
  | session k input =>
    obtain ⟨s, hs, hstep⟩ | ⟨-, hstep⟩ := gatewayStep_session g k input
    · rw [hstep]; exact sessionStep_keeps hs input
    · rw [hstep]; exact Keeps.of_eq rfl rfl

/-- **Runs.** Every entry that is ever found belongs to a session of its device. -/
theorem run_owned (events : List Event) : Owned (after gatewayStep GatewayState.start events) :=
  after_invariant (P := Owned) (fun g e h => h.of_keeps (gatewayStep_keeps g e))
    (fun device c h => by simp [GatewayState.start, ConnectionRegistry.empty] at h) events

end NexaMessenger.Gateway
