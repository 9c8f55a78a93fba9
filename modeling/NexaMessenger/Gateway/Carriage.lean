import NexaMessenger.Gateway.HandOver
import NexaMessenger.Relay.Admission

namespace NexaMessenger.Gateway

open Lib Relay

/-!
# Gateway — what is on its way

The gateway checks a message once, when it is pushed to the relay.  From there on it is handed from
place to place: the queues of the relay, the tasks, the entries of the registry, the channels and
the hands of the sessions.  All of these are places of a device: that of the queue, of the entry or
of the session, and for a task the recipient of its message.

`Carries` says that what is in the places of a device has a property of messages for this device.
No step puts a message into one of these places that was not in another of the device before or was
accepted by the relay just now (`Carries.step`).  So all that ever comes to a socket is valid, as
what is accepted is, and is addressed to the device of the session, as what is in its queue is.
-/

/-- The messages that a session has written or is about to write. -/
def Session.held (s : Session) : List EncryptedMessage :=
  match s.phase with
  | .sending _ _ rest => rest ++ s.socket
  | _ => s.socket

/-- Every message that waits in the registry, in a channel or in the hands of a session has the
    property `P`, for the device whose place it is. -/
structure Holds (P : Id16 → EncryptedMessage → Prop) (g : GatewayState) : Prop where
  entries : ∀ device c, g.connections.inner.lookup device = some c → ∀ m ∈ c.pending, P device m
  channels : ∀ k, ∀ m ∈ (g.channels k).queue, ∃ device, g.devices[k]? = some device ∧ P device m
  sessions : ∀ (k : Nat) s, g.sessions[k]? = some s → ∀ m ∈ s.held, P s.device m

/-- Every message that is on its way has the property `P`, for the device whose place it is in. -/
structure Carries (P : Id16 → EncryptedMessage → Prop) (g : GatewayState) : Prop
    extends Holds P g where
  owned : Owned g
  stored : ∀ d, ∀ x ∈ g.relay.queue d, P d x.message
  underway : ∀ m ∈ g.underway, P m.recipientDeviceId m

/-- What is written is held. -/
theorem held_of_socket {s : Session} {m : EncryptedMessage} (hm : m ∈ s.socket) : m ∈ s.held := by
  unfold Session.held
  split
  · exact List.mem_append_right _ hm
  · exact hm

section
variable {P : Id16 → EncryptedMessage → Prop} {g : GatewayState} {k : Nat} {s s' : Session}

/-- What is in the channel of a session has the property for the device of the session. -/
theorem Holds.channel_session (h : Holds P g) (hs : g.sessions[k]? = some s)
    {m : EncryptedMessage} (hm : m ∈ (g.channels k).queue) : P s.device m := by
  obtain ⟨device, hdevice, hP⟩ := h.channels k m hm
  rw [devices_getElem hs] at hdevice
  obtain rfl := Option.some.inj hdevice
  exact hP

/-! ### Hands that change -/

namespace Holds

theorem setSession (h : Holds P g) (hs : g.sessions[k]? = some s) (hdevice : s'.device = s.device)
    (hheld : ∀ m ∈ s'.held, P s.device m) : Holds P (g.setSession k s') := by
  refine ⟨h.entries, ?_, fun j t ht => ?_⟩
  · rw [devices_setSession hs hdevice]
    exact h.channels
  · have ht : (g.sessions.set k s')[j]? = some t := ht
    rw [List.getElem?_set] at ht
    split at ht
    · split at ht
      · obtain rfl := Option.some.inj ht
        rw [hdevice]
        exact hheld
      · exact absurd ht (by simp)
    · exact h.sessions j t ht

/-- A change of phase that writes nothing. -/
theorem setPhase (h : Holds P g) (hs : g.sessions[k]? = some s) (phase : Phase)
    (hphase : ∀ id delivered rest, phase ≠ .sending id delivered rest) :
    Holds P (g.setPhase k s phase) := by
  refine h.setSession hs rfl fun m hm => h.sessions k s hs m (held_of_socket ?_)
  cases phase with
  | sending id delivered rest => exact absurd rfl (hphase id delivered rest)
  | _ => exact hm

/-- A channel whose messages have the property. -/
theorem channel (h : Holds P g) (j : Nat) {c : Channel}
    (hqueue : ∀ m ∈ c.queue, ∃ device, g.devices[j]? = some device ∧ P device m) :
    Holds P { g with channels := Function.update g.channels j c } := by
  refine ⟨h.entries, fun i m hm => ?_, h.sessions⟩
  have hm : m ∈ (Function.update g.channels j c i).queue := hm
  by_cases hij : i = j
  · subst hij
    rw [Function.update_self] at hm
    exact hqueue m hm
  · rw [Function.update_of_ne hij] at hm
    exact h.channels i m hm

theorem close (h : Holds P g) (hs : g.sessions[k]? = some s) : Holds P (g.close k s) := by
  have hclosed := h.setPhase hs .closed fun _ _ _ => Phase.noConfusion
  exact hclosed.channel k (hclosed.channels k)

/-- The relay, the tasks and the next number of a connection do not matter. -/
theorem congr {g' : GatewayState} (h : Holds P g)
    (hinner : g'.connections.inner = g.connections.inner) (hchannels : g'.channels = g.channels)
    (hsessions : g'.sessions = g.sessions) : Holds P g' := by
  obtain ⟨hentries, hqueues, hheld⟩ := h
  refine ⟨by rwa [hinner], ?_, by rwa [hsessions]⟩
  rw [hchannels]
  unfold GatewayState.devices
  rwa [hsessions]

end Holds

/-! ### The steps of a session -/

theorem receive_holds (h : Holds P g) (hs : g.sessions[k]? = some s) {id : UInt64}
    (hphase : s.phase = .live id) (ok : Bool) : Holds P (g.receive k s id ok) := by
  have hsocket : ∀ m ∈ s.socket, P s.device m := fun m hm =>
    h.sessions k s hs m (held_of_socket hm)
  unfold GatewayState.receive
  split
  · rename_i m rest hqueue
    have hdrop : ∀ m' ∈ rest, m' ∈ (g.channels k).queue := by
      rw [hqueue]
      exact fun m' hm' => List.mem_cons_of_mem m hm'
    cases ok
    · have hleft : Holds P (g.setSession k
          { s with phase := .leaving id, received := s.received ++ [m] }) :=
        h.setSession hs rfl hsocket
      exact hleft.channel k fun m' hm' => hleft.channels k m' (hdrop m' hm')
    · -- the message that is written comes from the channel
      have hwritten : Holds P (g.setSession k
          { s with received := s.received ++ [m], socket := s.socket ++ [m] }) := by
        refine h.setSession hs rfl fun m' hm' => ?_
        simp only [Session.held, hphase, List.mem_append, List.mem_singleton] at hm'
        rcases hm' with hold | rfl
        · exact hsocket m' hold
        · exact h.channel_session hs (by rw [hqueue]; exact List.mem_cons_self)
      exact hwritten.channel k fun m' hm' => hwritten.channels k m' (hdrop m' hm')
  · split
    · exact h
    · exact h.setPhase hs _ fun _ _ _ => Phase.noConfusion

/-- What waited for the session goes to its channel. -/
theorem activate_holds (h : Holds P g) (hown : Owned g) (hs : g.sessions[k]? = some s)
    (id : UInt64) (delivered : List Id16) :
    Holds P (let (active, connections, channels) :=
        g.connections.activate g.channels s.device id delivered
      if active then { g.setPhase k s (.live id) with connections, channels }
      else g.close k s) := by
  obtain ⟨state, hlook, -, hactive, hentries, hchannels⟩ | ⟨-, hfail⟩ :=
    activate_cases g.connections g.channels s.device id delivered
  · rcases hact : g.connections.activate g.channels s.device id delivered with
      ⟨active, connections, channels⟩
    rw [hact] at hactive hentries hchannels
    obtain rfl : active = true := hactive
    obtain ⟨-, hqueues, hheld⟩ := h.setPhase hs (.live id) fun _ _ _ => Phase.noConfusion
    refine ⟨fun device c hc m hm => ?_, fun j m hm => ?_, hheld⟩
    · have hc : connections.inner.lookup device = some c := hc
      rw [show connections.inner.lookup device = _ from hentries device] at hc
      split at hc
      · obtain rfl := Option.some.inj hc
        exact absurd hm (by simp)
      · exact h.entries device c hc m hm
    · have hm : m ∈ (channels j).queue := hm
      rw [show channels j = _ from hchannels j] at hm
      split at hm
      · -- the messages of the entry, but for those that were delivered, go to the channel of a
        -- session of the device
        rename_i hj
        obtain ⟨sent, hsub, hqueue⟩ := sendAll_queue (g.channels j)
          (state.pending.filter fun m => m.messageId ∉ delivered)
        rw [hqueue] at hm
        rcases List.mem_append.mp hm with hold | hnew
        · exact hqueues j m hold
        · have howner : (g.setPhase k s (.live id)).devices[j]? = some s.device := by
            have hdevices : (g.setPhase k s (.live id)).devices = g.devices :=
              devices_setSession hs rfl
            rw [hdevices, hj]
            exact hown s.device state hlook
          have hpending := (List.mem_filter.mp (hsub.subset hnew)).1
          exact ⟨s.device, howner, h.entries s.device state hlook m hpending⟩
      · exact hqueues j m hm
  · rw [hfail]
    exact h.close hs

theorem advance_holds (h : Carries P g) (hs : g.sessions[k]? = some s) (ok : Bool)
    (now : UInt64) : Holds P (g.advance k s ok now).2 := by
  have hholds := h.toHolds
  unfold GatewayState.advance
  split
  · split
    · exact (hholds.setPhase hs _ fun _ _ _ => Phase.noConfusion).congr rfl rfl rfl
    · exact hholds.close hs
  · rename_i id hphase
    -- `register`: an empty entry and a new channel
    have hentered := hholds.setPhase hs (.registered id) fun _ _ _ => Phase.noConfusion
    have hempty := hentered.channel k (c := Channel.new) fun m hm => absurd hm List.not_mem_nil
    refine ⟨fun device c hc m hm => ?_, hempty.channels, hempty.sessions⟩
    have hc : (g.connections.register s.device id k).inner.lookup device = some c := hc
    rw [register_lookup] at hc
    split at hc
    · obtain rfl := Option.some.inj hc
      exact absurd hm (by simp)
    · exact hholds.entries device c hc m hm
  · apply hholds.setPhase hs
    intro _ _ _
    cases ok <;> exact Phase.noConfusion
  · rename_i id hphase
    -- the backlog comes from the queue of the device
    have hpulled : Holds P (g.setSession k { s with
        phase := .sending id ((g.relay.pull s.device now).1.map (·.messageId))
          (g.relay.pull s.device now).1
        backlog := (g.relay.pull s.device now).1 }) := by
      refine hholds.setSession hs rfl fun m hm => ?_
      rcases List.mem_append.mp hm with hnew | hold
      · rw [pull_answer] at hnew
        obtain ⟨x, hx, rfl⟩ := List.mem_map.mp hnew
        exact h.stored s.device x (List.mem_filter.mp hx).1
      · exact hholds.sessions k s hs m (held_of_socket hold)
    exact hpulled.congr rfl rfl rfl
  · rename_i id delivered m rest hphase
    split
    · -- the message that is written was held before
      refine hholds.setSession hs rfl fun m' hm' => hholds.sessions k s hs m' ?_
      rw [Session.held, hphase]
      rcases List.mem_append.mp hm' with hrest | hsocket
      · exact List.mem_append_left _ (List.mem_cons_of_mem _ hrest)
      · rcases List.mem_append.mp hsocket with hold | hnew
        · exact List.mem_append_right _ hold
        · rw [List.mem_singleton.mp hnew]
          exact List.mem_append_left _ List.mem_cons_self
    · exact hholds.setPhase hs _ fun _ _ _ => Phase.noConfusion
  · rename_i id delivered hphase
    have hactivate := activate_holds hholds h.owned hs id delivered
    dsimp only at hactivate ⊢
    split at hactivate
    · rename_i hactive
      rw [if_pos hactive]
      exact hactivate
    · rename_i hactive
      rw [if_neg hactive]
      exact hactivate
  · rename_i id hphase
    exact receive_holds hholds hs hphase ok
  · exact hholds
  · rename_i id hphase
    have hclosed := hholds.close hs
    refine ⟨fun device c hc m hm => ?_, hclosed.channels, hclosed.sessions⟩
    have hc : (g.connections.unregister s.device id).inner.lookup device = some c := hc
    rw [unregister_lookup] at hc
    split at hc
    · exact absurd hc (by simp)
    · exact hholds.entries device c hc m hm
  · exact hholds

theorem handle_holds (h : Holds P g) (hs : g.sessions[k]? = some s) (id : UInt64)
    (frame : Inbound) (ok : Bool) (now : UInt64) : Holds P (g.handle k s id frame ok now).2 := by
  have hleave : Holds P (g.setPhase k s (.leaving id)) :=
    h.setPhase hs _ fun _ _ _ => Phase.noConfusion
  have hwait : Holds P (g.setPhase k s (.routing id)) :=
    h.setPhase hs _ fun _ _ _ => Phase.noConfusion
  cases frame with
  | ping =>
    cases ok
    · exact hleave
    · exact h
  | pong => exact h
  | refused => exact hleave
  | ack messageId => exact h.congr rfl rfl rfl
  | message message =>
    unfold GatewayState.handle
    dsimp only
    split
    · exact hleave
    · cases (g.push message now (some k)).1 with
      | accepted => exact hwait.congr rfl rfl rfl
      | duplicate => exact h.congr rfl rfl rfl
      | invalid => exact hleave.congr rfl rfl rfl
      | full => exact hleave.congr rfl rfl rfl

/-- **Step of a session.** It takes messages from the queue of its device, from its entry and from
    its channel. -/
theorem sessionStep_holds (h : Carries P g) (hs : g.sessions[k]? = some s)
    (input : SessionInput) : Holds P (g.sessionStep k s input).2 := by
  unfold GatewayState.sessionStep
  split
  · exact advance_holds h hs _ _
  · split
    · exact handle_holds h.toHolds hs _ _ _ _
    · exact h.toHolds
  · split
    · exact h.toHolds.setPhase hs _ fun _ _ _ => Phase.noConfusion
    · exact h.toHolds

/-! ### The steps of tasks and requests -/

/-- What `try_send` passes on comes to places of the recipient. -/
theorem trySend_holds (h : Holds P g) (hown : Owned g) {message : EncryptedMessage}
    (hmessage : P message.recipientDeviceId message) (tasks : List RouteTask) :
    Holds P { g with
      connections := (g.connections.trySend g.channels message.recipientDeviceId message).1
      channels := (g.connections.trySend g.channels message.recipientDeviceId message).2
      tasks } := by
  refine ⟨fun device c' hc' m hm => ?_, fun k m hm => ?_, h.sessions⟩
  · have hlook := trySend_lookup g.connections g.channels message.recipientDeviceId device message
    have hc' := hlook.symm.trans hc'
    split at hc'
    · rename_i hdevice
      -- the entry of the recipient may keep the message
      obtain ⟨c, hc, rfl⟩ := Option.map_eq_some_iff.mp hc'
      unfold ConnectionState.keep at hm
      split at hm
      · exact h.entries device c hc m hm
      · rcases List.mem_append.mp hm with hold | hnew
        · exact h.entries device c hc m hold
        · rw [List.mem_singleton.mp hnew, hdevice]
          exact hmessage
    · exact h.entries device c' hc' m hm
  · have hchannel := trySend_channel g.connections g.channels message.recipientDeviceId message k
    dsimp only at hm
    rw [hchannel] at hm
    split at hm
    · rename_i hready
      obtain ⟨sent, hsub, hqueue⟩ := trySend_queue (g.channels k) message
      rw [hqueue] at hm
      rcases List.mem_append.mp hm with hold | hnew
      · exact h.channels k m hold
      · -- the ready entry of the device is owned by a session of the device
        obtain ⟨c, hc, hsender⟩ := (Option.any_eq_true _ _).mp hready
        obtain ⟨-, rfl⟩ := of_decide_eq_true hsender
        rw [List.mem_singleton.mp (hsub.subset hnew)]
        exact ⟨_, hown _ c hc, hmessage⟩
    · exact h.channels k m hm

theorem resume_holds (h : Holds P g) (owner : Option Nat) : Holds P (g.resume owner) := by
  unfold GatewayState.resume
  split
  · exact h
  · split
    · rename_i hs
      split
      · exact h.setPhase hs _ fun _ _ _ => Phase.noConfusion
      · exact h
    · exact h

/-- **Step, between the relay and the sockets.** -/
theorem gatewayStep_holds (h : Carries P g) (e : Event) : Holds P (gatewayStep g e).2 := by
  have hholds := h.toHolds
  cases e with
  | enqueue device message now =>
    unfold gatewayStep
    dsimp only
    split
    · exact hholds
    · exact hholds.congr rfl rfl rfl
  | route i =>
    obtain ⟨task, htask, hstep⟩ | ⟨-, hstep⟩ := gatewayStep_route g i
    · rw [hstep]
      have hmessage : P task.message.recipientDeviceId task.message :=
        h.underway _ (List.mem_map_of_mem (List.mem_of_getElem? htask))
      exact resume_holds (trySend_holds hholds h.owned hmessage _) task.owner
    · rw [hstep]
      exact hholds
  | poll authenticated device now =>
    unfold gatewayStep
    dsimp only
    split
    · exact hholds
    · exact hholds.congr rfl rfl rfl
  | ack authenticated device messageId =>
    unfold gatewayStep
    dsimp only
    split
    · exact hholds
    · exact hholds.congr rfl rfl rfl
  | upgrade device =>
    refine ⟨hholds.entries, fun k m hm => ?_, fun k s hs m hm => ?_⟩
    · obtain ⟨device', hdevice', hP⟩ := hholds.channels k m hm
      exact ⟨device', (gatewayStep_keeps g (.upgrade device)).getElem? hdevice', hP⟩
    cases hold : g.sessions[k]? with
    | none =>
      -- a new session holds nothing
      rw [new_session hold hs] at hm
      cases hm
    | some s' =>
      have hsame : (g.sessions ++ [_])[k]? = some s := hs
      rw [List.getElem?_append_left (List.getElem?_eq_some_iff.mp hold).1] at hsame
      exact hholds.sessions k s hsame m hm
  | session k input =>
    obtain ⟨s, hs, hstep⟩ | ⟨-, hstep⟩ := gatewayStep_session g k input
    · rw [hstep]
      exact sessionStep_holds h hs input
    · rw [hstep]
      exact hholds

end

/-! ### Whole steps -/

theorem Carries.start (P : Id16 → EncryptedMessage → Prop) : Carries P GatewayState.start := by
  constructor
  case owned => exact run_owned []
  case stored =>
    intro d x hx
    cases hx
  case underway =>
    intro m hm
    cases hm
  case toHolds =>
    refine ⟨fun device c hc => ?_, fun k m hm => ?_, fun k s hs => ?_⟩
    · exact absurd hc (by simp [GatewayState.start, ConnectionRegistry.empty])
    · cases hm
    · exact absurd hs (by simp [GatewayState.start])

theorem Carries.mono {P Q : Id16 → EncryptedMessage → Prop} {g : GatewayState} (h : Carries P g)
    (hPQ : ∀ device m, P device m → Q device m) : Carries Q g := by
  obtain ⟨⟨hentries, hchannels, hsessions⟩, howned, hstored, hunderway⟩ := h
  constructor
  case owned => exact howned
  case stored => exact fun d x hx => hPQ _ _ (hstored d x hx)
  case underway => exact fun m hm => hPQ _ m (hunderway m hm)
  case toHolds =>
    refine ⟨fun device c hc m hm => hPQ _ m (hentries device c hc m hm), fun k m hm => ?_,
      fun k s hs m hm => hPQ _ m (hsessions k s hs m hm)⟩
    obtain ⟨device, hdevice, hP⟩ := hchannels k m hm
    exact ⟨device, hdevice, hPQ _ m hP⟩

/-- **Step.** Only a push that is accepted lets a message in. -/
theorem Carries.step {P : Id16 → EncryptedMessage → Prop} {g : GatewayState} (h : Carries P g)
    {e : Event} (hpush : ∀ m now,
      (gatewayStep g e).1 = .relay (.push m now) (.pushed .accepted) → P m.recipientDeviceId m) :
    Carries P (gatewayStep g e).2 := by
  have hflows := gatewayStep_flows g e
  refine ⟨gatewayStep_holds h e, h.owned.of_keeps (gatewayStep_keeps g e), ?_, ?_⟩
  · intro d x hx
    cases heffect : (gatewayStep g e).1 with
    | relay op answer =>
      rw [heffect] at hflows
      rw [hflows.2.1] at hx
      rcases mem_queue_step_iff.mp hx with ⟨hold, -⟩ | ⟨m, now, rfl, hacc, rfl, rfl⟩
      · exact h.stored d x hold
      · exact hpush m now (by rw [heffect, hflows.1, hacc])
    | routed message =>
      rw [heffect] at hflows
      exact h.stored d x (hflows.1 ▸ hx)
    | quiet =>
      rw [heffect] at hflows
      exact h.stored d x (hflows.1 ▸ hx)
    | forbidden =>
      rw [heffect] at hflows
      exact h.stored d x (hflows.1 ▸ hx)
  · intro m hm
    cases heffect : (gatewayStep g e).1 with
    | relay op answer =>
      rw [heffect] at hflows
      rw [hflows.2.2] at hm
      rcases List.mem_append.mp hm with hold | hnew
      · exact h.underway m hold
      · -- a new task is for a message that the relay accepted
        obtain ⟨pre, now, post, hcalls⟩ := exists_of_mem_accepted hnew
        have hmem : (RelayOp.push m now, RelayAnswer.pushed .accepted) ∈ [(op, answer)] := by
          rw [hcalls]
          simp
        obtain ⟨rfl, rfl⟩ := Prod.mk.inj (List.mem_singleton.mp hmem)
        exact hpush m now heffect
    | routed message =>
      rw [heffect] at hflows
      exact h.underway m (hflows.2.mem_iff.mpr (List.mem_cons_of_mem _ hm))
    | quiet =>
      rw [heffect] at hflows
      exact h.underway m (hflows.2 ▸ hm)
    | forbidden =>
      rw [heffect] at hflows
      exact h.underway m (hflows.2 ▸ hm)

/-- What the relay accepts is valid. -/
theorem valid_of_effect {g : GatewayState} {e : Event} {m : EncryptedMessage} {now : UInt64}
    (h : (gatewayStep g e).1 = .relay (.push m now) (.pushed .accepted)) : ValidMessage m := by
  have hflows := gatewayStep_flows g e
  rw [h] at hflows
  exact valid_of_push (RelayAnswer.pushed.inj hflows.1).symm

end NexaMessenger.Gateway
