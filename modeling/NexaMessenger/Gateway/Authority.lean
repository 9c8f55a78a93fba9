import NexaMessenger.Gateway.Carriage

namespace NexaMessenger.Gateway

open Lib Relay

/-!
# Gateway — who sends, receives and removes

Every call that the gateway makes on the relay store is made in the name of the device that was
authenticated: a push for the sender of its message, a pull and an ack for the device whose queue
they work on (`gatewayStep_subject`).  What is on its way to a device, in its queue, in its entry of
the registry, in the channels of its sessions and in their hands, is addressed to it
(`run_addressed`), however many sessions it has.
-/

/-- The devices that were authenticated on the upgrades of a run, one for each session. -/
def upgrades (events : List Event) : List Id16 := events.flatMap Event.added

/-- The device that an event is authenticated as: that of the request, or that of the upgrade
    which started the session. -/
def Event.caller (devices : List Id16) : Event → Option Id16
  | .enqueue device _ _ => some device
  | .route _ => none
  | .poll authenticated _ _ => some authenticated
  | .ack authenticated _ _ => some authenticated
  | .upgrade device => some device
  | .session k _ => devices[k]?

/-- The device in whose name a call on the relay store is made. -/
def subject : RelayOp → Id16
  | .push message _ => message.senderDeviceId
  | .pull device _ => device
  | .ack device _ => device

/-! ### Calls on the relay store -/

theorem advance_subject {g : GatewayState} {k : Nat} {s : Session} {ok : Bool} {now : UInt64}
    {op : RelayOp} {answer : RelayAnswer} (h : (g.advance k s ok now).1 = .relay op answer) :
    subject op = s.device := by
  unfold GatewayState.advance at h
  split at h
  · split at h
    · exact absurd h (by simp)
    · exact absurd h (by simp)
  · exact absurd h (by simp)
  · exact absurd h (by simp)
  · -- the pull of the backlog, the only call of these steps
    obtain ⟨rfl, -⟩ := Effect.relay.inj h
    rfl
  · split at h
    · exact absurd h (by simp)
    · exact absurd h (by simp)
  · dsimp only at h
    split at h
    · exact absurd h (by simp)
    · exact absurd h (by simp)
  · exact absurd h (by simp)
  · exact absurd h (by simp)
  · exact absurd h (by simp)
  · exact absurd h (by simp)

theorem handle_subject {g : GatewayState} {k : Nat} {s : Session} {id : UInt64} {frame : Inbound}
    {ok : Bool} {now : UInt64} {op : RelayOp} {answer : RelayAnswer}
    (h : (g.handle k s id frame ok now).1 = .relay op answer) : subject op = s.device := by
  cases frame with
  | ping => cases h
  | pong => cases h
  | refused => cases h
  | ack messageId =>
    obtain ⟨rfl, -⟩ := Effect.relay.inj h
    rfl
  | message message =>
    unfold GatewayState.handle at h
    dsimp only at h
    split at h
    · exact absurd h (by simp)
    · rename_i hsender
      obtain ⟨rfl, -⟩ := Effect.relay.inj h
      exact not_not.mp hsender

/-- A session pulls and acknowledges for its own device, and pushes its own messages only. -/
theorem sessionStep_subject {g : GatewayState} {k : Nat} {s : Session} {input : SessionInput}
    {op : RelayOp} {answer : RelayAnswer}
    (h : (g.sessionStep k s input).1 = .relay op answer) : subject op = s.device := by
  unfold GatewayState.sessionStep at h
  split at h
  · exact advance_subject h
  · split at h
    · exact handle_subject h
    · exact absurd h (by simp)
  · split at h
    · exact absurd h (by simp)
    · exact absurd h (by simp)

/-- **Every call on the relay store is made in the name of the caller.** -/
theorem gatewayStep_subject {g : GatewayState} {e : Event} {op : RelayOp} {answer : RelayAnswer}
    (h : (gatewayStep g e).1 = .relay op answer) : e.caller g.devices = some (subject op) := by
  cases e with
  | enqueue device message now =>
    unfold gatewayStep at h
    dsimp only at h
    split at h
    · exact absurd h (by simp)
    · rename_i hsender
      obtain ⟨rfl, -⟩ := Effect.relay.inj h
      exact congrArg some (not_not.mp hsender).symm
  | route i =>
    -- a task sends, it makes no call on the store
    obtain ⟨task, -, hstep⟩ | ⟨-, hstep⟩ := gatewayStep_route g i
    · rw [hstep] at h
      cases h
    · rw [hstep] at h
      exact absurd h (by simp)
  | poll authenticated device now =>
    unfold gatewayStep at h
    dsimp only at h
    split at h
    · exact absurd h (by simp)
    · rename_i hsame
      obtain ⟨rfl, -⟩ := Effect.relay.inj h
      exact congrArg some (not_not.mp hsame)
  | ack authenticated device messageId =>
    unfold gatewayStep at h
    dsimp only at h
    split at h
    · exact absurd h (by simp)
    · rename_i hsame
      obtain ⟨rfl, -⟩ := Effect.relay.inj h
      exact congrArg some (not_not.mp hsame)
  | upgrade device => cases h
  | session k input =>
    -- a session acts for the device of its upgrade
    obtain ⟨s, hs, hstep⟩ | ⟨-, hstep⟩ := gatewayStep_session g k input
    · rw [hstep] at h
      rw [sessionStep_subject h]
      exact devices_getElem hs
    · rw [hstep] at h
      exact absurd h (by simp)

/-- The sessions of a run are those of its upgrades. -/
theorem devices_reached (events : List Event) : (reached events).devices = upgrades events := by
  induction events using List.reverseRecOn with
  | nil => rfl
  | append_singleton events e ih =>
    rw [reached, after_concat, (gatewayStep_keeps _ e).devices, ih]
    simp [upgrades]

/-! ### What is on its way is addressed -/

/-- **Run.**  A push puts its message into the places of the recipient. -/
theorem run_addressed (events : List Event) :
    Carries (fun device m => m.recipientDeviceId = device) (reached events) :=
  after_invariant (P := Carries fun device m => m.recipientDeviceId = device)
    (fun _ _ h => h.step fun _ _ _ => rfl) (Carries.start _) events

/-- A message of the relay's queue of a device is for the device. -/
theorem pulled_addressed {g : GatewayState} (hrelay : Accounted g.relay) {d : Id16} {now : UInt64}
    {m : EncryptedMessage} (hm : m ∈ (g.relay.pull d now).1) : m.recipientDeviceId = d := by
  rw [pull_answer] at hm
  obtain ⟨x, hx, rfl⟩ := List.mem_map.mp hm
  exact (hrelay.queue_wf d).owned x (List.mem_filter.mp hx).1

/-! ### All that the relay and the sockets see -/

/-- At its event `e`, which comes after `pre`, the run makes a call on the relay store and gets an
    answer. -/
def Calls (events pre : List Event) (e : Event) (op : RelayOp) (answer : RelayAnswer) : Prop :=
  pre ++ [e] <+: events ∧ (gatewayStep (reached pre) e).1 = .relay op answer

theorem Calls.caller {events pre : List Event} {e : Event} {op : RelayOp} {answer : RelayAnswer}
    (h : Calls events pre e op answer) : e.caller (upgrades pre) = some (subject op) := by
  rw [← devices_reached]
  exact gatewayStep_subject h.2

/-- What is stored was accepted at some event of the run. -/
theorem exists_calls_of_stored {events : List Event} {d : Id16} {x : StoredMessage}
    (hx : x ∈ (reached events).relay.queue d) :
    ∃ pre e now, Calls events pre e (.push x.message now) (.pushed .accepted) := by
  have haccepted := (run_ledger events).retains.only d x hx
  obtain ⟨before, now, later, hlog⟩ := exists_of_mem_accepted haccepted
  have hmem : (RelayOp.push x.message now, RelayAnswer.pushed .accepted) ∈
      relayLog (history events) := by
    rw [hlog]
    simp
  -- the call of the store is that of an event of the gateway
  obtain ⟨⟨e, effect⟩, hentry, hcall⟩ := List.mem_filterMap.mp hmem
  obtain ⟨pre, post, rfl, heffect⟩ := exists_of_mem_trace _ hentry
  refine ⟨pre, e, now, ⟨post, by simp⟩, ?_⟩
  cases effect with
  | relay op answer =>
    obtain ⟨rfl, rfl⟩ := Prod.mk.inj (Option.some.inj hcall)
    exact heffect.symm
  | quiet => exact absurd hcall (by simp)
  | forbidden => exact absurd hcall (by simp)
  | routed message => exact absurd hcall (by simp)

/-- A message leaves its queue in a call whose clock reading it has expired by, or in an ack. -/
theorem removed_by {events pre : List Event} {e : Event} (hpre : pre ++ [e] <+: events) {d : Id16}
    {x : StoredMessage} (hx : x ∈ (reached pre).relay.queue d)
    (hgone : x ∉ (reached (pre ++ [e])).relay.queue d) :
    ∃ op answer, Calls events pre e op answer ∧
      ((∃ now, op.clock = some now ∧ x.expiresAtMs ≤ now) ∨ op = .ack d x.message.messageId) := by
  have hflows := gatewayStep_flows (reached pre) e
  rw [reached, after_concat] at hgone
  -- only a call on the store can take a message from a queue
  rcases heffect : (gatewayStep (reached pre) e).1 with _ | _ | ⟨op, answer⟩ | message
  · rw [heffect] at hflows
    exact absurd (hflows.1 ▸ hx) hgone
  · rw [heffect] at hflows
    exact absurd (hflows.1 ▸ hx) hgone
  · rw [heffect] at hflows
    refine ⟨op, answer, ⟨hpre, heffect⟩, ?_⟩
    -- a call that is neither keeps the message
    by_contra hneither
    obtain ⟨hclock, hack⟩ := not_or.mp hneither
    refine hgone ?_
    show x ∈ (gatewayStep (reached pre) e).2.relay.queue d
    rw [hflows.2.1]
    exact step_retains hx hack fun t ht => UInt64.not_le.mp fun hle => hclock ⟨t, ht, hle⟩
  · rw [heffect] at hflows
    exact absurd (hflows.1 ▸ hx) hgone

/-- **Only the right device.**  In every run of the gateway, each message it pushes to its relay
    store, and so each one that is stored, comes from a caller authenticated as the sender; what a
    pull answers, to a poll or for a backlog, and what is written to a websocket is for the device
    that was authenticated; and a stored message leaves the store when a clock reading reaches its
    expiry, or with an ack of a caller authenticated as its recipient. -/
theorem only_the_right_device (events : List Event) :
    (∀ pre e message now answer, Calls events pre e (.push message now) answer →
      e.caller (upgrades pre) = some message.senderDeviceId) ∧
    (∀ d, ∀ x ∈ (reached events).relay.queue d, x.message.recipientDeviceId = d ∧
      ∃ pre e now, Calls events pre e (.push x.message now) (.pushed .accepted) ∧
        e.caller (upgrades pre) = some x.message.senderDeviceId) ∧
    (∀ pre e d now messages, Calls events pre e (.pull d now) (.pulled messages) →
      e.caller (upgrades pre) = some d ∧ ∀ m ∈ messages, m.recipientDeviceId = d) ∧
    (∀ (k : Nat) s, (reached events).sessions[k]? = some s →
      (upgrades events)[k]? = some s.device ∧ ∀ m ∈ s.socket, m.recipientDeviceId = s.device) ∧
    (∀ pre e d, ∀ x ∈ (reached pre).relay.queue d, pre ++ [e] <+: events →
      x ∉ (reached (pre ++ [e])).relay.queue d →
        (∃ op answer now, Calls events pre e op answer ∧ op.clock = some now ∧
          x.expiresAtMs ≤ now) ∨
        (∃ answer, Calls events pre e (.ack d x.message.messageId) answer ∧
          e.caller (upgrades pre) = some d ∧ x.message.recipientDeviceId = d)) := by
  have howned (pre : List Event) (d : Id16) (x : StoredMessage)
      (hx : x ∈ (reached pre).relay.queue d) : x.message.recipientDeviceId = d :=
    (run_addressed pre).stored d x hx
  refine ⟨?_, ?_, ?_, ?_, ?_⟩
  · intro pre e message now answer hcall
    exact hcall.caller
  · intro d x hx
    obtain ⟨pre, e, now, hcall⟩ := exists_calls_of_stored hx
    exact ⟨howned events d x hx, pre, e, now, hcall, hcall.caller⟩
  · intro pre e d now messages hcall
    refine ⟨hcall.caller, fun m hm => ?_⟩
    -- the answer of the call is that of the store
    have hflows := gatewayStep_flows (reached pre) e
    rw [hcall.2] at hflows
    obtain rfl : messages = _ := RelayAnswer.pulled.inj hflows.1
    exact pulled_addressed (run_ledger pre).accounted hm
  · intro k s hs
    refine ⟨?_, fun m hm => ?_⟩
    · rw [← devices_reached]
      exact devices_getElem hs
    · exact (run_addressed events).sessions k s hs m (held_of_socket hm)
  · intro pre e d x hx hpre hgone
    obtain ⟨op, answer, hcall, ⟨now, hnow, hle⟩ | rfl⟩ := removed_by hpre hx hgone
    · exact .inl ⟨op, answer, now, hcall, hnow, hle⟩
    · exact .inr ⟨answer, hcall, hcall.caller, howned pre d x hx⟩

end NexaMessenger.Gateway
