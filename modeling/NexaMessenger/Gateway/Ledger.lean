import NexaMessenger.Relay.Retention
import NexaMessenger.Gateway.Session

namespace NexaMessenger.Gateway

open Lib Relay

/-!
# Gateway — the books of a run

Whatever tasks and sessions do, the relay store makes a run of its own, so everything proved of
its runs holds in the gateway; and every message it accepts becomes one task, whose `try_send`
runs at most once (`Ledger`).
-/

/-! ### What a step does to the relay and to the tasks -/

/-- The calls on the relay store in a history of steps. -/
def relayLog (log : List (Event × Effect)) : List (RelayOp × RelayAnswer) :=
  log.filterMap fun
    | (_, .relay op answer) => some (op, answer)
    | _ => none

/-- The messages whose `try_send` has run. -/
def routed (log : List (Event × Effect)) : List EncryptedMessage :=
  log.filterMap fun
    | (_, .routed message) => some message
    | _ => none

/-- The messages whose `try_send` is still to come. -/
def GatewayState.underway (g : GatewayState) : List EncryptedMessage := g.tasks.map (·.message)

section
variable (g : GatewayState) (k : Nat) (s : Session)

@[simp] theorem setSession_relay : (g.setSession k s).relay = g.relay := rfl

@[simp] theorem setSession_tasks : (g.setSession k s).tasks = g.tasks := rfl

@[simp] theorem setPhase_relay (phase : Phase) : (g.setPhase k s phase).relay = g.relay := rfl

@[simp] theorem setPhase_tasks (phase : Phase) : (g.setPhase k s phase).tasks = g.tasks := rfl

@[simp] theorem close_relay : (g.close k s).relay = g.relay := rfl

@[simp] theorem close_tasks : (g.close k s).tasks = g.tasks := rfl

theorem receive_keeps (id : UInt64) (ok : Bool) :
    (g.receive k s id ok).relay = g.relay ∧ (g.receive k s id ok).tasks = g.tasks := by
  unfold GatewayState.receive
  split
  · cases ok <;> exact ⟨rfl, rfl⟩
  · split <;> exact ⟨rfl, rfl⟩

theorem resume_keeps (owner : Option Nat) :
    (g.resume owner).relay = g.relay ∧ (g.resume owner).tasks = g.tasks := by
  unfold GatewayState.resume
  cases owner with
  | none => exact ⟨rfl, rfl⟩
  | some j =>
    dsimp only
    split
    · split <;> exact ⟨rfl, rfl⟩
    · exact ⟨rfl, rfl⟩

end

/-- How messages flow in a step with a given effect: a call is made on the relay store, and a
    message it accepts becomes a task; a task ends; or neither. -/
def Flows (g : GatewayState) : Effect → GatewayState → Prop
  | .relay op answer, g' => answer = (step g.relay op).1 ∧ g'.relay = (step g.relay op).2 ∧
      g'.underway = g.underway ++ accepted [(op, answer)]
  | .routed message, g' => g'.relay = g.relay ∧ g.underway.Perm (message :: g'.underway)
  | .quiet, g' => g'.relay = g.relay ∧ g'.underway = g.underway
  | .forbidden, g' => g'.relay = g.relay ∧ g'.underway = g.underway

/-- `Flows` looks at the relay and the tasks only. -/
theorem Flows.congr {g g' g'' : GatewayState} {effect : Effect} (h : Flows g effect g')
    (hrelay : g''.relay = g'.relay) (htasks : g''.tasks = g'.tasks) : Flows g effect g'' := by
  have hunderway : g''.underway = g'.underway := by rw [GatewayState.underway, htasks]; rfl
  cases effect <;> simpa only [Flows, hrelay, hunderway] using h

theorem push_flows (g : GatewayState) (message : EncryptedMessage) (now : UInt64)
    (owner : Option Nat) :
    Flows g (.relay (.push message now) (.pushed (g.push message now owner).1))
      (g.push message now owner).2 := by
  refine ⟨rfl, rfl, ?_⟩
  show (if (g.relay.push message now).1 = .accepted then g.tasks ++ [⟨message, owner⟩]
    else g.tasks).map (·.message) = _
  rw [accepted_push]
  show _ = g.underway ++ if (g.relay.push message now).1 = .accepted then [message] else []
  by_cases hacc : (g.relay.push message now).1 = .accepted
  · rw [if_pos hacc, if_pos hacc, List.map_append]
    rfl
  · rw [if_neg hacc, if_neg hacc, List.append_nil]
    rfl

theorem advance_flows (g : GatewayState) (k : Nat) (s : Session) (ok : Bool) (now : UInt64) :
    Flows g (g.advance k s ok now).1 (g.advance k s ok now).2 := by
  unfold GatewayState.advance
  split
  · split <;> exact ⟨rfl, rfl⟩
  · exact ⟨rfl, rfl⟩
  · exact ⟨rfl, rfl⟩
  · exact ⟨rfl, rfl, (List.append_nil _).symm⟩
  · split <;> exact ⟨rfl, rfl⟩
  · dsimp only
    split <;> exact ⟨rfl, rfl⟩
  · obtain ⟨hrelay, htasks⟩ := receive_keeps g k s _ ok
    have hquiet : Flows g .quiet g := ⟨rfl, rfl⟩
    exact hquiet.congr hrelay htasks
  · exact ⟨rfl, rfl⟩
  · exact ⟨rfl, rfl⟩
  · exact ⟨rfl, rfl⟩

theorem handle_flows (g : GatewayState) (k : Nat) (s : Session) (id : UInt64) (frame : Inbound)
    (ok : Bool) (now : UInt64) :
    Flows g (g.handle k s id frame ok now).1 (g.handle k s id frame ok now).2 := by
  cases frame with
  | ping => cases ok <;> exact ⟨rfl, rfl⟩
  | pong => exact ⟨rfl, rfl⟩
  | refused => exact ⟨rfl, rfl⟩
  | ack messageId => exact ⟨rfl, rfl, (List.append_nil _).symm⟩
  | message message =>
    unfold GatewayState.handle
    dsimp only
    split
    · exact ⟨rfl, rfl⟩
    · -- what the session does with the answer changes neither the store nor the tasks
      have hpush := push_flows g message now (some k)
      rcases hp : g.push message now (some k) with ⟨result, g'⟩
      rw [hp] at hpush
      cases result <;> exact hpush.congr rfl rfl

/-- **Step of a session.** Only the pull of its backlog, an ack and a message frame are calls on the
    relay. -/
theorem sessionStep_flows (g : GatewayState) (k : Nat) (s : Session) (input : SessionInput) :
    Flows g (g.sessionStep k s input).1 (g.sessionStep k s input).2 := by
  unfold GatewayState.sessionStep
  split
  · exact advance_flows g k s _ _
  · split
    · exact handle_flows g k s _ _ _ _
    · exact ⟨rfl, rfl⟩
  · split <;> exact ⟨rfl, rfl⟩

/-- The step of a task, or of none. -/
theorem gatewayStep_route (g : GatewayState) (i : Nat) :
    (∃ task, g.tasks[i]? = some task ∧ gatewayStep g (.route i) = g.route i task) ∨
      (g.tasks[i]? = none ∧ gatewayStep g (.route i) = (.quiet, g)) := by
  cases htask : g.tasks[i]? with
  | none => exact .inr ⟨rfl, by simp only [gatewayStep, htask]⟩
  | some task => exact .inl ⟨task, rfl, by simp only [gatewayStep, htask]⟩

/-- The step of a session, or of none. -/
theorem gatewayStep_session (g : GatewayState) (k : Nat) (input : SessionInput) :
    (∃ s, g.sessions[k]? = some s ∧ gatewayStep g (.session k input) = g.sessionStep k s input) ∨
      (g.sessions[k]? = none ∧ gatewayStep g (.session k input) = (.quiet, g)) := by
  cases hs : g.sessions[k]? with
  | none => exact .inr ⟨rfl, by simp only [gatewayStep, hs]⟩
  | some s => exact .inl ⟨s, rfl, by simp only [gatewayStep, hs]⟩

/-- **What a step does to the relay and to the tasks.** -/
theorem gatewayStep_flows (g : GatewayState) (e : Event) :
    Flows g (gatewayStep g e).1 (gatewayStep g e).2 := by
  cases e with
  | enqueue device message now =>
    unfold gatewayStep
    dsimp only
    split
    · exact ⟨rfl, rfl⟩
    · exact push_flows g message now none
  | route i =>
    obtain ⟨task, htask, hstep⟩ | ⟨-, hstep⟩ := gatewayStep_route g i
    · obtain ⟨hi, rfl⟩ := List.getElem?_eq_some_iff.mp htask
      rw [hstep]
      unfold GatewayState.route
      rcases g.connections.trySend g.channels g.tasks[i].message.recipientDeviceId
        g.tasks[i].message with ⟨connections, channels⟩
      obtain ⟨hrelay, htasks⟩ := resume_keeps
        { g with connections, channels, tasks := g.tasks.eraseIdx i } g.tasks[i].owner
      -- the task that ends is taken from the list, wherever it stands
      refine ⟨hrelay, ?_⟩
      rw [GatewayState.underway, GatewayState.underway, htasks]
      exact ((List.getElem_cons_eraseIdx_perm hi).map (·.message)).symm
    · rw [hstep]; exact ⟨rfl, rfl⟩
  | poll authenticated device now =>
    unfold gatewayStep
    dsimp only
    split
    · exact ⟨rfl, rfl⟩
    · exact ⟨rfl, rfl, (List.append_nil _).symm⟩
  | ack authenticated device messageId =>
    unfold gatewayStep
    dsimp only
    split
    · exact ⟨rfl, rfl⟩
    · exact ⟨rfl, rfl, (List.append_nil _).symm⟩
  | upgrade device => exact ⟨rfl, rfl⟩
  | session k input =>
    obtain ⟨s, -, hstep⟩ | ⟨-, hstep⟩ := gatewayStep_session g k input
    · rw [hstep]; exact sessionStep_flows g k s input
    · rw [hstep]; exact ⟨rfl, rfl⟩

/-! ### Whole runs -/

theorem relayLog_append (log log' : List (Event × Effect)) :
    relayLog (log ++ log') = relayLog log ++ relayLog log' := List.filterMap_append

theorem routed_append (log log' : List (Event × Effect)) :
    routed (log ++ log') = routed log ++ routed log' := List.filterMap_append

/-- The books of the gateway: its relay store has made a run of its own, and what was accepted is
    either still to be routed or was routed. -/
structure Ledger (log : List (Event × Effect)) (g : GatewayState) : Prop where
  relay : ∃ ops, relayLog log = trace step RelayStore.empty ops ∧
    g.relay = after step RelayStore.empty ops
  messages : (accepted (relayLog log)).Perm (g.underway ++ routed log)

/-- **Step.** -/
theorem Ledger.step {log : List (Event × Effect)} {g : GatewayState} (h : Ledger log g)
    (e : Event) : Ledger (log ++ [(e, (gatewayStep g e).1)]) (gatewayStep g e).2 := by
  have hflows := gatewayStep_flows g e
  generalize (gatewayStep g e).2 = g' at hflows ⊢
  generalize (gatewayStep g e).1 = effect at hflows ⊢
  obtain ⟨ops, hlog, hrelay⟩ := h.relay
  -- a step without an effect leaves both books as they are
  have hkeep (hquiet : effect = .quiet ∨ effect = .forbidden) (hsame : g'.relay = g.relay)
      (hunderway : g'.underway = g.underway) : Ledger (log ++ [(e, effect)]) g' := by
    have hnone : relayLog (log ++ [(e, effect)]) = relayLog log ∧
        routed (log ++ [(e, effect)]) = routed log := by
      rw [relayLog_append, routed_append]
      rcases hquiet with rfl | rfl <;> exact ⟨List.append_nil _, List.append_nil _⟩
    refine ⟨⟨ops, by rw [hnone.1, hlog], hsame.trans hrelay⟩, ?_⟩
    rw [hnone.1, hnone.2, hunderway]
    exact h.messages
  cases effect with
  | quiet => exact hkeep (.inl rfl) hflows.1 hflows.2
  | forbidden => exact hkeep (.inr rfl) hflows.1 hflows.2
  | relay op answer =>
    obtain ⟨hanswer, hnext, hunderway⟩ := hflows
    -- the call goes into the book of the store; a push that is accepted also starts a task
    have hone : relayLog (log ++ [(e, .relay op answer)]) = relayLog log ++ [(op, answer)] := by
      rw [relayLog_append]; rfl
    refine ⟨⟨ops ++ [op], ?_, ?_⟩, ?_⟩
    · rw [hone, hlog, hanswer, hrelay, trace_concat]
    · rw [hnext, hrelay, after_concat]
    · have hrouted : routed (log ++ [(e, .relay op answer)]) = routed log := by
        rw [routed_append]; exact List.append_nil _
      rw [hone, accepted_append, hrouted, hunderway, List.append_assoc]
      exact (h.messages.append_right _).trans
        (by rw [List.append_assoc]; exact List.perm_append_comm.append_left _)
  | routed message =>
    -- a message that is routed leaves the tasks
    obtain ⟨hsame, hunderway⟩ := hflows
    refine ⟨⟨ops, ?_, hsame.trans hrelay⟩, ?_⟩
    · rw [relayLog_append, hlog]; exact List.append_nil _
    · have hone : routed (log ++ [(e, .routed message)]) = routed log ++ [message] := by
        rw [routed_append]; rfl
      have hnone : relayLog (log ++ [(e, .routed message)]) = relayLog log := by
        rw [relayLog_append]; exact List.append_nil _
      rw [hone, hnone, ← List.append_assoc]
      refine (h.messages.trans (hunderway.append_right _)).trans ?_
      exact (List.perm_append_singleton message (g'.underway ++ routed log)).symm

/-- **Run.** -/
theorem run_ledger (events : List Event) :
    Ledger (trace gatewayStep GatewayState.start events)
      (after gatewayStep GatewayState.start events) :=
  history_invariant_of_step (R := Ledger) ⟨⟨[], rfl, rfl⟩, List.Perm.refl _⟩
    (fun _ _ e h => h.step e) events

theorem Ledger.retains {log : List (Event × Effect)} {g : GatewayState} (h : Ledger log g) :
    Retains (relayLog log) g.relay := by
  obtain ⟨ops, hlog, hrelay⟩ := h.relay
  rw [hlog, hrelay]
  exact run_retains ops

theorem Ledger.accounted {log : List (Event × Effect)} {g : GatewayState} (h : Ledger log g) :
    Accounted g.relay := by
  obtain ⟨ops, -, hrelay⟩ := h.relay
  rw [hrelay]
  exact reachable_store ops

/-- What was routed was accepted before. -/
theorem Ledger.accepted_of_routed {log : List (Event × Effect)} {g : GatewayState}
    (h : Ledger log g) {message : EncryptedMessage} (hmem : message ∈ routed log) :
    message ∈ accepted (relayLog log) :=
  h.messages.mem_iff.mpr (List.mem_append_right _ hmem)

end NexaMessenger.Gateway
