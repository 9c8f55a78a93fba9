import NexaMessenger.Gateway.Ledger
import NexaMessenger.Relay.Delivery
import NexaMessenger.Relay.Mailboxes

namespace NexaMessenger.Gateway

open Lib Relay

/-!
# Gateway — what a device gets that acknowledges

The relay keeps what it delivers until it is acknowledged, so a device that polls twice gets a
message twice.  A device that acknowledges each message once, and all of them before it polls again
(`Orderly`), gets every message that was accepted for it exactly once and in the order of their
acceptance, as long as none of them expires in its queue (`fetches_are_exact`).  This is so
whoever sends, whatever other devices do, and with ids that come again.
-/

/-- The messages that the pulls of a device returned. -/
def fetched (device : Id16) (calls : List (RelayOp × RelayAnswer)) : List EncryptedMessage :=
  calls.flatMap fun
    | (.pull d _, .pulled messages) => if d = device then messages else []
    | _ => []

/-- The messages that were accepted for a device. -/
def enqueuedFor (device : Id16) (calls : List (RelayOp × RelayAnswer)) : List EncryptedMessage :=
  (accepted calls).filter fun message => message.recipientDeviceId = device

/-- The ids that a device has been given and has not acknowledged. -/
def outstanding (device : Id16) (ids : List Id16) : RelayOp × RelayAnswer → List Id16
  | (.pull d _, .pulled messages) => if d = device then messages.map (·.messageId) else ids
  | (.ack d messageId, _) => if d = device then ids.erase messageId else ids
  | _ => ids

/-- A device polls when nothing is outstanding, and acknowledges what is. -/
def attends (device : Id16) (ids : List Id16) : RelayOp → Bool
  | .push .. => true
  | .pull d _ => d ≠ device || ids.isEmpty
  | .ack d messageId => d ≠ device || ids.contains messageId

/-- From these outstanding ids on, the device acknowledges everything once before it polls again. -/
def Orderly (device : Id16) : List Id16 → List (RelayOp × RelayAnswer) → Bool
  | _, [] => true
  | ids, call :: calls =>
    attends device ids call.1 && Orderly device (outstanding device ids call) calls

/-- If the call is a push to the device or a pull of its queue, no message in the queue has
    expired. -/
def unspoiled (device : Id16) (s : RelayStore) (op : RelayOp) : Bool :=
  op.mailbox ≠ device ||
    op.clock.all fun now => (s.queue device).all fun x => now < x.expiresAtMs

section
variable {device : Id16} {calls : List (RelayOp × RelayAnswer)} {s : RelayStore}

theorem fetched_concat (call : RelayOp × RelayAnswer) :
    fetched device (calls ++ [call]) = fetched device calls ++ fetched device [call] :=
  List.flatMap_append

theorem enqueuedFor_concat (call : RelayOp × RelayAnswer) :
    enqueuedFor device (calls ++ [call]) =
      enqueuedFor device calls ++ enqueuedFor device [call] := by
  rw [enqueuedFor, accepted_append, List.filter_append]
  rfl

theorem orderly_concat (ids : List Id16) (call : RelayOp × RelayAnswer) :
    Orderly device ids (calls ++ [call]) =
      (Orderly device ids calls &&
        attends device (calls.foldl (outstanding device) ids) call.1) := by
  induction calls generalizing ids with
  | nil => simp [Orderly]
  | cons c calls ih =>
    rw [List.cons_append, Orderly, ih, Orderly, List.foldl_cons, Bool.and_assoc]

/-- A device that acknowledges: its queue holds what is outstanding, and after it what has not been
    fetched. -/
def Served (device : Id16) (calls : List (RelayOp × RelayAnswer)) (s : RelayStore) : Prop :=
  ∃ held fresh, s.queue device = held ++ fresh ∧
    held.map (·.message.messageId) = calls.foldl (outstanding device) [] ∧
    enqueuedFor device calls = fetched device calls ++ fresh.map (·.message)

/-- A call that leaves the queue, and that is neither accepted nor one of the device's. -/
theorem Served.other (h : Served device calls s) {s' : RelayStore}
    {call : RelayOp × RelayAnswer} (hqueue : s'.queue device = s.queue device)
    (houtstanding : ∀ ids, outstanding device ids call = ids)
    (haccepted : enqueuedFor device [call] = []) (hfetched : fetched device [call] = []) :
    Served device (calls ++ [call]) s' := by
  obtain ⟨held, fresh, hsplit, hheld, hlog⟩ := h
  refine ⟨held, fresh, hqueue.trans hsplit, ?_, ?_⟩
  · rw [List.foldl_append, List.foldl_cons, List.foldl_nil, houtstanding]
    exact hheld
  · rw [enqueuedFor_concat, fetched_concat, haccepted, hfetched, List.append_nil,
      List.append_nil]
    exact hlog

/-- A call on another mailbox. -/
theorem Served.elsewhere (h : Served device calls s) {op : RelayOp} (hop : op.mailbox ≠ device) :
    Served device (calls ++ [(op, (step s op).1)]) (step s op).2 := by
  refine h.other (step_other hop) (fun ids => ?_) ?_ ?_
  · cases op with
    | push message now => rfl
    | pull d now =>
      rw [step_pull]
      exact if_neg hop
    | ack d messageId => exact if_neg hop
  · cases op with
    | push message now =>
      rw [step_push, enqueuedFor, accepted_push]
      split
      · exact List.filter_eq_nil_iff.mpr fun m hm => by
          rw [List.mem_singleton.mp hm]
          exact fun hsame => hop (of_decide_eq_true hsame)
      · rfl
    | pull d now => rfl
    | ack d messageId => rfl
  · cases op with
    | push message now => rfl
    | pull d now =>
      rw [step_pull, fetched, List.flatMap_singleton]
      exact if_neg hop
    | ack d messageId => rfl

/-- A push to the device. -/
theorem Served.push (h : Served device calls s) {message : EncryptedMessage} {now : UInt64}
    (hdevice : message.recipientDeviceId = device)
    (hlive : unexpired (s.queue device) now = s.queue device) :
    Served device (calls ++ [(.push message now, .pushed (s.push message now).1)])
      (s.push message now).2 := by
  subst hdevice
  rcases hpush : s.push message now with ⟨answer, s'⟩
  -- a push that is not accepted leaves the queue as it is
  have hrefused (hanswer : answer ≠ .accepted)
      (hqueue : s'.queue message.recipientDeviceId = s.queue message.recipientDeviceId) :
      Served message.recipientDeviceId (calls ++ [(.push message now, .pushed answer)]) s' := by
    refine h.other hqueue (fun _ => rfl) ?_ rfl
    rw [enqueuedFor, accepted_push, if_neg hanswer]
    rfl
  obtain ⟨-, rfl, rfl⟩ | ⟨-, ⟨-, rfl, hqueue⟩ | ⟨-, hrest⟩⟩ := push_outcomes hpush
  · exact hrefused (by simp) rfl
  · exact hrefused (by simp) (hqueue.trans hlive)
  obtain ⟨-, rfl, hqueue⟩ | ⟨-, ⟨-, rfl, hqueue⟩ | ⟨-, rfl, hqueue⟩⟩ := hrest
  · exact hrefused (by simp) (hqueue.trans hlive)
  · exact hrefused (by simp) (hqueue.trans hlive)
  have hqueue : s'.queue message.recipientDeviceId = _ ++ [stored message now] := hqueue
  rw [hlive] at hqueue
  obtain ⟨held, fresh, hsplit, hheld, hlog⟩ := h
  refine ⟨held, fresh ++ [stored message now], ?_, ?_, ?_⟩
  · rw [hqueue, hsplit, List.append_assoc]
  · rw [List.foldl_append]
    exact hheld
  · have hone : enqueuedFor message.recipientDeviceId
        [(.push message now, .pushed .accepted)] = [message] := by
      rw [enqueuedFor, accepted_push, if_pos rfl]
      exact List.filter_cons_of_pos (decide_eq_true rfl)
    rw [enqueuedFor_concat, fetched_concat, hone, hlog, List.map_append]
    show _ = fetched _ calls ++ [] ++ _
    rw [List.append_nil, List.append_assoc]
    rfl

/-- A pull of the device, when nothing is outstanding: it returns what has not been fetched. -/
theorem Served.pull (h : Served device calls s) {now : UInt64}
    (hlive : unexpired (s.queue device) now = s.queue device)
    (hnone : calls.foldl (outstanding device) [] = []) :
    fetched device calls ++ (s.pull device now).1 = enqueuedFor device calls ∧
      Served device (calls ++ [(.pull device now, .pulled (s.pull device now).1)])
        (s.pull device now).2 := by
  obtain ⟨held, fresh, hsplit, hheld, hlog⟩ := h
  rw [hnone] at hheld
  obtain rfl : held = [] := List.map_eq_nil_iff.mp hheld
  have hanswer : (s.pull device now).1 = fresh.map (·.message) := by
    rw [pull_answer, hlive, hsplit, List.nil_append]
  have hqueue : (s.pull device now).2.queue device = s.queue device := by
    rw [pull_visits, visit_queue, if_pos rfl, hlive]
  rw [hanswer]
  -- all that was fetched is outstanding now
  refine ⟨hlog.symm, fresh, [], ?_, ?_, ?_⟩
  · rw [hqueue, hsplit, List.append_nil, List.nil_append]
  · rw [List.foldl_append, List.foldl_cons, List.foldl_nil, outstanding, if_pos rfl,
      List.map_map]
    rfl
  · have hone : fetched device [(.pull device now, .pulled (fresh.map (·.message)))] =
        fresh.map (·.message) := by
      rw [fetched, List.flatMap_singleton]
      exact if_pos rfl
    rw [enqueuedFor_concat, fetched_concat, hone, hlog]
    rfl

/-- An acknowledgement of what is outstanding: the ids in the queue are distinct, so nothing else
    goes. -/
theorem Served.ack (h : Served device calls s) (haccounted : Accounted s) {messageId : Id16}
    {answer : RelayAnswer} (hmem : messageId ∈ calls.foldl (outstanding device) []) :
    Served device (calls ++ [(.ack device messageId, answer)]) (s.ack device messageId).2 := by
  obtain ⟨held, fresh, hsplit, hheld, hlog⟩ := h
  have hqueue : (s.ack device messageId).2.queue device = unacked (s.queue device) messageId := by
    rw [ack_queue, if_pos rfl]
  have hdistinct := (haccounted.queue_wf device).distinct
  rw [hsplit, List.map_append, List.nodup_append] at hdistinct
  obtain ⟨hnodup, -, hapart⟩ := hdistinct
  have hfresh : unacked fresh messageId = fresh := by
    refine List.filter_eq_self.mpr fun x hx => decide_eq_true ?_
    rintro rfl
    rw [← hheld] at hmem
    exact hapart _ hmem _ (List.mem_map_of_mem hx) rfl
  refine ⟨unacked held messageId, fresh, ?_, ?_, ?_⟩
  · rw [hqueue, hsplit, unacked, List.filter_append]
    exact congrArg _ hfresh
  · rw [List.foldl_append, List.foldl_cons, List.foldl_nil, outstanding, if_pos rfl, ← hheld,
      hnodup.erase_eq_filter, List.filter_map]
    refine congrArg _ (List.filter_congr fun x _ => ?_)
    by_cases hid : x.message.messageId = messageId <;> simp [hid]
  · rw [enqueuedFor_concat, fetched_concat, hlog]
    exact (List.append_nil _).trans (by rw [show fetched device [(_, answer)] = [] from rfl,
      List.append_nil])

/-- A push or a pull of the device finds its whole queue. -/
theorem unexpired_of_unspoiled {op : RelayOp} {now : UInt64} (h : unspoiled device s op = true)
    (hop : op.mailbox = device) (hnow : op.clock = some now) :
    unexpired (s.queue device) now = s.queue device := by
  rw [unspoiled, decide_eq_false (not_not.mpr hop), hnow] at h
  exact List.filter_eq_self.mpr (List.all_eq_true.mp h)

theorem orderly_of_prefix {ids : List Id16} {calls' : List (RelayOp × RelayAnswer)}
    (hpre : calls <+: calls') (h : Orderly device ids calls' = true) :
    Orderly device ids calls = true := by
  obtain ⟨post, rfl⟩ := hpre
  induction calls generalizing ids with
  | nil => rfl
  | cons call calls ih =>
    rw [List.cons_append, Orderly, Bool.and_eq_true] at h
    rw [Orderly, Bool.and_eq_true]
    exact ⟨h.1, ih h.2⟩

/-- **Step.** -/
theorem Served.step (h : Served device calls s) (haccounted : Accounted s) {op : RelayOp}
    (hfresh : unspoiled device s op = true)
    (hattends : attends device (calls.foldl (outstanding device) []) op = true) :
    Served device (calls ++ [(op, (Relay.step s op).1)]) (Relay.step s op).2 := by
  by_cases hop : op.mailbox = device
  case neg => exact h.elsewhere hop
  cases op with
  | push message now => exact h.push hop (unexpired_of_unspoiled hfresh hop rfl)
  | pull d now =>
    obtain rfl : d = device := hop
    exact (h.pull (unexpired_of_unspoiled hfresh rfl rfl) (by simpa [attends] using hattends)).2
  | ack d messageId =>
    obtain rfl : d = device := hop
    exact h.ack haccounted (by simpa [attends] using hattends)

/-- **Run.** -/
theorem run_served (device : Id16) {ops : List RelayOp}
    (hfresh : Along Relay.step (fun s op => unspoiled device s op = true) RelayStore.empty ops)
    (horderly : Orderly device [] (trace Relay.step RelayStore.empty ops) = true) :
    Served device (trace Relay.step RelayStore.empty ops)
      (after Relay.step RelayStore.empty ops) := by
  refine history_invariant (R := Served device) ⟨[], [], rfl, rfl, rfl⟩ ops fun pre op hpre h => ?_
  have hpart := orderly_of_prefix (trace_mono Relay.step RelayStore.empty hpre) horderly
  rw [trace_concat, orderly_concat, Bool.and_eq_true] at hpart
  exact h.step (reachable_store pre) (hfresh.at_step hpre) hpart.2

end

/-- **A device that acknowledges gets each message once, and in order.**  In every run of the
    gateway, each pull in the name of a device that acknowledges what it has pulled once before it
    pulls again, returns exactly the messages that were accepted for it since it last pulled, as
    long as no push or pull of its queue finds an expired message there.  So all it has pulled, put
    together, is what was accepted for it, in that order, each acceptance once and none left out. -/
theorem fetches_are_exact (device : Id16) (events : List Event)
    (hfresh : Along Relay.step (fun s op => unspoiled device s op = true) RelayStore.empty
      ((relayLog (trace gatewayStep GatewayState.start events)).map (·.1)))
    (horderly :
      Orderly device [] (relayLog (trace gatewayStep GatewayState.start events)) = true) :
    let calls := relayLog (trace gatewayStep GatewayState.start events)
    fetched device calls <+: enqueuedFor device calls ∧
    ∀ pre now messages post, calls = pre ++ (.pull device now, .pulled messages) :: post →
      fetched device pre ++ messages = enqueuedFor device pre := by
  intro calls
  obtain ⟨ops, hlog, -⟩ := (run_ledger events).relay
  have hcalls : calls = trace Relay.step RelayStore.empty ops := hlog
  rw [hlog] at horderly hfresh
  rw [map_fst_trace] at hfresh
  rw [hcalls]
  refine ⟨?_, fun pre now messages post hpre => ?_⟩
  · obtain ⟨held, fresh, -, -, hrest⟩ := run_served device hfresh horderly
    rw [hrest]
    exact List.prefix_append _ _
  · -- the run up to this pull
    obtain ⟨before, rest, rfl, rfl, hanswer⟩ := exists_of_trace_eq Relay.step hpre
    have hpart : before ++ [RelayOp.pull device now] <+: before ++ .pull device now :: rest :=
      ⟨rest, by simp⟩
    have hunspoiled := hfresh.at_step hpart
    have hbefore := hfresh.of_prefix (List.prefix_append _ _)
    have horderly := orderly_of_prefix (trace_mono Relay.step RelayStore.empty hpart) horderly
    rw [trace_concat, orderly_concat, Bool.and_eq_true] at horderly
    have hserved := run_served device hbefore horderly.1
    rw [step_pull] at hanswer
    rw [RelayAnswer.pulled.inj hanswer]
    exact (hserved.pull (unexpired_of_unspoiled hunspoiled rfl rfl)
      (by simpa [attends] using horderly.2)).1

/-- A device that polls and acknowledges the one message, and seven days later is sent another one
    and polls again. -/
def pollingRun : List Event :=
  [.enqueue (idOf 1) (letter 1 2 0) 5, .poll (idOf 2) (idOf 2) 6,
    .ack (idOf 2) (idOf 2) (idOf 1),
    .enqueue (idOf 1) (letter 2 2 offlineTtlMs) (offlineTtlMs + 7),
    .poll (idOf 2) (idOf 2) (offlineTtlMs + 8)]

/-- The calls of the run on the relay. -/
def pollingCalls : List (RelayOp × RelayAnswer) :=
  [(.push (letter 1 2 0) 5, .pushed .accepted), (.pull (idOf 2) 6, .pulled [letter 1 2 0]),
    (.ack (idOf 2) (idOf 1), .acked true),
    (.push (letter 2 2 offlineTtlMs) (offlineTtlMs + 7), .pushed .accepted),
    (.pull (idOf 2) (offlineTtlMs + 8), .pulled [letter 2 2 offlineTtlMs])]

theorem pollingRun_calls :
    relayLog (trace gatewayStep GatewayState.start pollingRun) = pollingCalls := by
  decide +kernel

theorem sample_fetches_are_exact :
    let calls := relayLog (trace gatewayStep GatewayState.start pollingRun)
    fetched (idOf 2) (calls.take 4) ++ [letter 2 2 offlineTtlMs] =
      enqueuedFor (idOf 2) (calls.take 4) := by
  intro calls
  have hcalls : calls = pollingCalls := pollingRun_calls
  have hsplit : pollingCalls = pollingCalls.take 4 ++
      (.pull (idOf 2) (offlineTtlMs + 8), .pulled [letter 2 2 offlineTtlMs]) :: [] := rfl
  have hfresh : Along Relay.step (fun s op => unspoiled (idOf 2) s op = true) RelayStore.empty
      (pollingCalls.map (·.1)) := by decide +kernel
  have horderly : Orderly (idOf 2) [] pollingCalls = true := by decide +kernel
  rw [← pollingRun_calls] at hfresh horderly
  rw [hcalls]
  exact (fetches_are_exact (idOf 2) pollingRun hfresh horderly).2 (pollingCalls.take 4)
    (offlineTtlMs + 8) [letter 2 2 offlineTtlMs] [] (pollingRun_calls.trans hsplit)

end NexaMessenger.Gateway
