import NexaMessenger.Relay.Visits

namespace NexaMessenger.Relay

open Lib

/-!
# Relay — how long a message stays

A stored message was accepted, and it stays until its recipient acknowledges it or a clock
reading reaches its expiry (`Lost`), whatever the order of the readings: nothing else takes it
out of its queue (`step_retains`).
-/

/-- The messages accepted in a history of calls. -/
def accepted (calls : List (RelayOp × RelayAnswer)) : List EncryptedMessage :=
  calls.filterMap fun
    | (.push message _, .pushed .accepted) => some message
    | _ => none

/-- Among these calls, a message accepted at `since` is acknowledged or expires. -/
def Lost (message : EncryptedMessage) (since : UInt64) (calls : List (RelayOp × RelayAnswer)) :
    Prop :=
  ∃ call ∈ calls, call.1 = .ack message.recipientDeviceId message.messageId ∨
    ∃ t, call.1.clock = some t ∧ satAdd since offlineTtlMs ≤ t

theorem accepted_append (calls calls' : List (RelayOp × RelayAnswer)) :
    accepted (calls ++ calls') = accepted calls ++ accepted calls' :=
  List.filterMap_append

/-- An accepted message was pushed. -/
theorem exists_of_mem_accepted {calls : List (RelayOp × RelayAnswer)} {message : EncryptedMessage}
    (h : message ∈ accepted calls) :
    ∃ pre now post, calls = pre ++ (.push message now, .pushed .accepted) :: post := by
  obtain ⟨call, hmem, hcall⟩ := List.mem_filterMap.mp h
  obtain ⟨pre, post, rfl⟩ := List.append_of_mem hmem
  split at hcall
  · rename_i m now
    obtain rfl := Option.some.inj hcall
    exact ⟨pre, now, post, rfl⟩
  · exact absurd hcall (by simp)

/-- What the machine answers to a push. -/
theorem accepted_push (message : EncryptedMessage) (now : UInt64) (result : PushResult) :
    accepted [(.push message now, .pushed result)] =
      if result = .accepted then [message] else [] := by
  cases result <;> rfl

/-- A message that is not acknowledged by a call and has not expired at its reading stays. -/
theorem step_retains {s : RelayStore} {d : Id16} {x : StoredMessage} (hmem : x ∈ s.queue d)
    {op : RelayOp} (hack : op ≠ .ack d x.message.messageId)
    (hclock : ∀ t, op.clock = some t → t < x.expiresAtMs) : x ∈ (step s op).2.queue d := by
  refine mem_queue_step_iff.mpr (Or.inl ⟨hmem, hack, fun t hvisits => hclock t ?_⟩)
  -- a visit is made by a call with a clock reading
  cases op with
  | push message now => rw [RelayOp.clock, hvisits.2.1]
  | pull device now => rw [RelayOp.clock, hvisits.2]
  | ack device messageId => exact hvisits.elim

/-- What the queues hold, told from the history: only accepted messages, and every accepted one
    that is not lost. -/
structure Retains (calls : List (RelayOp × RelayAnswer)) (s : RelayStore) : Prop where
  only : ∀ d, ∀ x ∈ s.queue d, x.message ∈ accepted calls
  all : ∀ pre message now post, calls = pre ++ (.push message now, .pushed .accepted) :: post →
    ¬ Lost message now post → stored message now ∈ s.queue message.recipientDeviceId

/-- **Step.** -/
theorem Retains.step {calls : List (RelayOp × RelayAnswer)} {s : RelayStore} (h : Retains calls s)
    (op : RelayOp) : Retains (calls ++ [(op, (step s op).1)]) (step s op).2 := by
  constructor
  · intro d x hx
    rw [accepted_append, List.mem_append]
    rcases mem_queue_step_iff.mp hx with ⟨hold, -⟩ | ⟨message, now, rfl, hacc, rfl, -⟩
    · exact Or.inl (h.only d x hold)
    · -- the message that came in is the one the call accepted
      rw [hacc, accepted_push, if_pos rfl]
      exact Or.inr (List.mem_singleton.mpr rfl)
  · intro pre message now post hsplit hkept
    rcases List.eq_nil_or_concat post with rfl | ⟨post, call, rfl⟩
    · -- the message is accepted by this very call
      obtain ⟨-, hcall⟩ := List.append_inj' hsplit rfl
      obtain ⟨rfl, hanswer⟩ := Prod.mk.inj (List.singleton_inj.mp hcall)
      exact mem_queue_step_iff.mpr (Or.inr ⟨message, now, rfl, hanswer, rfl, rfl⟩)
    · rw [List.concat_eq_append] at hsplit hkept
      have hsplit' : calls ++ [(op, (Relay.step s op).1)] =
          (pre ++ (.push message now, .pushed .accepted) :: post) ++ [call] := by
        rw [hsplit]; simp
      obtain ⟨hcalls, hcall⟩ := List.append_inj' hsplit' rfl
      obtain rfl := List.singleton_inj.mp hcall
      have hold := h.all pre message now post hcalls fun ⟨c, hc, hlost⟩ =>
        hkept ⟨c, List.mem_append_left _ hc, hlost⟩
      apply step_retains hold
      · intro hack
        exact hkept ⟨_, List.mem_append_right _ (List.mem_singleton.mpr rfl), .inl hack⟩
      · intro t ht
        refine UInt64.not_le.mp fun hle => ?_
        exact hkept ⟨_, List.mem_append_right _ (List.mem_singleton.mpr rfl), .inr ⟨t, ht, hle⟩⟩

/-- **Run.** -/
theorem run_retains (ops : List RelayOp) :
    Retains (trace step RelayStore.empty ops) (after step RelayStore.empty ops) := by
  refine history_invariant_of_step (R := Retains) ⟨?_, ?_⟩ (fun _ _ op h => h.step op) ops
  · intro d x hx
    simp at hx
  · intro pre message now post h
    simp at h

/-- A pull answers with the unexpired messages of the queue. -/
theorem mem_pull {s : RelayStore} {d : Id16} {now : UInt64} {x : StoredMessage}
    (hmem : x ∈ s.queue d) (hlive : now < x.expiresAtMs) : x.message ∈ (s.pull d now).1 := by
  rw [pull_answer]
  exact List.mem_map_of_mem (List.mem_filter.mpr ⟨hmem, decide_eq_true hlive⟩)

/-- What a pull of a reachable store answers with is accepted, and of pairwise distinct ids. -/
theorem pull_accepted {calls : List (RelayOp × RelayAnswer)} {s : RelayStore}
    (h : Retains calls s) (hs : Accounted s) (d : Id16) (now : UInt64) :
    (∀ message ∈ (s.pull d now).1, message ∈ accepted calls ∧ message.recipientDeviceId = d) ∧
      ((s.pull d now).1.map (·.messageId)).Nodup := by
  rw [pull_answer]
  constructor
  · intro message hmessage
    obtain ⟨x, hx, rfl⟩ := List.mem_map.mp hmessage
    have hx := (List.mem_filter.mp hx).1
    exact ⟨h.only d x hx, (hs.queue_wf d).owned x hx⟩
  · rw [List.map_map]
    exact (hs.queue_wf d).distinct.sublist (List.filter_sublist.map _)

end NexaMessenger.Relay
