import NexaMessenger.Relay.Delivery
import NexaMessenger.Relay.Retention

namespace NexaMessenger.Relay

open Lib

/-!
# Relay — when a push is refused

Exact conditions for the two refusals of a well-formed message.

* `Unswept` — expiry is lazy, so an expired message still counts for the two limits of the whole
  store, but only until the next visit of its queue (`run_unswept`).
* `full_exactly_when_stored_fill`, `duplicate_exactly_under_stored_id` — `Full` and `Duplicate`.
-/

theorem storeMessage_full {s : RelayStore} {message : EncryptedMessage} {now : UInt64} :
    (s.storeMessage message now).1 = .full ↔ maxTotalMessages ≤ s.totalMessages ∨
      maxTotalBytes < min (s.totalBytes + messageSize message) usizeMax := by
  unfold RelayStore.storeMessage
  split
  · rename_i hfull
    exact iff_of_true rfl hfull
  · rename_i hroom
    exact iff_of_false (by simp) hroom

/-- `push` answers `Duplicate` exactly when the visited queue holds a message under the id. -/
theorem push_duplicate_iff {s : RelayStore} {message : EncryptedMessage} {now : UInt64} :
    (s.push message now).1 = .duplicate ↔ validMessage message = true ∧ timely message now = true ∧
      UnderId (unexpired (s.queue message.recipientDeviceId) now) message.messageId := by
  rw [push_eq]
  cases validMessage message with
  | false => simp
  | true =>
    cases timely message now with
    | false => simp
    | true =>
      simp only [Bool.not_true, Bool.false_eq_true, if_false, true_and]
      rw [visit_queue, if_pos rfl]
      split
      · rename_i hdup
        exact iff_of_true rfl hdup
      rename_i hdup
      refine iff_of_false ?_ hdup
      split
      · simp
      · -- the insertion answers `Accepted` or `Full`
        unfold RelayStore.storeMessage
        split <;> simp

/-! ### What stays in a queue after its expiry -/

/-- A stored message of a device was accepted by one of the calls, and no later one visited the
    device's queue after its expiry. -/
def Unswept (calls : List (RelayOp × RelayAnswer)) (device : Id16) (x : StoredMessage) : Prop :=
  ∃ pre message now post, calls = pre ++ (.push message now, .pushed .accepted) :: post ∧
    x = stored message now ∧ message.recipientDeviceId = device ∧
    ∀ call ∈ post, ∀ t, Visits device t call → t < x.expiresAtMs

theorem Unswept.concat {calls : List (RelayOp × RelayAnswer)} {device : Id16} {x : StoredMessage}
    (h : Unswept calls device x) {call : RelayOp × RelayAnswer}
    (hcall : ∀ t, Visits device t call → t < x.expiresAtMs) :
    Unswept (calls ++ [call]) device x := by
  obtain ⟨pre, message, now, post, rfl, rfl, hd, hpost⟩ := h
  refine ⟨pre, message, now, post ++ [call], by simp, rfl, hd, ?_⟩
  intro c hc
  rcases List.mem_append.mp hc with hc | hc
  · exact hpost c hc
  · rw [List.mem_singleton.mp hc]
    exact hcall

/-- Every message in the queues is unswept. -/
theorem run_unswept (ops : List RelayOp) :
    ∀ d, ∀ x ∈ (after step RelayStore.empty ops).queue d,
      Unswept (trace step RelayStore.empty ops) d x := by
  refine history_invariant_of_step (s := RelayStore.empty)
    (R := fun calls s => ∀ d, ∀ x ∈ s.queue d, Unswept calls d x) ?_ ?_ ops
  · intro d x hx
    simp at hx
  · intro calls s op h d x hx
    rcases mem_queue_step_iff.mp hx with ⟨hold, -, hlive⟩ | ⟨message, now, rfl, hacc, rfl, hd⟩
    · exact (h d x hold).concat hlive
    · exact ⟨calls, message, now, [], by rw [hacc], rfl, hd, by simp⟩

/-! ### Full -/

/-- The stored messages leave no room for another one. -/
def Fills (s : RelayStore) (message : EncryptedMessage) : Prop :=
  maxPerDevice ≤ (s.queue message.recipientDeviceId).length ∨
    maxTotalMessages ≤ total List.length s.queues ∨
    maxTotalBytes < total queueBytes s.queues + messageSize message

/-- Those of them that are unexpired at `now` leave no room for another one. -/
def LiveFills (s : RelayStore) (message : EncryptedMessage) (now : UInt64) : Prop :=
  maxPerDevice ≤ (unexpired (s.queue message.recipientDeviceId) now).length ∨
    maxTotalMessages ≤ total (fun queue => (unexpired queue now).length) s.queues ∨
    maxTotalBytes <
      total (fun queue => queueBytes (unexpired queue now)) s.queues + messageSize message

/-- `push` answers `Full` exactly when the visited store has no room for a message that is valid,
    timely and no duplicate. -/
theorem push_full_iff {s : RelayStore} (h : Accounted s) {message : EncryptedMessage}
    {now : UInt64} :
    (s.push message now).1 = .full ↔ validMessage message = true ∧ timely message now = true ∧
      ¬ UnderId (unexpired (s.queue message.recipientDeviceId) now) message.messageId ∧
      Fills (s.visit message.recipientDeviceId now) message := by
  rw [push_eq]
  cases validMessage message with
  | false => simp
  | true =>
    cases timely message now with
    | false => simp
    | true =>
      simp only [Bool.not_true, Bool.false_eq_true, if_false, true_and]
      have hqueue := visit_queue s message.recipientDeviceId now message.recipientDeviceId
      rw [if_pos rfl] at hqueue
      rw [Fills, hqueue]
      split
      · rename_i hdup
        exact iff_of_false (by simp) fun hfull => hfull.1 hdup
      rename_i hdup
      rw [and_iff_right hdup]
      split
      · rename_i hfull
        exact iff_of_true rfl (Or.inl hfull)
      rename_i hroom
      have hleft := h.visit message.recipientDeviceId now
      have hmax : maxTotalBytes < usizeMax := by decide
      rw [storeMessage_full, or_iff_right hroom, ← hleft.messages, ← hleft.bytes]
      -- the saturating sum is beyond the limit when the sum is
      refine or_congr Iff.rfl ?_
      omega

/-- What is unexpired at `now` counts the same before and after a visit at `now`. -/
theorem total_visit {f : List StoredMessage → Nat} (hf : f [] = 0) (s : RelayStore)
    (device : Id16) (now : UInt64) :
    total (fun queue => f (unexpired queue now)) (s.visit device now).queues =
      total (fun queue => f (unexpired queue now)) s.queues := by
  unfold RelayStore.visit
  cases htake : s.takeQueue device now with
  | none => rfl
  | some r =>
    obtain ⟨queue, guard⟩ := r
    obtain ⟨hqueue, herase⟩ := takeQueue_queue htake
    have hsum := total_insert_add (fun queue => f (unexpired queue now)) s.queues device queue
    have hidem : unexpired queue now = unexpired (s.queue device) now := by
      rw [hqueue, unexpired_unexpired _ (UInt64.le_refl now)]
    have hpart := Accounted.part_of_total (f := fun queue => f (unexpired queue now)) hf s device
    rw [hpart, hidem] at hsum
    show total _ (guard.queues.insert device queue) = _
    rw [herase, insert_erase_self]
    omega

/-- With no expired message in the other queues, only live messages fill a limit. -/
theorem liveFills_of_fills {s : RelayStore} {message : EncryptedMessage} {now : UInt64}
    (hlive : ∀ d, d ≠ message.recipientDeviceId → ∀ x ∈ s.queue d, now < x.expiresAtMs)
    (h : Fills (s.visit message.recipientDeviceId now) message) : LiveFills s message now := by
  have hall {d : Id16} {queue : List StoredMessage}
      (hlook : (s.visit message.recipientDeviceId now).queues.lookup d = some queue) :
      unexpired queue now = queue := by
    obtain rfl := queue_of_lookup hlook
    refine List.filter_eq_self.mpr fun x hx => decide_eq_true ?_
    by_cases hd : d = message.recipientDeviceId
    · subst hd
      exact (mem_visit_iff.mp hx).2 rfl
    · exact hlive d hd x (mem_visit_iff.mp hx).1
  have hcount {f : List StoredMessage → Nat} (hf : f [] = 0) :
      total f (s.visit message.recipientDeviceId now).queues =
        total (fun queue => f (unexpired queue now)) s.queues := by
    rw [← total_visit hf s message.recipientDeviceId now]
    exact total_congr fun d queue hlook => by rw [hall hlook]
  unfold Fills at h
  rw [visit_queue, if_pos rfl, hcount rfl, hcount rfl] at h
  exact h

/-- **`Full`, exactly.**  A push to a reachable store answers `Full` exactly when the message is
    valid, timely and no duplicate, and what is stored after the visit of the recipient's queue
    fills a limit.  There the recipient holds unexpired messages only, and the others hold what no
    visit has found expired; if nothing of that has expired, then live messages fill a limit. -/
theorem full_exactly_when_stored_fill (ops : List RelayOp) (message : EncryptedMessage)
    (now : UInt64) :
    let s := after step RelayStore.empty ops
    let left := s.visit message.recipientDeviceId now
    ((s.push message now).1 = .full ↔ validMessage message = true ∧ timely message now = true ∧
      ¬ UnderId (unexpired (s.queue message.recipientDeviceId) now) message.messageId ∧
      Fills left message) ∧
    left.queue message.recipientDeviceId = unexpired (s.queue message.recipientDeviceId) now ∧
    (∀ d, d ≠ message.recipientDeviceId → left.queue d = s.queue d ∧
      ∀ x ∈ s.queue d, Unswept (trace step RelayStore.empty ops) d x) ∧
    ((∀ d, d ≠ message.recipientDeviceId → ∀ x ∈ s.queue d, now < x.expiresAtMs) →
      (s.push message now).1 = .full → LiveFills s message now) := by
  intro s left
  have hfull : (s.push message now).1 = .full ↔ _ := push_full_iff (reachable_store ops)
  refine ⟨hfull, ?_, fun d hd => ⟨?_, run_unswept ops d⟩, fun hlive h => ?_⟩
  · exact (visit_queue _ _ _ _).trans (if_pos rfl)
  · exact (visit_queue _ _ _ _).trans (if_neg hd)
  · exact liveFills_of_fills hlive (hfull.mp h).2.2.2

/-- All that the fillers store expires at the same time. -/
theorem fillers_expire (n : Nat) (d : Id16) {x : StoredMessage}
    (hx : x ∈ (after step RelayStore.empty (fillers n)).queue d) :
    x.expiresAtMs = satAdd 1 offlineTtlMs := by
  obtain ⟨pre, message, now, post, hcalls, rfl, -⟩ := run_unswept (fillers n) d x hx
  have hmem : RelayOp.push message now ∈ fillers n := by
    rw [← trace_ops RelayStore.empty (fillers n), hcalls]
    simp
  obtain ⟨i, -, hi⟩ := List.mem_map.mp hmem
  obtain ⟨-, rfl⟩ := RelayOp.push.inj hi
  rfl

/-- **`Full` with no live message.**  A store filled at time 1 refuses a message for another
    device when all that it holds has expired. -/
theorem full_without_live_messages :
    let s := after step RelayStore.empty (fillers 65536)
    let now := offlineTtlMs + 1
    let message := letter 1 2 now
    validMessage message = true ∧ timely message now = true ∧
      (s.push message now).1 = .full ∧ ¬ LiveFills s message now := by
  intro s now message
  have hvalid : validMessage message = true :=
    letter_valid _ (by decide) (by decide) (by decide) (by decide)
  have htime : timely message now = true := by decide
  have hexpired (d : Id16) : unexpired (s.queue d) now = [] := by
    refine List.filter_eq_nil_iff.mpr fun x hx => ?_
    rw [fillers_expire 65536 d hx]
    decide
  obtain ⟨hm, -, hqueues⟩ := after_fillers (s := RelayStore.empty) 65536 (by decide)
    (fun i hi => lookup_empty_eq _) (by decide) (by decide)
  have hfresh : s.queues.lookup message.recipientDeviceId = none := by
    refine hqueues _ fun i hi e => ?_
    have := idOf_injective (by omega) (by omega) e
    omega
  have hvisit : s.visit message.recipientDeviceId now = s := by
    rw [RelayStore.visit, RelayStore.takeQueue, hfresh]
    rfl
  refine ⟨hvalid, htime, ?_, ?_⟩
  · refine (push_full_iff (reachable_store _)).mpr ⟨hvalid, htime, ?_, ?_⟩
    · rw [hexpired]
      simp [UnderId]
    · rw [hvisit]
      right; left
      rw [← (reachable_store (fillers 65536)).messages, hm]
      decide
  · have hzero {f : List StoredMessage → Nat} (hf : f [] = 0) :
        total (fun queue => f (unexpired queue now)) s.queues = 0 := by
      refine List.sum_eq_zero fun k hk => ?_
      obtain ⟨e, he, rfl⟩ := List.mem_map.mp hk
      show f (unexpired e.2 now) = 0
      rw [← queue_of_lookup (AList.mem_lookup_iff.mpr he), hexpired, hf]
    unfold LiveFills
    rw [hexpired, hzero rfl, hzero rfl, letter_size]
    decide

/-! ### Duplicate -/

/-- **`Duplicate`, exactly.**  A push to a reachable store answers `Duplicate` exactly when the
    message is valid and timely and an unexpired message of its recipient stands under its id.
    That message was accepted for the recipient and stays stored; it is the pushed one if no other
    was accepted for the recipient under the id. -/
theorem duplicate_exactly_under_stored_id (ops : List RelayOp) (message : EncryptedMessage)
    (now : UInt64) :
    let s := after step RelayStore.empty ops
    ((s.push message now).1 = .duplicate ↔ validMessage message = true ∧
      timely message now = true ∧
      UnderId (unexpired (s.queue message.recipientDeviceId) now) message.messageId) ∧
    ((s.push message now).1 = .duplicate →
      ∃ x ∈ (s.push message now).2.queue message.recipientDeviceId,
        now < x.expiresAtMs ∧ x.message.messageId = message.messageId ∧
        x.message.recipientDeviceId = message.recipientDeviceId ∧
        x.message ∈ accepted (trace step RelayStore.empty ops) ∧
        ((∀ m ∈ accepted (trace step RelayStore.empty ops),
          m.recipientDeviceId = message.recipientDeviceId → m.messageId = message.messageId →
          m = message) → x.message = message)) := by
  intro s
  have hdup : (s.push message now).1 = .duplicate ↔ _ := push_duplicate_iff
  refine ⟨hdup, fun h => ?_⟩
  obtain ⟨-, -, x, hx, hid⟩ := hdup.mp h
  obtain ⟨hmem, hlive⟩ := List.mem_filter.mp hx
  have howned : x.message.recipientDeviceId = message.recipientDeviceId :=
    ((reachable_store ops).queue_wf message.recipientDeviceId).owned x hmem
  have haccepted : x.message ∈ accepted (trace step RelayStore.empty ops) :=
    (run_retains ops).only message.recipientDeviceId x hmem
  refine ⟨x, ?_, of_decide_eq_true hlive, hid, howned, haccepted, fun hone => ?_⟩
  · rcases push_cases s message now with hpush | ⟨-, hafter⟩
    · rw [hpush] at h
      exact absurd h (by simp)
    · rw [hafter, visit_queue, if_pos rfl]
      exact List.mem_append_left _ hx
  · exact hone _ haccepted howned hid

/-- **`Duplicate` of another message.**  Two senders choose the same id for one recipient: the
    second message is not stored. -/
theorem duplicate_of_another_message :
    let message := { letter 1 2 0 with senderDeviceId := idOf 3, ciphertext := [7] }
    let s := after step RelayStore.empty [.push (letter 1 2 0) 0]
    (s.push message 0).1 = .duplicate ∧
      ∀ x ∈ s.queue message.recipientDeviceId, x.message ≠ message :=
  ⟨by rfl, by decide⟩

end NexaMessenger.Relay
