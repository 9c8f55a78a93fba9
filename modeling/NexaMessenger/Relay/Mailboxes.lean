import NexaMessenger.Lib.Isolation
import NexaMessenger.Lib.Refinement
import NexaMessenger.Relay.Retention

namespace NexaMessenger.Relay

open Lib

/-!
# Relay — a store is made of mailboxes

A store keeps one queue for each device, and two counters for all of them.  `mailboxStep` is the
mailbox of one device alone, and the only thing that it has to be told of the rest of the store is
whether a push that it would take is crowded out by the limits on the whole (`step_mailbox`).

With room for everybody devices do not notice each other (`UnwindingWhile`), and with no more than
256 recipients and no message over 8 KiB there is room for everybody: 256 full queues are the limit
on messages, and 65536 messages of this size the limit on bytes (`mailboxes_stand_alone`).
-/

/-- The device whose queue a call is about. -/
def RelayOp.mailbox : RelayOp → Id16
  | .push message _ => message.recipientDeviceId
  | .pull device _ => device
  | .ack device _ => device

/-- The mailbox of a device.  A call comes with whether the store has no room for it. -/
def mailboxStep (queue : List StoredMessage) : RelayOp × Bool → RelayAnswer × List StoredMessage
  | (.push message now, crowded) =>
    if !validMessage message || !timely message now then (.pushed .invalid, queue)
    else
      let live := unexpired queue now
      if UnderId live message.messageId then (.pushed .duplicate, live)
      else if maxPerDevice ≤ live.length || crowded then (.pushed .full, live)
      else (.pushed .accepted, live ++ [stored message now])
  | (.pull _ now, _) =>
    (.pulled ((unexpired queue now).map (·.message)), unexpired queue now)
  | (.ack _ messageId, _) =>
    (.acked ((unacked queue messageId).length ≠ queue.length), unacked queue messageId)

/-- A push is refused for the limits of the whole store: its recipient has room. -/
def crowdedOut (s : RelayStore) : RelayOp → Bool
  | .push message now => (s.push message now).1 = .full &&
      (unexpired (s.queue message.recipientDeviceId) now).length < maxPerDevice
  | .pull .. | .ack .. => false

/-- What a call is to the mailbox of a device. -/
def callsOn (device : Id16) (s : RelayStore) (op : RelayOp) : List (RelayOp × Bool) :=
  if op.mailbox = device then [(op, crowdedOut s op)] else []

/-! ### One call -/

theorem ack_answer (s : RelayStore) (device messageId : Id16) :
    (s.ack device messageId).1 =
      decide ((unacked (s.queue device) messageId).length ≠ (s.queue device).length) := by
  unfold RelayStore.ack
  cases hlook : s.queues.lookup device with
  | none =>
    have hnil : s.queue device = [] := by
      rw [RelayStore.queue, hlook]
      rfl
    rw [hnil]
    rfl
  | some queue =>
    dsimp only
    rw [removeAcked_fst, queue_of_lookup hlook]

/-- The whole store has no room for a message that is pushed at `now`. -/
def Crowded (s : RelayStore) (message : EncryptedMessage) (now : UInt64) : Prop :=
  let left := s.visit message.recipientDeviceId now
  maxTotalMessages ≤ left.totalMessages ∨
    maxTotalBytes < min (left.totalBytes + messageSize message) usizeMax

/-- All that a push can come to: what its recipient's queue says of it, and only then the limits of
    the whole store. -/
theorem push_outcomes {s s' : RelayStore} {message : EncryptedMessage} {now : UInt64}
    {answer : PushResult} (h : s.push message now = (answer, s')) :
    let live := unexpired (s.queue message.recipientDeviceId) now
    let left := s'.queue message.recipientDeviceId
    ((validMessage message && timely message now) = false ∧ answer = .invalid ∧ s' = s) ∨
    (validMessage message && timely message now) = true ∧
      ((UnderId live message.messageId ∧ answer = .duplicate ∧ left = live) ∨
      ¬ UnderId live message.messageId ∧
        ((maxPerDevice ≤ live.length ∧ answer = .full ∧ left = live) ∨
        live.length < maxPerDevice ∧
          ((Crowded s message now ∧ answer = .full ∧ left = live) ∨
          (¬ Crowded s message now ∧ answer = .accepted ∧
            left = live ++ [stored message now])))) := by
  intro live left
  have hvisit : (s.visit message.recipientDeviceId now).queue message.recipientDeviceId = live :=
    (visit_queue s _ now _).trans (if_pos rfl)
  rw [push_eq] at h
  cases hvalid : validMessage message with
  | false =>
    rw [hvalid, if_pos (by rfl)] at h
    obtain ⟨rfl, rfl⟩ := Prod.mk.inj h
    exact .inl ⟨rfl, rfl, rfl⟩
  | true =>
    cases htimely : timely message now with
    | false =>
      rw [hvalid, htimely, if_neg (by simp), if_pos (by rfl)] at h
      obtain ⟨rfl, rfl⟩ := Prod.mk.inj h
      exact .inl ⟨rfl, rfl, rfl⟩
    | true =>
      rw [hvalid, htimely, if_neg (by simp), if_neg (by simp)] at h
      dsimp only at h
      rw [hvisit] at h
      refine .inr ⟨rfl, ?_⟩
      by_cases hdup : UnderId live message.messageId
      · rw [if_pos hdup] at h
        obtain ⟨rfl, rfl⟩ := Prod.mk.inj h
        exact .inl ⟨hdup, rfl, hvisit⟩
      rw [if_neg hdup] at h
      refine .inr ⟨hdup, ?_⟩
      by_cases hfull : maxPerDevice ≤ live.length
      · rw [if_pos hfull] at h
        obtain ⟨rfl, rfl⟩ := Prod.mk.inj h
        exact .inl ⟨hfull, rfl, hvisit⟩
      rw [if_neg hfull] at h
      refine .inr ⟨Nat.not_le.mp hfull, ?_⟩
      have hqueue : left = _ := (storeMessage_queue h message.recipientDeviceId).2
      rw [hvisit] at hqueue
      unfold RelayStore.storeMessage at h
      by_cases hcrowded : Crowded s message now
      · rw [if_pos (show _ ∨ _ from hcrowded)] at h
        obtain ⟨rfl, rfl⟩ := Prod.mk.inj h
        rw [if_neg (by simp), List.append_nil] at hqueue
        exact .inl ⟨hcrowded, rfl, hqueue⟩
      · rw [if_neg (show ¬ (_ ∨ _) from hcrowded)] at h
        obtain ⟨rfl, -⟩ := Prod.mk.inj h
        rw [if_pos ⟨rfl, rfl⟩] at hqueue
        exact .inr ⟨hcrowded, rfl, hqueue⟩

/-- A push that is crowded out would be taken by its mailbox, but not by the store. -/
theorem crowdedOut_push {s : RelayStore} {message : EncryptedMessage} {now : UInt64} :
    crowdedOut s (.push message now) = true ↔
      (validMessage message && timely message now) = true ∧
      ¬ UnderId (unexpired (s.queue message.recipientDeviceId) now) message.messageId ∧
      (unexpired (s.queue message.recipientDeviceId) now).length < maxPerDevice ∧
      Crowded s message now := by
  rw [crowdedOut, Bool.and_eq_true, decide_eq_true_iff, decide_eq_true_iff]
  rcases hpush : s.push message now with ⟨answer, s'⟩
  obtain ⟨hbad, rfl, -⟩ | ⟨hgood, ⟨hdup, rfl, -⟩ | ⟨hfresh, hrest⟩⟩ := push_outcomes hpush
  · rw [hbad]
    simp
  · simp [hdup]
  obtain ⟨hfull, rfl, -⟩ | ⟨hroom, ⟨hcrowded, rfl, -⟩ | ⟨hfits, rfl, -⟩⟩ := hrest
  · simp [Nat.not_lt.mpr hfull]
  · exact iff_of_true ⟨rfl, hroom⟩ ⟨hgood, hfresh, hroom, hcrowded⟩
  · simp [hfits]

/-- A call on another mailbox. -/
theorem step_other {s : RelayStore} {op : RelayOp} {device : Id16} (h : op.mailbox ≠ device) :
    (step s op).2.queue device = s.queue device := by
  cases op with
  | push message now =>
    have hne : ¬ device = message.recipientDeviceId := Ne.symm h
    rw [step_push]
    dsimp only
    rcases push_cases s message now with hpush | ⟨-, hafter⟩
    · rw [hpush]
    · rw [hafter, visit_queue, if_neg hne, if_neg fun hacc => hne hacc.2, List.append_nil]
  | pull d now =>
    have hne : ¬ device = d := Ne.symm h
    rw [step_pull]
    dsimp only
    rw [pull_visits, visit_queue, if_neg hne]
  | ack d messageId =>
    have hne : ¬ device = d := Ne.symm h
    rw [step_ack]
    dsimp only
    rw [ack_queue, if_neg hne]

/-- **Step.** A call is answered by the mailbox that it is about. -/
theorem step_mailbox (s : RelayStore) (op : RelayOp) :
    (step s op).1 = (mailboxStep (s.queue op.mailbox) (op, crowdedOut s op)).1 ∧
      (step s op).2.queue op.mailbox =
        (mailboxStep (s.queue op.mailbox) (op, crowdedOut s op)).2 := by
  cases op with
  | push message now =>
    rw [step_push]
    unfold mailboxStep crowdedOut
    dsimp only [RelayOp.mailbox]
    rcases hpush : s.push message now with ⟨answer, s'⟩
    obtain ⟨hbad, rfl, rfl⟩ | ⟨hgood, hrest⟩ := push_outcomes hpush
    · rw [← Bool.not_and, hbad, if_pos (by rfl)]
      exact ⟨rfl, rfl⟩
    rw [← Bool.not_and, hgood, if_neg (by simp)]
    obtain ⟨hdup, rfl, hqueue⟩ | ⟨hfresh, hrest⟩ := hrest
    · rw [if_pos hdup, hqueue]
      exact ⟨rfl, rfl⟩
    rw [if_neg hfresh]
    obtain ⟨hfull, rfl, hqueue⟩ | ⟨hroom, ⟨-, rfl, hqueue⟩ | ⟨-, rfl, hqueue⟩⟩ := hrest
    · rw [if_pos (by simp [hfull]), hqueue]
      exact ⟨rfl, rfl⟩
    · rw [if_pos (by simp [hroom]), hqueue]
      exact ⟨rfl, rfl⟩
    · rw [if_neg (by simp [hroom]), hqueue]
      exact ⟨rfl, rfl⟩
  | pull device now =>
    rw [step_pull]
    dsimp only [RelayOp.mailbox]
    rw [pull_answer, pull_visits]
    exact ⟨rfl, (visit_queue s device now device).trans (if_pos rfl)⟩
  | ack device messageId =>
    rw [step_ack]
    dsimp only [RelayOp.mailbox]
    rw [ack_answer, ack_queue, if_pos rfl]
    exact ⟨rfl, rfl⟩

/-! ### Room for everybody -/

/-- Two stores that look alike to a device: the second one has nothing but its queue. -/
structure Alike (device : Id16) (s t : RelayStore) : Prop where
  shared : Accounted s
  own : Accounted t
  same : t.queue device = s.queue device
  alone : ∀ d, d ≠ device → t.queue d = []

section
variable {device : Id16} {s t : RelayStore}

/-- A sum over the queues of a store with one queue only. -/
theorem total_of_alone {f : List StoredMessage → Nat} (hf : f [] = 0)
    (halone : ∀ d, d ≠ device → t.queue d = []) : total f t.queues ≤ f (t.queue device) := by
  have hsum := total_le_sum f [device] t.queues fun d queue hlook hd => by
    rw [← queue_of_lookup hlook, halone d (by simpa using hd), hf]
  rwa [List.map_singleton, List.sum_singleton, Accounted.part_of_total hf] at hsum

/-- A store with nothing but one queue is not crowded before another is that has this queue too. -/
theorem Alike.crowded (h : Alike device s t) {message : EncryptedMessage} {now : UInt64}
    (hdevice : message.recipientDeviceId = device) (hcrowded : Crowded t message now) :
    Crowded s message now := by
  obtain ⟨hs, ht, hsame, halone⟩ := h
  unfold Crowded at hcrowded ⊢
  rw [hdevice] at hcrowded ⊢
  have hs := hs.visit device now
  have ht := ht.visit device now
  have hqueue : (t.visit device now).queue device = (s.visit device now).queue device := by
    rw [visit_queue, visit_queue, hsame]
  have hnone : ∀ d, d ≠ device → (t.visit device now).queue d = [] := by
    intro d hd
    rw [visit_queue, if_neg hd, halone d hd]
  obtain ⟨hmessages, hbytes⟩ := hs.queue_le device
  rw [← hqueue] at hmessages hbytes
  have hm : (t.visit device now).totalMessages ≤ (s.visit device now).totalMessages := by
    rw [ht.messages]
    exact (total_of_alone rfl hnone).trans hmessages
  have hb : (t.visit device now).totalBytes ≤ (s.visit device now).totalBytes := by
    rw [ht.bytes]
    exact (total_of_alone rfl hnone).trans hbytes
  dsimp only at hcrowded ⊢
  omega

/-- **Unwinding.** A device does not notice the others unless it is crowded out. -/
theorem unwinding_mailbox (device : Id16) :
    UnwindingWhile step (fun op => op.mailbox = device) (fun s op => crowdedOut s op = false)
      (Alike device) where
  kept := by
    intro s t op h hkeep hroom
    obtain rfl := of_decide_eq_true hkeep
    -- what does not crowd it out of the one does not crowd it out of the other
    have hown : crowdedOut t op = false := by
      cases op with
      | push message now =>
        refine Bool.eq_false_iff.mpr fun hout => Bool.eq_false_iff.mp hroom ?_
        rw [crowdedOut_push] at hout ⊢
        have hsame : t.queue message.recipientDeviceId = s.queue message.recipientDeviceId :=
          h.same
        rw [hsame] at hout
        obtain ⟨hgood, hfresh, hfree, hcrowded⟩ := hout
        exact ⟨hgood, hfresh, hfree, h.crowded rfl hcrowded⟩
      | pull device now => rfl
      | ack device messageId => rfl
    obtain ⟨hanswer, hqueue⟩ := step_mailbox s op
    obtain ⟨hanswer', hqueue'⟩ := step_mailbox t op
    rw [h.same, hown] at hanswer' hqueue'
    rw [hroom] at hanswer hqueue
    refine ⟨hanswer.trans hanswer'.symm, step_accounted h.shared op, step_accounted h.own op,
      hqueue'.trans hqueue.symm, fun d hd => ?_⟩
    rw [step_other (Ne.symm hd)]
    exact h.alone d hd
  dropped := by
    intro s t op h hkeep
    have hother : op.mailbox ≠ device := of_decide_eq_false hkeep
    refine ⟨step_accounted h.shared op, h.own, ?_, h.alone⟩
    rw [step_other hother]
    exact h.same

end

theorem queueBytes_le {queue : List StoredMessage} {c : Nat}
    (h : ∀ x ∈ queue, x.accountedBytes ≤ c) : queueBytes queue ≤ c * queue.length := by
  have hsum := List.sum_le_card_nsmul (queue.map (·.accountedBytes)) c fun b hb => by
    obtain ⟨x, hx, rfl⟩ := List.mem_map.mp hb
    exact h x hx
  rw [List.length_map] at hsum
  exact hsum.trans_eq (Nat.mul_comm _ _)

/-- **Room for few.**  With as many recipients as have room for full queues, and messages of an even
    share of the bytes at most, nobody is crowded out. -/
theorem room_for_few {ops : List RelayOp} {devices : List Id16}
    (hfew : devices.length * maxPerDevice ≤ maxTotalMessages)
    (hsmall : ∀ message now, .push message now ∈ ops → message.recipientDeviceId ∈ devices ∧
      messageSize message ≤ maxTotalBytes / maxTotalMessages)
    (pre : List RelayOp) (op : RelayOp) (hpre : pre ++ [op] <+: ops) :
    crowdedOut (after step RelayStore.empty pre) op = false := by
  have hsub : pre ++ [op] ⊆ ops := hpre.subset
  cases op with
  | pull device now => rfl
  | ack device messageId => rfl
  | push message now =>
    refine Bool.eq_false_iff.mpr fun hout => ?_
    obtain ⟨-, -, hroom, hcrowded⟩ := crowdedOut_push.mp hout
    unfold Crowded at hcrowded
    have hvisit := visit_queue (after step RelayStore.empty pre) message.recipientDeviceId now
    have hleft := (reachable_store pre).visit message.recipientDeviceId now
    -- what is stored was pushed before
    have hstored : ∀ d, ∀ x ∈ ((after step RelayStore.empty pre).visit
        message.recipientDeviceId now).queue d, d ∈ devices ∧
          x.accountedBytes ≤ maxTotalBytes / maxTotalMessages := by
      intro d x hx
      have hwf := hleft.queue_wf d
      rw [← hwf.owned x hx, hwf.sized x hx]
      obtain ⟨before, t, later, htrace⟩ :=
        exists_of_mem_accepted ((run_retains pre).only d x (mem_visit_iff.mp hx).1)
      refine hsmall x.message t (hsub (List.mem_append_left _ ?_))
      rw [← map_fst_trace step RelayStore.empty pre, htrace]
      simp
    generalize (after step RelayStore.empty pre).visit message.recipientDeviceId now = left at *
    obtain ⟨hmem, hsize⟩ := hsmall message now (hsub (by simp))
    have hnone : ∀ d, d ∉ devices → left.queue d = [] := fun d hd =>
      List.eq_nil_iff_forall_not_mem.mpr fun x hx => hd (hstored d x hx).1
    -- every queue has room for 256 messages, and that of the recipient is not full
    have hmessages : left.totalMessages < maxTotalMessages := by
      rw [hleft.messages]
      refine lt_of_lt_of_le (lt_of_le_of_lt (total_le_sum List.length devices left.queues ?_) ?_)
        hfew
      · intro d queue hlook hd
        rw [← queue_of_lookup hlook, hnone d hd]
        rfl
      · have hshare : devices.length * maxPerDevice =
            (devices.map fun _ => maxPerDevice).sum := by
          rw [List.map_const', List.sum_replicate]
          rfl
        rw [hshare]
        refine List.sum_lt_sum _ _ (fun d _ => ?_) ⟨_, hmem, ?_⟩
        · rw [Accounted.part_of_total rfl]
          exact (hleft.queue_wf d).bounded
        · rw [Accounted.part_of_total rfl, hvisit, if_pos rfl]
          exact hroom
    have hbytes : left.totalBytes ≤ maxTotalBytes / maxTotalMessages * left.totalMessages := by
      rw [hleft.bytes, hleft.messages]
      refine total_le_mul fun d queue hlook => ?_
      obtain rfl := queue_of_lookup hlook
      exact queueBytes_le fun x hx => (hstored d x hx).2
    have hshare : maxTotalBytes / maxTotalMessages = 8192 := by decide
    have hlimit : maxTotalMessages = 65536 ∧ maxTotalBytes = 8192 * 65536 := by decide
    rw [hshare] at hbytes hsize
    omega

/-! ### Runs -/

/-- The answer to a call, if it is on the mailbox of the device. -/
def answerOf (device : Id16) (op : RelayOp) (answer : RelayAnswer) : List RelayAnswer :=
  if op.mailbox = device then [answer] else []

theorem drives_mailbox (device : Id16) :
    Drives step mailboxStep (fun _ => True) (fun s => s.queue device) (callsOn device) where
  keeps := fun _ => trivial
  moves := by
    intro s op _
    unfold callsOn
    split
    · rename_i hdevice
      rw [← hdevice]
      exact (step_mailbox s op).2
    · rename_i hother
      exact step_other hother

theorem answerOf_step (device : Id16) (s : RelayStore) (op : RelayOp) :
    answerOf device op (step s op).1 =
      (trace mailboxStep (s.queue device) (callsOn device s op)).map (·.2) := by
  unfold answerOf callsOn
  split
  · rename_i hdevice
    rw [← hdevice, (step_mailbox s op).1]
    rfl
  · rfl

/-- The calls on a mailbox are those of the run that are about it. -/
theorem emitted_callsOn (device : Id16) (s : RelayStore) (ops : List RelayOp) :
    (emitted step (callsOn device) s ops).map (·.1) =
      ops.filter fun op => op.mailbox = device := by
  induction ops generalizing s with
  | nil => rfl
  | cons op ops ih =>
    rw [emitted, List.map_append, ih, callsOn]
    by_cases hdevice : op.mailbox = device <;> simp [hdevice]

theorem along_of_callsOn {device : Id16} {s : RelayStore} {ops : List RelayOp}
    (h : ∀ call ∈ emitted step (callsOn device) s ops, call.2 = false) :
    Along step (fun s op => decide (op.mailbox = device) = true → crowdedOut s op = false) s
      ops := by
  induction ops generalizing s with
  | nil => exact trivial
  | cons op ops ih =>
    rw [emitted] at h
    refine ⟨fun hdevice => ?_, ih fun call hcall => h call (List.mem_append_right _ hcall)⟩
    refine h (op, crowdedOut s op) (List.mem_append_left _ ?_)
    rw [callsOn, if_pos (of_decide_eq_true hdevice)]
    exact List.mem_singleton.mpr rfl

/-- **A store is made of mailboxes.**  In every run each device is answered as by a mailbox of its
    own, which is told of the rest of the store only whether a push that it would take is crowded
    out.  If none is, the device is answered as if it had the store to itself.  And none is as long
    as there are no more recipients than the store has room for with full queues, and no message is
    larger than its even share of the bytes. -/
theorem mailboxes_stand_alone (ops : List RelayOp) (device : Id16) :
    let calls := emitted step (callsOn device) RelayStore.empty ops
    let own := ops.filter fun op => op.mailbox = device
    calls.map (·.1) = own ∧
    ((trace step RelayStore.empty ops).flatMap fun call => answerOf device call.1 call.2) =
      (trace mailboxStep [] calls).map (·.2) ∧
    (after step RelayStore.empty ops).queue device = after mailboxStep [] calls ∧
    ((∀ call ∈ calls, call.2 = false) →
      (trace step RelayStore.empty ops).filter (fun call => call.1.mailbox = device) =
        trace step RelayStore.empty own) ∧
    ∀ devices : List Id16, devices.length * maxPerDevice ≤ maxTotalMessages →
      (∀ message now, .push message now ∈ ops → message.recipientDeviceId ∈ devices ∧
        messageSize message ≤ maxTotalBytes / maxTotalMessages) →
      ∀ call ∈ calls, call.2 = false := by
  intro calls own
  refine ⟨emitted_callsOn device _ ops, ?_, ?_, fun hroom => ?_, fun devices hfew hsmall => ?_⟩
  · exact (drives_mailbox device).answers_eq (fun _ => answerOf_step device _ _) trivial ops
  · exact (drives_mailbox device).after_eq trivial ops
  · refine (unwinding_mailbox device).trace_filter ?_ ops (along_of_callsOn hroom)
    exact ⟨Accounted.empty, Accounted.empty, rfl, fun d _ => queue_empty d⟩
  · intro call hcall
    obtain ⟨pre, op, post, rfl, hop⟩ := exists_of_mem_emitted hcall
    have hroom := room_for_few hfew hsmall pre op ⟨post, by simp⟩
    unfold callsOn at hop
    split at hop
    · rw [List.mem_singleton.mp hop]
      exact hroom
    · cases hop

end NexaMessenger.Relay
