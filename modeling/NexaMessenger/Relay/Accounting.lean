import NexaMessenger.Relay.Store

namespace NexaMessenger.Relay

open Lib

/-!
# Relay — the accounting invariant

The store keeps its two counters by hand: each of `push`, `pull` and `ack` adds or subtracts
what it believes it changed.  `Accounted` says that the counters are always the sums over the
queues, that every queue is well formed, and that the limits hold.  One call keeps it
(`step_accounted`), so every store reached from the empty one has it, whatever the clocks say.

The proof never follows the counters through a call: `Accounted.replace` and
`Accounted.remove` say what a new queue for one device does to the sums, and each call is an
instance of one of them.
-/

/-- A well-formed queue: ids pairwise distinct, at most 256 messages, all of them addressed to
    the device and stored with their encoded size. -/
structure QueueWf (device : Id16) (queue : List StoredMessage) : Prop where
  distinct : (queue.map (·.message.messageId)).Nodup
  bounded : queue.length ≤ maxPerDevice
  owned : ∀ x ∈ queue, x.message.recipientDeviceId = device
  sized : ∀ x ∈ queue, x.accountedBytes = messageSize x.message

/-- The accounting invariant of a store. -/
structure Accounted (s : RelayStore) : Prop where
  queues : ∀ device queue, s.queues.lookup device = some queue → QueueWf device queue
  messages : s.totalMessages = total List.length s.queues
  bytes : s.totalBytes = total queueBytes s.queues
  maxMessages : s.totalMessages ≤ maxTotalMessages
  maxBytes : s.totalBytes ≤ maxTotalBytes

/-! ### Well-formed queues -/

theorem QueueWf.nil (device : Id16) : QueueWf device [] :=
  ⟨List.nodup_nil, Nat.zero_le _, by simp, by simp⟩

/-- Dropping messages keeps a queue well formed. -/
theorem QueueWf.filter {device : Id16} {queue : List StoredMessage} (h : QueueWf device queue)
    (p : StoredMessage → Bool) : QueueWf device (queue.filter p) where
  distinct := h.distinct.sublist (List.filter_sublist.map _)
  bounded := (List.length_filter_le p queue).trans h.bounded
  owned := fun x hx => h.owned x (List.mem_of_mem_filter hx)
  sized := fun x hx => h.sized x (List.mem_of_mem_filter hx)

/-- Appending a message under a fresh id to a queue that is not full. -/
theorem QueueWf.concat {device : Id16} {queue : List StoredMessage} (h : QueueWf device queue)
    {x : StoredMessage} (hfresh : x.message.messageId ∉ queue.map (·.message.messageId))
    (hroom : queue.length < maxPerDevice) (howned : x.message.recipientDeviceId = device)
    (hsized : x.accountedBytes = messageSize x.message) : QueueWf device (queue ++ [x]) where
  distinct := by
    rw [List.map_append, List.map_singleton, ← List.concat_eq_append]
    exact h.distinct.concat hfresh
  bounded := by rw [List.length_append, List.length_singleton]; omega
  owned := by
    intro y hy
    rcases List.mem_append.mp hy with hy | hy
    · exact h.owned y hy
    · rw [List.mem_singleton.mp hy]; exact howned
  sized := by
    intro y hy
    rcases List.mem_append.mp hy with hy | hy
    · exact h.sized y hy
    · rw [List.mem_singleton.mp hy]; exact hsized

/-! ### What a new queue for one device does to the counters -/

namespace Accounted

variable {s : RelayStore} {device : Id16} {queue : List StoredMessage}

theorem empty : Accounted RelayStore.empty where
  queues := by simp [RelayStore.empty]
  messages := rfl
  bytes := rfl
  maxMessages := Nat.zero_le _
  maxBytes := Nat.zero_le _

theorem queue_wf (h : Accounted s) (device : Id16) : QueueWf device (s.queue device) := by
  unfold RelayStore.queue
  cases hlook : s.queues.lookup device with
  | none => exact QueueWf.nil device
  | some queue => exact h.queues device queue hlook

/-- A device's queue is part of the sum over all queues. -/
theorem part_of_total {f : List StoredMessage → Nat} (hf : f [] = 0) (s : RelayStore)
    (device : Id16) : ((s.queues.lookup device).map f).getD 0 = f (s.queue device) := by
  unfold RelayStore.queue
  cases s.queues.lookup device <;> simp [hf]

/-- No device holds more than the counters say. -/
theorem queue_le (h : Accounted s) (device : Id16) :
    (s.queue device).length ≤ s.totalMessages ∧ queueBytes (s.queue device) ≤ s.totalBytes := by
  have hm := total_erase_add List.length s.queues device
  have hb := total_erase_add queueBytes s.queues device
  rw [part_of_total rfl] at hm hb
  rw [h.messages, h.bytes]
  omega

/-- Giving a device a new well-formed queue, with the counters changed accordingly. -/
theorem replace (h : Accounted s) (hwf : QueueWf device queue) {messages bytes : Nat}
    (hm : messages + (s.queue device).length = s.totalMessages + queue.length)
    (hb : bytes + queueBytes (s.queue device) = s.totalBytes + queueBytes queue)
    (hmax : messages ≤ maxTotalMessages) (hmaxb : bytes ≤ maxTotalBytes) :
    Accounted ⟨s.queues.insert device queue, messages, bytes⟩ where
  queues := by
    intro d q hlook
    rw [lookup_insert_eq] at hlook
    split at hlook
    · rename_i hd
      rw [hd, ← Option.some.inj hlook]; exact hwf
    · exact h.queues d q hlook
  messages := by
    have := total_insert_add List.length s.queues device queue
    rw [part_of_total rfl, ← h.messages] at this
    show messages = total List.length (s.queues.insert device queue)
    omega
  bytes := by
    have := total_insert_add queueBytes s.queues device queue
    rw [part_of_total rfl, ← h.bytes] at this
    show bytes = total queueBytes (s.queues.insert device queue)
    omega
  maxMessages := hmax
  maxBytes := hmaxb

/-- Forgetting a device's queue, with the counters reduced by what it held. -/
theorem remove (h : Accounted s) {messages bytes : Nat}
    (hm : messages + (s.queue device).length = s.totalMessages)
    (hb : bytes + queueBytes (s.queue device) = s.totalBytes) :
    Accounted ⟨s.queues.erase device, messages, bytes⟩ where
  queues := by
    intro d q hlook
    rw [lookup_erase_eq] at hlook
    split at hlook
    · exact absurd hlook (by simp)
    · exact h.queues d q hlook
  messages := by
    have := total_erase_add List.length s.queues device
    rw [part_of_total rfl, ← h.messages] at this
    show messages = total List.length (s.queues.erase device)
    omega
  bytes := by
    have := total_erase_add queueBytes s.queues device
    rw [part_of_total rfl, ← h.bytes] at this
    show bytes = total queueBytes (s.queues.erase device)
    omega
  maxMessages := by
    have := h.maxMessages
    show messages ≤ _
    omega
  maxBytes := by
    have := h.maxBytes
    show bytes ≤ _
    omega

end Accounted

/-! ### The three calls -/

/-- What `takeQueue` does to the counters: they still count what it returns. -/
theorem takeQueue_counters {s guard : RelayStore} {device : Id16} {now : UInt64}
    {queue : List StoredMessage} (h : Accounted s)
    (htake : s.takeQueue device now = some (queue, guard)) :
    guard.totalMessages + (s.queue device).length = s.totalMessages + queue.length ∧
    guard.totalBytes + queueBytes (s.queue device) = s.totalBytes + queueBytes queue := by
  unfold RelayStore.takeQueue at htake
  cases hlook : s.queues.lookup device with
  | none => rw [hlook] at htake; exact absurd htake (by simp)
  | some stored =>
    have hle : queueBytes (unexpired stored now) ≤ queueBytes stored := queueBytes_filter_le _ _
    obtain ⟨hlen, hsize⟩ := h.queue_le device
    rw [queue_of_lookup hlook] at hlen hsize ⊢
    -- below `usize::MAX` nothing saturates: the counters go down by what was removed
    have hmaxb : s.totalBytes ≤ usizeMax := h.maxBytes.trans (by decide)
    have hspec := removeExpired_spec stored now
    rw [hlook, Option.map_some] at htake
    rcases hrem : removeExpired stored now with ⟨kept, removedMessages, removedBytes⟩
    rw [hrem] at htake hspec
    obtain ⟨hkept, hcount, hbytes⟩ := hspec
    simp only [Option.some.injEq, Prod.mk.injEq] at htake hkept hcount hbytes
    obtain ⟨rfl, rfl⟩ := htake
    subst hkept
    exact ⟨by dsimp only; omega, by dsimp only; omega⟩

/-- Putting the unexpired part of a queue back keeps the invariant. -/
theorem Accounted.putQueue {s guard : RelayStore} {device : Id16} {now : UInt64}
    {queue : List StoredMessage} (h : Accounted s)
    (htake : s.takeQueue device now = some (queue, guard)) :
    Accounted (guard.putQueue device queue) := by
  obtain ⟨hqueue, herase⟩ := takeQueue_queue htake
  obtain ⟨hm, hb⟩ := takeQueue_counters h htake
  have hwf : QueueWf device queue := hqueue ▸ (h.queue_wf device).filter _
  have hlen : queue.length ≤ (s.queue device).length := hqueue ▸ List.length_filter_le _ _
  have hbytes : queueBytes queue ≤ queueBytes (s.queue device) :=
    hqueue ▸ queueBytes_filter_le _ _
  have hmax := h.maxMessages
  have hmaxb := h.maxBytes
  have := h.replace hwf hm hb (by omega) (by omega)
  -- the entry is taken out and set again, as one replacement
  rw [RelayStore.putQueue, herase, insert_erase_self]
  exact this

/-- The insertion at the end of `push` keeps the invariant: the caller has checked that the id
    is fresh and the queue not full. -/
theorem Accounted.storeMessage {s : RelayStore} (h : Accounted s) {message : EncryptedMessage}
    {now : UInt64}
    (hfresh : message.messageId ∉
      (s.queue message.recipientDeviceId).map (·.message.messageId))
    (hroom : (s.queue message.recipientDeviceId).length < maxPerDevice) :
    Accounted (s.storeMessage message now).2 := by
  unfold RelayStore.storeMessage
  split
  · exact h
  · rename_i hguard
    rw [not_or, not_le, not_lt] at hguard
    obtain ⟨hmsgs, hsize⟩ := hguard
    -- the total is far from saturating
    have hmax : s.totalBytes + messageSize message ≤ maxTotalBytes := by
      have : maxTotalBytes < usizeMax := by decide
      omega
    refine h.replace ((h.queue_wf _).concat hfresh hroom rfl rfl) ?_ ?_ hmsgs hmax
    · rw [List.length_append, List.length_singleton]
      show s.totalMessages + 1 + _ = _
      omega
    · rw [queueBytes_append, queueBytes_singleton]
      show s.totalBytes + messageSize message + _ = _ + (_ + messageSize message)
      omega

theorem push_accounted {s : RelayStore} (h : Accounted s) (message : EncryptedMessage)
    (now : UInt64) : Accounted (s.push message now).2 := by
  unfold RelayStore.push
  split
  · exact h
  split
  · exact h
  dsimp only
  cases htake : s.takeQueue message.recipientDeviceId now with
  | none =>
    have hnil := takeQueue_none htake
    exact h.storeMessage (by simp [hnil]) (by simp [hnil, maxPerDevice])
  | some r =>
    obtain ⟨queue, guard⟩ := r
    have hput := h.putQueue htake
    dsimp only
    split
    · -- a duplicate, then a full queue: only the expired messages are gone
      exact hput
    rename_i hdup
    split
    · exact hput
    rename_i hfull
    refine hput.storeMessage ?_ ?_
    · rw [queue_putQueue, if_pos rfl]
      simpa [List.any_eq_true] using hdup
    · rw [queue_putQueue, if_pos rfl]; omega

theorem pull_accounted {s : RelayStore} (h : Accounted s) (device : Id16) (now : UInt64) :
    Accounted (s.pull device now).2 := by
  unfold RelayStore.pull
  cases htake : s.takeQueue device now with
  | none => exact h
  | some r =>
    obtain ⟨queue, guard⟩ := r
    dsimp only
    split
    · -- nothing is left: the queue is not put back
      rename_i hempty
      obtain ⟨-, herase⟩ := takeQueue_queue htake
      obtain ⟨hm, hb⟩ := takeQueue_counters h htake
      have hnil : queue = [] := List.isEmpty_iff.mp hempty
      rw [hnil] at hm hb
      have := h.remove hm hb
      rw [← herase] at this
      exact this
    · exact h.putQueue htake

theorem ack_accounted {s : RelayStore} (h : Accounted s) (device messageId : Id16) :
    Accounted (s.ack device messageId).2 := by
  unfold RelayStore.ack
  cases hlook : s.queues.lookup device with
  | none => exact h
  | some queue =>
    obtain rfl := queue_of_lookup hlook
    have hwf := h.queue_wf device
    have hkwf : QueueWf device (unacked (s.queue device) messageId) := hwf.filter _
    obtain ⟨hlen, hsize⟩ := h.queue_le device
    -- what the two counters become, in both cases
    obtain ⟨messages, bytes, ⟨rfl, rfl⟩, hm, hb⟩ : ∃ messages bytes,
        ((if decide ((unacked (s.queue device) messageId).length ≠ (s.queue device).length) = true
            then s.totalMessages - 1 else s.totalMessages) = messages ∧
          (if decide ((unacked (s.queue device) messageId).length ≠ (s.queue device).length) = true
            then s.totalBytes - (removeAcked (s.queue device) messageId).2
            else s.totalBytes) = bytes) ∧
        messages + (s.queue device).length =
          s.totalMessages + (unacked (s.queue device) messageId).length ∧
        bytes + queueBytes (s.queue device) =
          s.totalBytes + queueBytes (unacked (s.queue device) messageId) := by
      refine ⟨_, _, ⟨rfl, rfl⟩, ?_⟩
      by_cases hrem : (unacked (s.queue device) messageId).length ≠ (s.queue device).length
      · obtain ⟨hone, hbytes⟩ := removeAcked_spec hwf.distinct hrem
        simp only [hrem, ne_eq, not_false_eq_true, decide_true, if_true]
        omega
      · have hsame : unacked (s.queue device) messageId = s.queue device :=
          List.filter_sublist.eq_of_length (not_not.mp hrem)
        simp [hsame]
    have hmax := h.maxMessages
    have hmaxb := h.maxBytes
    have hle : (unacked (s.queue device) messageId).length ≤ (s.queue device).length :=
      List.length_filter_le _ _
    have hbytes : queueBytes (unacked (s.queue device) messageId) ≤
        queueBytes (s.queue device) := queueBytes_filter_le _ _
    dsimp only
    rw [removeAcked_fst]
    split
    · -- nothing is left: the queue is not put back
      rename_i hempty
      have hnil := List.isEmpty_iff.mp hempty
      exact h.remove (by rw [hm, hnil]; rfl) (by rw [hb, hnil]; rfl)
    · rw [RelayStore.putQueue, insert_erase_self]
      exact h.replace hkwf hm hb (by dsimp only; omega) (by dsimp only; omega)

/-- **One call keeps the accounting invariant.** -/
theorem step_accounted {s : RelayStore} (h : Accounted s) (op : RelayOp) :
    Accounted (step s op).2 := by
  cases op with
  | push message now => exact push_accounted h message now
  | pull device now => exact pull_accounted h device now
  | ack device messageId => exact ack_accounted h device messageId

/-- Every store a run reaches is accounted for. -/
theorem reachable_store (ops : List RelayOp) : Accounted (after step RelayStore.empty ops) :=
  after_invariant (P := Accounted) (fun _ op hs => step_accounted hs op) Accounted.empty ops

/-! ### No saturation -/

/-- The subtractions from the two counters that expiry makes: minuend and subtrahend. -/
def expirySubtractions (s : RelayStore) (device : Id16) (now : UInt64) : List (Nat × Nat) :=
  match s.queues.lookup device with
  | none => []
  | some queue =>
    [(s.totalMessages, (removeExpired queue now).2.1),
     (s.totalBytes, (removeExpired queue now).2.2)]

/-- The saturating subtractions a call makes on the counters of the store. -/
def counterSubtractions (s : RelayStore) : RelayOp → List (Nat × Nat)
  | .push message now =>
    if validMessage message && timely message now then
      expirySubtractions s message.recipientDeviceId now
    else []
  | .pull device now => expirySubtractions s device now
  | .ack device messageId =>
    match s.queues.lookup device with
    | none => []
    | some queue =>
      if (removeAcked queue messageId).1.length ≠ queue.length then
        [(s.totalMessages, 1), (s.totalBytes, (removeAcked queue messageId).2)]
      else []

/-- The one saturating subtraction that is on no counter: `push` takes the age of a message from
    its clock reading, once the message is known to be at most the skew ahead of it. -/
def ageSubtractions : RelayOp → List (Nat × Nat)
  | .push message now =>
    if validMessage message && !(satAdd now maxClockSkewMs < message.sentAtMs) then
      [(now.toNat, message.sentAtMs.toNat)]
    else []
  | _ => []

theorem expirySubtractions_le {s : RelayStore} (h : Accounted s) (device : Id16) (now : UInt64) :
    ∀ p ∈ expirySubtractions s device now, p.2 ≤ p.1 := by
  unfold expirySubtractions
  cases hlook : s.queues.lookup device with
  | none => simp
  | some queue =>
    obtain ⟨-, hcount, hbytes⟩ := removeExpired_spec queue now
    obtain ⟨hlen, hsize⟩ := h.queue_le device
    rw [queue_of_lookup hlook] at hlen hsize
    simp only [List.mem_cons, List.not_mem_nil, or_false, forall_eq_or_imp, forall_eq]
    omega

/-- With the invariant, no subtraction from a counter saturates. -/
theorem counterSubtractions_le {s : RelayStore} (h : Accounted s) (op : RelayOp) :
    ∀ p ∈ counterSubtractions s op, p.2 ≤ p.1 := by
  cases op with
  | push message now =>
    simp only [counterSubtractions]
    split
    · exact expirySubtractions_le h _ _
    · simp
  | pull device now => exact expirySubtractions_le h device now
  | ack device messageId =>
    simp only [counterSubtractions]
    cases hlook : s.queues.lookup device with
    | none => simp
    | some queue =>
      obtain ⟨hlen, hsize⟩ := h.queue_le device
      rw [queue_of_lookup hlook] at hlen hsize
      dsimp only
      rw [removeAcked_fst]
      split
      · rename_i hrem
        obtain ⟨hone, hbytes⟩ := removeAcked_spec (h.queues _ _ hlook).distinct hrem
        simp only [List.mem_cons, List.not_mem_nil, or_false, forall_eq_or_imp, forall_eq]
        omega
      · simp

/-- **Accounting and uniqueness in every reachable store**, with no assumption on the clocks;
    and so no subtraction a next call makes on the counters saturates. -/
theorem reachable_accounted (ops : List RelayOp) :
    Accounted (after step RelayStore.empty ops) ∧
    ∀ op, ∀ p ∈ counterSubtractions (after step RelayStore.empty ops) op, p.2 ≤ p.1 := by
  exact ⟨reachable_store ops, counterSubtractions_le (reachable_store ops)⟩

/-- The age does saturate: a message dated ahead of the clock, within the skew, is accepted with
    age zero. -/
theorem age_of_message_ahead_saturates :
    (step RelayStore.empty (.push (letter 1 2 1) 0)).1 = .pushed .accepted ∧
    ∃ p ∈ ageSubtractions (.push (letter 1 2 1) 0) ++
      counterSubtractions RelayStore.empty (.push (letter 1 2 1) 0), p.1 < p.2 :=
  ⟨by rfl, (0, 1), by decide, by decide⟩

end NexaMessenger.Relay
