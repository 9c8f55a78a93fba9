import NexaMessenger.Relay.Accounting

namespace NexaMessenger.Relay

open Lib

/-!
# Relay — what a call does to the queues

`push` and `pull` first visit one queue, that is, drop what has expired in it, and then answer from
what the store holds (`push_eq`, `pull_visits`).  `mem_queue_step_iff` says all that a call does to
the queues: a message leaves when it is acknowledged or found expired by a visit, and only the
message of an accepted push comes in.
-/

/-- The store that `push` and `pull` leave before they answer: the device's queue without its
    expired messages, everything else as it was. -/
def RelayStore.visit (s : RelayStore) (device : Id16) (now : UInt64) : RelayStore :=
  match s.takeQueue device now with
  | none => s
  | some (queue, guard) => guard.putQueue device queue

theorem visit_queue (s : RelayStore) (device : Id16) (now : UInt64) (d : Id16) :
    (s.visit device now).queue d = if d = device then unexpired (s.queue d) now else s.queue d := by
  unfold RelayStore.visit
  cases htake : s.takeQueue device now with
  | none =>
    dsimp only
    split
    · -- no queue at all is a queue of which nothing has expired
      rename_i hd
      rw [hd, takeQueue_none htake]
      rfl
    · rfl
  | some r => exact queue_take_put htake d

theorem Accounted.visit {s : RelayStore} (h : Accounted s) (device : Id16) (now : UInt64) :
    Accounted (s.visit device now) := by
  unfold RelayStore.visit
  cases htake : s.takeQueue device now with
  | none => exact h
  | some r => exact h.putQueue htake

/-- Some message of a queue stands under the id. -/
def UnderId (queue : List StoredMessage) (messageId : Id16) : Prop :=
  ∃ x ∈ queue, x.message.messageId = messageId

instance (queue : List StoredMessage) (messageId : Id16) : Decidable (UnderId queue messageId) :=
  inferInstanceAs (Decidable (∃ x ∈ queue, x.message.messageId = messageId))

/-- **`push`, as a visit and an answer.** -/
theorem push_eq (s : RelayStore) (message : EncryptedMessage) (now : UInt64) :
    s.push message now =
      if !validMessage message then (.invalid, s)
      else if !timely message now then (.invalid, s)
      else
        let left := s.visit message.recipientDeviceId now
        if UnderId (left.queue message.recipientDeviceId) message.messageId then (.duplicate, left)
        else if maxPerDevice ≤ (left.queue message.recipientDeviceId).length then (.full, left)
        else left.storeMessage message now := by
  unfold RelayStore.push
  split
  · rfl
  split
  · rfl
  unfold RelayStore.visit
  dsimp only
  cases htake : s.takeQueue message.recipientDeviceId now with
  | none =>
    have hnil := takeQueue_none htake
    dsimp only
    rw [hnil, if_neg (by simp [UnderId]), if_neg (by decide)]
  | some r =>
    obtain ⟨queue, guard⟩ := r
    dsimp only
    rw [queue_putQueue, if_pos rfl]
    have hiff : (queue.any fun stored => stored.message.messageId = message.messageId) = true ↔
        UnderId queue message.messageId := by
      simp [UnderId]
    by_cases hdup : UnderId queue message.messageId
    · rw [if_pos (hiff.mpr hdup), if_pos hdup]
    · rw [if_neg (fun h => hdup (hiff.mp h)), if_neg hdup]

/-- **What a push does.**  Refused as invalid it changes nothing; else it visits its recipient's
    queue, and appends the message there if it answers `Accepted`. -/
theorem push_cases (s : RelayStore) (message : EncryptedMessage) (now : UInt64) :
    s.push message now = (.invalid, s) ∨
    (s.push message now).1 ≠ .invalid ∧ ∀ d, (s.push message now).2.queue d =
      (s.visit message.recipientDeviceId now).queue d ++
        if (s.push message now).1 = .accepted ∧ d = message.recipientDeviceId
        then [stored message now] else [] := by
  rw [push_eq]
  split
  · exact Or.inl rfl
  split
  · exact Or.inl rfl
  right
  dsimp only
  split
  · exact ⟨by simp, fun d => by simp⟩
  split
  · exact ⟨by simp, fun d => by simp⟩
  · rcases hr : (s.visit message.recipientDeviceId now).storeMessage message now with ⟨result, s'⟩
    refine ⟨?_, fun d => (storeMessage_queue hr d).2⟩
    rcases (storeMessage_queue hr message.recipientDeviceId).1 with rfl | rfl <;> simp

theorem push_invalid {s : RelayStore} {message : EncryptedMessage} {now : UInt64}
    (h : (s.push message now).1 = .invalid) : (s.push message now).2 = s := by
  rcases push_cases s message now with hpush | ⟨hvalid, -⟩
  · rw [hpush]
  · exact absurd h hvalid

/-- A pull answers with the unexpired messages of the device. -/
theorem pull_answer (s : RelayStore) (device : Id16) (now : UInt64) :
    (s.pull device now).1 = (unexpired (s.queue device) now).map (·.message) := by
  unfold RelayStore.pull
  cases htake : s.takeQueue device now with
  | none => rw [takeQueue_none htake]; rfl
  | some r =>
    obtain ⟨queue, guard⟩ := r
    rw [(takeQueue_queue htake).1]

/-- It visits the queue of the device. -/
theorem pull_visits (s : RelayStore) (device : Id16) (now : UInt64) (d : Id16) :
    (s.pull device now).2.queue d = (s.visit device now).queue d := by
  unfold RelayStore.pull RelayStore.visit
  cases htake : s.takeQueue device now with
  | none => rfl
  | some r =>
    obtain ⟨queue, guard⟩ := r
    dsimp only
    split
    · -- an empty queue is left out of the map
      rename_i hempty
      obtain ⟨-, herase⟩ := takeQueue_queue htake
      rw [queue_of_queues_erase herase, queue_putQueue, queue_of_queues_erase herase,
        List.isEmpty_iff.mp hempty]
      split <;> rfl
    · rfl

/-- Dropping what has expired by `t` changes nothing that is seen later. -/
theorem unexpired_unexpired (queue : List StoredMessage) {t now : UInt64} (h : t ≤ now) :
    unexpired (unexpired queue t) now = unexpired queue now := by
  rw [unexpired, unexpired, List.filter_filter, unexpired]
  refine List.filter_congr fun x _ => ?_
  by_cases hx : now < x.expiresAtMs
  · have : t < x.expiresAtMs := by rw [word_lt_iff, word_le_iff] at *; omega
    simp [hx, this]
  · simp [hx]

theorem unexpired_visit (s : RelayStore) (device d : Id16) {t now : UInt64} (h : t ≤ now) :
    unexpired ((s.visit device t).queue d) now = unexpired (s.queue d) now := by
  rw [visit_queue]
  split
  · exact unexpired_unexpired _ h
  · rfl

/-- A call visits a device's queue at a clock reading: a pull by the device, or a valid and timely
    push to it. -/
def Visits (device : Id16) (t : UInt64) : RelayOp × RelayAnswer → Prop
  | (.push message now, answer) =>
    message.recipientDeviceId = device ∧ now = t ∧ answer ≠ .pushed .invalid
  | (.pull d now, _) => d = device ∧ now = t
  | (.ack _ _, _) => False

theorem mem_visit_iff {s : RelayStore} {device d : Id16} {now : UInt64} {x : StoredMessage} :
    x ∈ (s.visit device now).queue d ↔ x ∈ s.queue d ∧ (d = device → now < x.expiresAtMs) := by
  rw [visit_queue]
  split
  · rename_i hd
    rw [unexpired, List.mem_filter, decide_eq_true_iff]
    exact and_congr_right fun _ => ⟨fun hlive _ => hlive, fun hlive => hlive hd⟩
  · rename_i hd
    exact ⟨fun hmem => ⟨hmem, fun h => absurd h hd⟩, And.left⟩

/-- **What a call does to the queues.**  A queue holds afterwards what it held before, if the call
    does not acknowledge it and does not visit the queue at its expiry or later, and the message
    that the call accepted. -/
theorem mem_queue_step_iff {s : RelayStore} {op : RelayOp} {d : Id16} {x : StoredMessage} :
    x ∈ (step s op).2.queue d ↔
      (x ∈ s.queue d ∧ op ≠ .ack d x.message.messageId ∧
        ∀ t, Visits d t (op, (step s op).1) → t < x.expiresAtMs) ∨
      ∃ message now, op = .push message now ∧ (step s op).1 = .pushed .accepted ∧
        x = stored message now ∧ message.recipientDeviceId = d := by
  cases op with
  | push message now =>
    rw [step_push]
    dsimp only
    rcases push_cases s message now with hpush | ⟨hvalid, hafter⟩
    · rw [hpush]
      simp [Visits]
    · rw [hafter, List.mem_append, mem_visit_iff]
      refine or_congr ?_ ?_
      · refine and_congr_right fun _ => ?_
        constructor
        · intro hlive
          refine ⟨by simp, ?_⟩
          rintro t ⟨rfl, rfl, -⟩
          exact hlive rfl
        · rintro ⟨-, hlive⟩ rfl
          exact hlive now ⟨rfl, rfl, fun h => hvalid (RelayAnswer.pushed.inj h)⟩
      · split
        · rename_i hacc
          rw [List.mem_singleton]
          constructor
          · rintro rfl
            exact ⟨message, now, rfl, congrArg _ hacc.1, rfl, hacc.2.symm⟩
          · rintro ⟨m, t, hop, -, rfl, -⟩
            obtain ⟨rfl, rfl⟩ := RelayOp.push.inj hop
            rfl
        · rename_i hacc
          refine iff_of_false (by simp) ?_
          rintro ⟨m, t, hop, hanswer, -, hd⟩
          obtain ⟨rfl, rfl⟩ := RelayOp.push.inj hop
          exact hacc ⟨RelayAnswer.pushed.inj hanswer, hd.symm⟩
  | pull device now =>
    rw [step_pull]
    dsimp only
    rw [pull_visits, mem_visit_iff]
    constructor
    · rintro ⟨hmem, hlive⟩
      refine Or.inl ⟨hmem, by simp, ?_⟩
      rintro t ⟨rfl, rfl⟩
      exact hlive rfl
    · rintro (⟨hmem, -, hlive⟩ | ⟨m, t, hop, -⟩)
      · exact ⟨hmem, fun hd => hlive now ⟨hd.symm, rfl⟩⟩
      · exact absurd hop (by simp)
  | ack device messageId =>
    rw [step_ack, ack_queue]
    constructor
    · intro hmem
      refine Or.inl ⟨?_, ?_, fun t ht => ht.elim⟩
      · split at hmem
        · exact (List.mem_filter.mp hmem).1
        · exact hmem
      · intro hack
        obtain ⟨rfl, rfl⟩ := RelayOp.ack.inj hack
        rw [if_pos rfl] at hmem
        exact absurd rfl (of_decide_eq_true (List.mem_filter.mp hmem).2)
    · rintro (⟨hmem, hack, -⟩ | ⟨m, t, hop, -⟩)
      · split
        · rename_i hd
          refine List.mem_filter.mpr ⟨hmem, decide_eq_true fun hid => ?_⟩
          exact hack (by rw [hd, hid])
        · exact hmem
      · exact absurd hop (by simp)

end NexaMessenger.Relay
