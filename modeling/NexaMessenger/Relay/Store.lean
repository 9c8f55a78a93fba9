import NexaMessenger.Lib.Machine
import NexaMessenger.Lib.Word
import NexaMessenger.Lib.HashMap
import NexaMessenger.Protocol

namespace NexaMessenger.Relay

open Lib

/-!
# Relay — the store of queued messages

The gateway's `RelayStore`: one queue of encrypted messages per recipient, with counters for
the number and the accounted size of everything stored.  Expiry is lazy: `push` and `pull`
drop the expired messages of the one queue they touch, `ack` drops none.

The mutex makes each call atomic, so a store under any clients is a machine (`step`) that
answers one call after the other.  A call reads the clock itself; its reading is part of the
input here.
-/

/-- `MAX_PER_DEVICE`. -/
def maxPerDevice : Nat := 256

/-- `MAX_TOTAL_MESSAGES`. -/
def maxTotalMessages : Nat := 65536

/-- `MAX_TOTAL_BYTES`. -/
def maxTotalBytes : Nat := 512 * 1024 * 1024

/-- `MAX_CIPHERTEXT`. -/
def maxCiphertext : Nat := 4 * 1024 * 1024

/-- `MAX_RATCHET_HEADER`. -/
def maxRatchetHeader : Nat := 16 * 1024

/-- `OFFLINE_TTL_MS`: seven days. -/
def offlineTtlMs : UInt64 := 7 * 24 * 60 * 60 * 1000

/-- `MAX_CLOCK_SKEW_MS`: five minutes. -/
def maxClockSkewMs : UInt64 := 5 * 60 * 1000

inductive PushResult
  | accepted | duplicate | invalid | full
deriving DecidableEq, Repr

structure StoredMessage where
  message : EncryptedMessage
  expiresAtMs : UInt64
  accountedBytes : Nat
deriving DecidableEq, Repr

/-- `RelayInner`, the state behind the lock of a `RelayStore`. -/
structure RelayStore where
  queues : HashMap Id16 (List StoredMessage)
  totalMessages : Nat
  totalBytes : Nat

/-- `RelayStore::default()`. -/
def RelayStore.empty : RelayStore := ⟨∅, 0, 0⟩

/-! ### The helper functions -/

/-- `message_size`. -/
def messageSize (message : EncryptedMessage) : Nat :=
  match message.encode with
  | .ok encoded => encoded.length
  | .error _ => usizeMax

/-- `valid_message`. -/
def validMessage (m : EncryptedMessage) : Bool :=
  m.version = ⟨protocolVersion⟩ && m.messageId ≠ zeros 16 && m.conversationId ≠ zeros 16 &&
    m.senderDeviceId ≠ zeros 16 && m.recipientDeviceId ≠ zeros 16 &&
    !m.ratchetHeader.isEmpty && m.ratchetHeader.length ≤ maxRatchetHeader &&
    !m.ciphertext.isEmpty && m.ciphertext.length ≤ maxCiphertext

/-- The time check of `push`: not from further ahead than the skew, not older than the TTL. -/
def timely (message : EncryptedMessage) (now : UInt64) : Bool :=
  !(satAdd now maxClockSkewMs < message.sentAtMs || offlineTtlMs < satSub now message.sentAtMs)

/-- `remove_expired`: the retained queue, the number of removed messages and their accounted
    size. -/
def removeExpired (queue : List StoredMessage) (now : UInt64) : List StoredMessage × Nat × Nat :=
  queue.foldl (fun (kept, removedMessages, removedBytes) stored =>
    if stored.expiresAtMs ≤ now then
      (kept, removedMessages + 1, min (removedBytes + stored.accountedBytes) usizeMax)
    else (kept ++ [stored], removedMessages, removedBytes)) ([], 0, 0)

/-- The `retain` of `ack`: the retained queue and the accounted size of the message removed. -/
def removeAcked (queue : List StoredMessage) (messageId : Id16) : List StoredMessage × Nat :=
  queue.foldl (fun (kept, removedBytes) stored =>
    if stored.message.messageId = messageId then (kept, stored.accountedBytes)
    else (kept ++ [stored], removedBytes)) ([], 0)

namespace RelayStore

/-- The lines `push` and `pull` share: take a device's queue out of the map, drop what has
    expired and take it off the counters. -/
def takeQueue (s : RelayStore) (device : Id16) (now : UInt64) :
    Option (List StoredMessage × RelayStore) :=
  (s.queues.lookup device).map fun queue =>
    let (kept, removedMessages, removedBytes) := removeExpired queue now
    (kept, { queues := s.queues.erase device
             totalMessages := s.totalMessages - removedMessages
             totalBytes := s.totalBytes - removedBytes })

/-- `guard.queues.insert(device, queue)`. -/
def putQueue (s : RelayStore) (device : Id16) (queue : List StoredMessage) : RelayStore :=
  { s with queues := s.queues.insert device queue }

/-- The end of `push`, after the checks on the recipient's own queue: the limits of the whole
    store, and the insertion. -/
def storeMessage (s : RelayStore) (message : EncryptedMessage) (now : UInt64) :
    PushResult × RelayStore :=
  if maxTotalMessages ≤ s.totalMessages ∨
      maxTotalBytes < min (s.totalBytes + messageSize message) usizeMax then (.full, s)
  else
    let device := message.recipientDeviceId
    let stored : StoredMessage := ⟨message, satAdd now offlineTtlMs, messageSize message⟩
    (.accepted, { queues := s.queues.insert device ((s.queues.lookup device).getD [] ++ [stored])
                  totalMessages := s.totalMessages + 1
                  totalBytes := s.totalBytes + messageSize message })

/-- `RelayStore::push`. -/
def push (s : RelayStore) (message : EncryptedMessage) (now : UInt64) : PushResult × RelayStore :=
  if !validMessage message then (.invalid, s)
  else if !timely message now then (.invalid, s)
  else
    let device := message.recipientDeviceId
    match s.takeQueue device now with
    | some (queue, guard) =>
      if queue.any fun stored => stored.message.messageId = message.messageId then
        (.duplicate, guard.putQueue device queue)
      else if maxPerDevice ≤ queue.length then (.full, guard.putQueue device queue)
      else (guard.putQueue device queue).storeMessage message now
    | none => s.storeMessage message now

/-- `RelayStore::pull`. -/
def pull (s : RelayStore) (device : Id16) (now : UInt64) : List EncryptedMessage × RelayStore :=
  match s.takeQueue device now with
  | none => ([], s)
  | some (queue, guard) =>
    (queue.map (·.message), if queue.isEmpty then guard else guard.putQueue device queue)

/-- `RelayStore::ack`. -/
def ack (s : RelayStore) (device messageId : Id16) : Bool × RelayStore :=
  match s.queues.lookup device with
  | none => (false, s)
  | some queue =>
    let (kept, removedBytes) := removeAcked queue messageId
    let removed : Bool := kept.length ≠ queue.length
    let guard : RelayStore :=
      { queues := s.queues.erase device
        totalMessages := if removed then s.totalMessages - 1 else s.totalMessages
        totalBytes := if removed then s.totalBytes - removedBytes else s.totalBytes }
    (removed, if kept.isEmpty then guard else guard.putQueue device kept)

end RelayStore

/-! ### The store as a machine -/

/-- A call on the store, with the clock reading it makes. -/
inductive RelayOp
  | push (message : EncryptedMessage) (now : UInt64)
  | pull (device : Id16) (now : UInt64)
  | ack (device messageId : Id16)
deriving DecidableEq, Repr

inductive RelayAnswer
  | pushed (result : PushResult)
  | pulled (messages : List EncryptedMessage)
  | acked (removed : Bool)
deriving DecidableEq, Repr

/-- The clock reading of a call; `ack` makes none. -/
def RelayOp.clock : RelayOp → Option UInt64
  | .push _ now => some now
  | .pull _ now => some now
  | .ack _ _ => none

def step (s : RelayStore) : RelayOp → RelayAnswer × RelayStore
  | .push message now => let (r, s') := s.push message now; (.pushed r, s')
  | .pull device now => let (ms, s') := s.pull device now; (.pulled ms, s')
  | .ack device messageId => let (b, s') := s.ack device messageId; (.acked b, s')

@[simp] theorem step_push (s : RelayStore) (message : EncryptedMessage) (now : UInt64) :
    step s (.push message now) = (.pushed (s.push message now).1, (s.push message now).2) := by
  unfold step
  rfl

@[simp] theorem step_pull (s : RelayStore) (device : Id16) (now : UInt64) :
    step s (.pull device now) = (.pulled (s.pull device now).1, (s.pull device now).2) := by
  unfold step
  rfl

@[simp] theorem step_ack (s : RelayStore) (device messageId : Id16) :
    step s (.ack device messageId) =
      (.acked (s.ack device messageId).1, (s.ack device messageId).2) := by
  unfold step
  rfl

/-- The queue of a device; no entry in the map means an empty queue. -/
def RelayStore.queue (s : RelayStore) (device : Id16) : List StoredMessage :=
  (s.queues.lookup device).getD []

/-! ### What the two `retain` loops do -/

/-- The messages of a queue that have not expired at `now`. -/
def unexpired (queue : List StoredMessage) (now : UInt64) : List StoredMessage :=
  queue.filter fun stored => now < stored.expiresAtMs

/-- The accounted size of a queue. -/
def queueBytes (queue : List StoredMessage) : Nat := (queue.map (·.accountedBytes)).sum

@[simp] theorem queueBytes_nil : queueBytes [] = 0 := rfl

@[simp] theorem queueBytes_append (q r : List StoredMessage) :
    queueBytes (q ++ r) = queueBytes q + queueBytes r := by
  simp [queueBytes]

@[simp] theorem queueBytes_singleton (x : StoredMessage) : queueBytes [x] = x.accountedBytes := by
  simp [queueBytes]

/-- Dropping messages makes a queue no larger. -/
theorem queueBytes_filter_le (queue : List StoredMessage) (p : StoredMessage → Bool) :
    queueBytes (queue.filter p) ≤ queueBytes queue := by
  induction queue with
  | nil => simp
  | cons x queue ih =>
    rw [List.filter_cons]
    split <;> simp only [queueBytes, List.map_cons, List.sum_cons] at ih ⊢ <;> omega

/-- Removing expired messages splits the queue: what stays is the unexpired part, and the two
    counts are those of the rest. -/
theorem removeExpired_spec (queue : List StoredMessage) (now : UInt64) :
    (removeExpired queue now).1 = unexpired queue now ∧
    (removeExpired queue now).2.1 + (unexpired queue now).length = queue.length ∧
    (removeExpired queue now).2.2 =
      min (queueBytes queue - queueBytes (unexpired queue now)) usizeMax := by
  induction queue using List.reverseRecOn with
  | nil => simp [removeExpired, unexpired]
  | append_singleton queue x ih =>
    obtain ⟨hkept, hcount, hbytes⟩ := ih
    have hle : queueBytes (unexpired queue now) ≤ queueBytes queue := queueBytes_filter_le _ _
    -- the scan meets `x` last
    have hfold : removeExpired (queue ++ [x]) now =
        if x.expiresAtMs ≤ now then
          ((removeExpired queue now).1, (removeExpired queue now).2.1 + 1,
            min ((removeExpired queue now).2.2 + x.accountedBytes) usizeMax)
        else ((removeExpired queue now).1 ++ [x], (removeExpired queue now).2.1,
            (removeExpired queue now).2.2) := by
      simp [removeExpired]
    -- `saturating_add` is a minimum, so its order does not matter
    by_cases hx : x.expiresAtMs ≤ now
    · have hun : unexpired (queue ++ [x]) now = unexpired queue now := by
        simp [unexpired, List.filter_append, UInt64.not_lt.mpr hx]
      rw [hfold, if_pos hx, hun, queueBytes_append, queueBytes_singleton, List.length_append,
        List.length_singleton]
      refine ⟨hkept, by dsimp only; omega, ?_⟩
      dsimp only
      rw [hbytes]; omega
    · have hun : unexpired (queue ++ [x]) now = unexpired queue now ++ [x] := by
        simp [unexpired, List.filter_append, UInt64.not_le.mp hx]
      rw [hfold, if_neg hx, hun, queueBytes_append, queueBytes_append, queueBytes_singleton,
        List.length_append, List.length_append, List.length_singleton]
      refine ⟨by rw [hkept], by dsimp only; omega, ?_⟩
      dsimp only
      rw [hbytes]; omega

/-- The messages of a queue under other ids. -/
def unacked (queue : List StoredMessage) (messageId : Id16) : List StoredMessage :=
  queue.filter fun stored => stored.message.messageId ≠ messageId

theorem removeAcked_fst (queue : List StoredMessage) (messageId : Id16) :
    (removeAcked queue messageId).1 = unacked queue messageId := by
  induction queue using List.reverseRecOn with
  | nil => rfl
  | append_singleton queue x ih =>
    simp only [removeAcked, List.foldl_append, List.foldl_cons, List.foldl_nil] at ih ⊢
    split <;> rename_i h <;> simp [unacked, List.filter_append, h, ih]

/-- With ids pairwise distinct, the one message removed is the one whose size is reported. -/
theorem removeAcked_spec {queue : List StoredMessage} {messageId : Id16}
    (hd : (queue.map (·.message.messageId)).Nodup)
    (hrem : (unacked queue messageId).length ≠ queue.length) :
    (unacked queue messageId).length + 1 = queue.length ∧
    queueBytes (unacked queue messageId) + (removeAcked queue messageId).2 = queueBytes queue := by
  induction queue using List.reverseRecOn with
  | nil => simp [unacked] at hrem
  | append_singleton queue x ih =>
    rw [List.map_append, List.nodup_append] at hd
    obtain ⟨hdq, -, hdx⟩ := hd
    by_cases hx : x.message.messageId = messageId
    · -- `x` is the acknowledged message: no earlier one has its id
      have hall : unacked queue messageId = queue := by
        refine List.filter_eq_self.mpr fun y hy => ?_
        have := hdx _ (List.mem_map_of_mem hy) x.message.messageId (by simp)
        simpa [hx] using this
      have hun : unacked (queue ++ [x]) messageId = queue := by
        rw [unacked, List.filter_append]
        simpa [hx, unacked] using hall
      have hbytes : (removeAcked (queue ++ [x]) messageId).2 = x.accountedBytes := by
        simp [removeAcked, hx]
      rw [hun, hbytes]
      simp
    · have hun : unacked (queue ++ [x]) messageId = unacked queue messageId ++ [x] := by
        simp [unacked, List.filter_append, hx]
      have hbytes : (removeAcked (queue ++ [x]) messageId).2 = (removeAcked queue messageId).2 := by
        simp [removeAcked, hx]
      rw [hun] at hrem ⊢
      simp only [List.length_append, List.length_singleton, queueBytes_append,
        queueBytes_singleton, hbytes] at hrem ⊢
      have := ih hdq (by omega)
      omega

/-! ### The queues after a call

What each call does to the queue of every device, without the counters. -/

@[simp] theorem queue_empty (device : Id16) : RelayStore.empty.queue device = [] := rfl

theorem queue_of_lookup {s : RelayStore} {device : Id16} {queue : List StoredMessage}
    (h : s.queues.lookup device = some queue) : s.queue device = queue := by
  rw [RelayStore.queue, h]; rfl

theorem queue_of_insert (queues : HashMap Id16 (List StoredMessage)) (m b : Nat)
    (device d : Id16) (queue : List StoredMessage) :
    RelayStore.queue ⟨queues.insert device queue, m, b⟩ d =
      if d = device then queue else RelayStore.queue ⟨queues, m, b⟩ d := by
  simp only [RelayStore.queue, lookup_insert_eq]
  split <;> rfl

theorem queue_of_erase (queues : HashMap Id16 (List StoredMessage)) (m b : Nat)
    (device d : Id16) :
    RelayStore.queue ⟨queues.erase device, m, b⟩ d =
      if d = device then [] else RelayStore.queue ⟨queues, m, b⟩ d := by
  simp only [RelayStore.queue, lookup_erase_eq]
  split <;> rfl

/-- Only the map of queues matters for the queue of a device. -/
theorem queue_of_queues_erase {s guard : RelayStore} {device : Id16}
    (h : guard.queues = s.queues.erase device) (d : Id16) :
    guard.queue d = if d = device then [] else s.queue d := by
  rw [← queue_of_erase s.queues s.totalMessages s.totalBytes device d, RelayStore.queue, h]
  rfl

theorem queue_putQueue (s : RelayStore) (device d : Id16) (queue : List StoredMessage) :
    (s.putQueue device queue).queue d = if d = device then queue else s.queue d :=
  queue_of_insert s.queues _ _ device d queue

/-- `takeQueue` returns the unexpired part of the queue, and the store without the queue. -/
theorem takeQueue_queue {s guard : RelayStore} {device : Id16} {now : UInt64}
    {queue : List StoredMessage} (htake : s.takeQueue device now = some (queue, guard)) :
    queue = unexpired (s.queue device) now ∧ guard.queues = s.queues.erase device := by
  unfold RelayStore.takeQueue at htake
  cases hlook : s.queues.lookup device with
  | none => rw [hlook] at htake; exact absurd htake (by simp)
  | some stored =>
    have hspec := (removeExpired_spec stored now).1
    rw [hlook, Option.map_some] at htake
    rcases hrem : removeExpired stored now with ⟨kept, removedMessages, removedBytes⟩
    rw [hrem] at htake hspec
    simp only [Option.some.injEq, Prod.mk.injEq] at htake hspec
    obtain ⟨rfl, rfl⟩ := htake
    exact ⟨by rw [hspec, queue_of_lookup hlook], rfl⟩

theorem takeQueue_none {s : RelayStore} {device : Id16} {now : UInt64}
    (htake : s.takeQueue device now = none) : s.queue device = [] := by
  have hnone : s.queues.lookup device = none := by simpa [RelayStore.takeQueue] using htake
  rw [RelayStore.queue, hnone]; rfl

/-- Taking a queue and putting its unexpired part back. -/
theorem queue_take_put {s guard : RelayStore} {device : Id16} {now : UInt64}
    {queue : List StoredMessage} (htake : s.takeQueue device now = some (queue, guard))
    (d : Id16) :
    (guard.putQueue device queue).queue d =
      if d = device then unexpired (s.queue d) now else s.queue d := by
  obtain ⟨hqueue, herase⟩ := takeQueue_queue htake
  rw [queue_putQueue]
  split
  · rename_i hd; rw [hqueue, hd]
  · rename_i hd
    rw [queue_of_queues_erase herase, if_neg hd]

/-- The message a successful `push` at `now` stores. -/
def stored (message : EncryptedMessage) (now : UInt64) : StoredMessage :=
  ⟨message, satAdd now offlineTtlMs, messageSize message⟩

/-- The insertion at the end of `push`: refused with `Full`, or appended to its queue. -/
theorem storeMessage_queue {s s' : RelayStore} {message : EncryptedMessage} {now : UInt64}
    {result : PushResult} (h : s.storeMessage message now = (result, s')) (d : Id16) :
    (result = .accepted ∨ result = .full) ∧
    s'.queue d = s.queue d ++
      if result = .accepted ∧ d = message.recipientDeviceId then [stored message now] else [] := by
  unfold RelayStore.storeMessage at h
  split at h
  · obtain ⟨rfl, rfl⟩ := Prod.mk.inj h
    simp
  · obtain ⟨rfl, rfl⟩ := Prod.mk.inj h
    refine ⟨Or.inl rfl, ?_⟩
    rw [queue_of_insert]
    simp only [true_and]
    split
    · rename_i hd; rw [hd]; rfl
    · rw [List.append_nil]; rfl

/-- **`ack` on the queues.**  Only messages under the given id leave, and only from the queue of
    the given device. -/
theorem ack_queue (s : RelayStore) (device messageId d : Id16) :
    (s.ack device messageId).2.queue d =
      if d = device then unacked (s.queue d) messageId else s.queue d := by
  unfold RelayStore.ack
  cases hlook : s.queues.lookup device with
  | none =>
    dsimp only
    split
    · rename_i hd
      have : s.queue d = [] := by rw [hd, RelayStore.queue, hlook]; rfl
      rw [this]; rfl
    · rfl
  | some queue =>
    dsimp only
    rw [removeAcked_fst]
    split
    · rename_i hempty
      rw [queue_of_erase]
      split
      · rename_i hd
        rw [hd, queue_of_lookup hlook, List.isEmpty_iff.mp hempty]
      · rfl
    · rw [queue_putQueue, queue_of_erase]
      split
      · rename_i hd
        rw [hd, queue_of_lookup hlook]
      · rfl

/-! ### Sample messages -/

/-- The 16-byte id with a number as its value. -/
def idOf (n : Nat) : Id16 := arrayOf 16 (toBe 16 n)

/-- A small message. -/
def letter (messageId recipient : Nat) (sentAt : UInt64) : EncryptedMessage :=
  .new (idOf messageId) (idOf 1) (idOf 1) (idOf recipient) [0] [0] sentAt

@[simp] theorem letter_sentAtMs (messageId recipient : Nat) (sentAt : UInt64) :
    (letter messageId recipient sentAt).sentAtMs = sentAt := rfl

@[simp] theorem letter_recipientDeviceId (messageId recipient : Nat) (sentAt : UInt64) :
    (letter messageId recipient sentAt).recipientDeviceId = idOf recipient := rfl

theorem idOf_injective {m n : Nat} (hm : m < 256 ^ 16) (hn : n < 256 ^ 16)
    (h : idOf m = idOf n) : m = n := by
  refine toBe_injective hm hn ?_
  rw [← toList_arrayOf (length_toBe 16 m), ← toList_arrayOf (length_toBe 16 n)]
  exact congrArg _ h

theorem letter_size (messageId recipient : Nat) (sentAt : UInt64) :
    messageSize (letter messageId recipient sentAt) = 84 := by
  have hone : ([0] : Bytes).length < 2 ^ 32 := by decide
  obtain ⟨b, hb, hlen⟩ := EncryptedMessage.encode_length
    (m := letter messageId recipient sentAt) hone hone
  rw [messageSize, hb]
  exact hlen

theorem letter_valid {messageId recipient : Nat} (sentAt : UInt64) (hm : 0 < messageId)
    (hm' : messageId < 256 ^ 16) (hr : 0 < recipient) (hr' : recipient < 256 ^ 16) :
    validMessage (letter messageId recipient sentAt) = true := by
  have hzero : zeros 16 = idOf 0 := by decide
  have hne {n : Nat} (h : 0 < n) (h' : n < 256 ^ 16) : idOf n ≠ zeros 16 := by
    intro e
    have := idOf_injective h' (by decide) (e.trans hzero)
    omega
  have hone : idOf 1 ≠ zeros 16 := hne (by decide) (by decide)
  simp [validMessage, letter, EncryptedMessage.new, hne hm hm', hne hr hr', hone, maxRatchetHeader,
    maxCiphertext]

end NexaMessenger.Relay
