import Mathlib.Logic.Function.Basic
import NexaMessenger.Lib.HashMap
import NexaMessenger.Protocol

namespace NexaMessenger.Gateway

open Lib

/-!
# Gateway — the registry of live connections

The gateway's `ConnectionRegistry`: for each device the sending end of the channel of its
websocket session, and, until the session is ready, the messages that arrived meanwhile.

A channel is named by the session that created it, and `Channels` is the state of all of them;
sending to a channel is `Channel.trySend`, whose error the source ignores.  `register` takes
a number before it takes the lock, so it is two functions here.
-/

/-- `LIVE_CHANNEL_CAPACITY`. -/
def liveChannelCapacity : Nat := 256

/-! ### Channels -/

/-- An `mpsc` channel: the messages in it, and whether its receiver is gone. -/
structure Channel where
  queue : List EncryptedMessage
  closed : Bool
deriving DecidableEq, Repr

/-- `mpsc::channel(LIVE_CHANNEL_CAPACITY)`. -/
def Channel.new : Channel := ⟨[], false⟩

/-- `Sender::try_send`: a message for a full or closed channel is dropped. -/
def Channel.trySend (c : Channel) (message : EncryptedMessage) : Channel :=
  if c.closed ∨ liveChannelCapacity ≤ c.queue.length then c
  else { c with queue := c.queue ++ [message] }

/-- The channels of all sessions. -/
abbrev Channels := Nat → Channel

def Channels.trySend (channels : Channels) (sender : Nat) (message : EncryptedMessage) : Channels :=
  Function.update channels sender ((channels sender).trySend message)

/-! ### The registry -/

structure ConnectionState where
  id : UInt64
  sender : Nat
  ready : Bool
  pending : List EncryptedMessage
deriving DecidableEq, Repr

structure ConnectionRegistry where
  inner : HashMap Id16 ConnectionState
  nextId : UInt64

namespace ConnectionRegistry

/-- `ConnectionRegistry::default()`. -/
def empty : ConnectionRegistry := ⟨∅, 1⟩

/-- The first line of `register`: `next_id.fetch_add(1)`. -/
def fetchId (r : ConnectionRegistry) : UInt64 × ConnectionRegistry :=
  (r.nextId, { r with nextId := r.nextId + 1 })

/-- The rest of `register`: the new connection, not ready, takes the place of an old one. -/
def register (r : ConnectionRegistry) (device : Id16) (id : UInt64) (sender : Nat) :
    ConnectionRegistry :=
  { r with inner := r.inner.insert device ⟨id, sender, false, []⟩ }

/-- `ConnectionRegistry::unregister`. -/
def unregister (r : ConnectionRegistry) (device : Id16) (id : UInt64) : ConnectionRegistry :=
  match r.inner.lookup device with
  | some state => if state.id = id then { r with inner := r.inner.erase device } else r
  | none => r

/-- `ConnectionRegistry::try_send`. -/
def trySend (r : ConnectionRegistry) (channels : Channels) (device : Id16)
    (message : EncryptedMessage) : ConnectionRegistry × Channels :=
  match r.inner.lookup device with
  | none => (r, channels)
  | some state =>
    if !state.ready then
      if state.pending.length < liveChannelCapacity then
        let state := { state with pending := state.pending ++ [message] }
        ({ r with inner := r.inner.insert device state }, channels)
      else (r, channels)
    else (r, channels.trySend state.sender message)

/-- `ConnectionRegistry::activate`. -/
def activate (r : ConnectionRegistry) (channels : Channels) (device : Id16) (id : UInt64)
    (delivered : List Id16) : Bool × ConnectionRegistry × Channels :=
  match r.inner.lookup device with
  | none => (false, r, channels)
  | some state =>
    if state.id ≠ id then (false, r, channels)
    else
      (true, { r with inner := r.inner.insert device { state with pending := [], ready := true } },
        state.pending.foldl (fun channels message =>
          if message.messageId ∈ delivered then channels
          else channels.trySend state.sender message) channels)

end ConnectionRegistry

/-! ### What the calls do to a channel -/

/-- Sends a list of messages, one after the other. -/
def Channel.sendAll (c : Channel) (messages : List EncryptedMessage) : Channel :=
  messages.foldl Channel.trySend c

@[simp] theorem trySend_closed (c : Channel) (message : EncryptedMessage) :
    (c.trySend message).closed = c.closed := by
  unfold Channel.trySend
  split <;> rfl

@[simp] theorem sendAll_closed (c : Channel) (messages : List EncryptedMessage) :
    (c.sendAll messages).closed = c.closed := by
  induction messages generalizing c with
  | nil => rfl
  | cons message rest ih =>
    show ((c.trySend message).sendAll rest).closed = c.closed
    rw [ih, trySend_closed]

/-- A message is appended or dropped. -/
theorem trySend_queue (c : Channel) (message : EncryptedMessage) :
    ∃ sent, sent.Sublist [message] ∧ (c.trySend message).queue = c.queue ++ sent := by
  unfold Channel.trySend
  split
  · exact ⟨[], List.nil_sublist _, (List.append_nil _).symm⟩
  · exact ⟨[message], List.Sublist.refl _, rfl⟩

/-- Of a list of messages, some are appended, in order. -/
theorem sendAll_queue (c : Channel) (messages : List EncryptedMessage) :
    ∃ sent, sent.Sublist messages ∧ (c.sendAll messages).queue = c.queue ++ sent := by
  induction messages generalizing c with
  | nil => exact ⟨[], List.Sublist.refl _, (List.append_nil _).symm⟩
  | cons message rest ih =>
    obtain ⟨first, hfirst, hone⟩ := trySend_queue c message
    obtain ⟨sent, hsent, hall⟩ := ih (c.trySend message)
    refine ⟨first ++ sent, ?_, ?_⟩
    · exact List.Sublist.append hfirst hsent
    · show ((c.trySend message).sendAll rest).queue = c.queue ++ (first ++ sent)
      rw [hall, hone, List.append_assoc]

/-- An open channel with room takes a message. -/
theorem trySend_of_room {c : Channel} (hopen : c.closed = false)
    (hroom : c.queue.length < liveChannelCapacity) (message : EncryptedMessage) :
    (c.trySend message).queue = c.queue ++ [message] := by
  rw [Channel.trySend, if_neg]
  rw [hopen]
  simpa using hroom

/-- An open channel with room for all of them takes all messages. -/
theorem sendAll_of_room {c : Channel} (hopen : c.closed = false) {messages : List EncryptedMessage}
    (hroom : c.queue.length + messages.length ≤ liveChannelCapacity) :
    (c.sendAll messages).queue = c.queue ++ messages := by
  induction messages generalizing c with
  | nil => exact (List.append_nil _).symm
  | cons message rest ih =>
    rw [List.length_cons] at hroom
    have hone := trySend_of_room hopen (by omega) message
    show ((c.trySend message).sendAll rest).queue = c.queue ++ message :: rest
    rw [ih (by rw [trySend_closed, hopen]) (by
      rw [hone, List.length_append, List.length_singleton]; omega), hone, List.append_assoc]
    rfl

/-- The loop of `activate` sends what is not delivered to the one channel. -/
theorem foldl_trySend (pending : List EncryptedMessage) (delivered : List Id16) (sender k : Nat)
    (channels : Channels) :
    (pending.foldl (fun channels message =>
        if message.messageId ∈ delivered then channels
        else Channels.trySend channels sender message) channels) k =
      if k = sender then (channels k).sendAll (pending.filter fun m => m.messageId ∉ delivered)
      else channels k := by
  induction pending generalizing channels with
  | nil => simp [Channel.sendAll]
  | cons message rest ih =>
    rw [List.foldl_cons, ih, List.filter_cons]
    by_cases hin : message.messageId ∈ delivered
    · simp [hin]
    · by_cases hk : k = sender
      · subst hk
        simp [hin, Channels.trySend, Channel.sendAll]
      · simp [hin, hk, Channels.trySend]

/-! ### What the calls do to an entry -/

/-- An entry after `try_send`: a connection that is not ready keeps the message, if it has room. -/
def ConnectionState.keep (state : ConnectionState) (message : EncryptedMessage) : ConnectionState :=
  if state.ready ∨ liveChannelCapacity ≤ state.pending.length then state
  else { state with pending := state.pending ++ [message] }

section
variable (r : ConnectionRegistry) (channels : Channels) (device d : Id16)

theorem register_lookup (id : UInt64) (sender : Nat) :
    (r.register device id sender).inner.lookup d =
      if d = device then some ⟨id, sender, false, []⟩ else r.inner.lookup d :=
  lookup_insert_eq _ _ _ _

/-- Only an entry with the caller's number is removed. -/
theorem unregister_lookup (id : UInt64) :
    (r.unregister device id).inner.lookup d =
      if d = device ∧ (r.inner.lookup d).any (fun state => state.id = id) then none
      else r.inner.lookup d := by
  unfold ConnectionRegistry.unregister
  by_cases hd : d = device
  · subst hd
    cases hlook : r.inner.lookup d with
    | none => simp [hlook]
    | some state =>
      by_cases hid : state.id = id
      · simp [hid]
      · simp [hid, hlook]
  · cases r.inner.lookup device with
    | none => simp [hd]
    | some state =>
      by_cases hid : state.id = id
      · simp [hid, hd]
      · simp [hid, hd]

theorem trySend_lookup (message : EncryptedMessage) :
    (r.trySend channels device message).1.inner.lookup d =
      if d = device then (r.inner.lookup d).map (·.keep message) else r.inner.lookup d := by
  unfold ConnectionRegistry.trySend
  by_cases hd : d = device
  · subst hd
    cases hlook : r.inner.lookup d with
    | none => simp [hlook]
    | some state =>
      -- a ready entry passes the message on; one that waits keeps it if there is room
      cases hready : state.ready
      · by_cases hroom : state.pending.length < liveChannelCapacity
        · simp [hready, hroom, ConnectionState.keep]
        · simp [hready, hroom, hlook, ConnectionState.keep, Nat.not_lt.mp hroom]
      · simp [hready, hlook, ConnectionState.keep]
  · rw [if_neg hd]
    cases r.inner.lookup device with
    | none => rfl
    | some state =>
      dsimp only
      split
      · split
        · rw [lookup_insert_eq, if_neg hd]
        · rfl
      · rfl

/-- The channel of a ready connection gets the message, and no other channel changes. -/
theorem trySend_channel (message : EncryptedMessage) (k : Nat) :
    (r.trySend channels device message).2 k =
      if (r.inner.lookup device).any (fun state => state.ready ∧ state.sender = k) then
        (channels k).trySend message
      else channels k := by
  unfold ConnectionRegistry.trySend
  cases r.inner.lookup device with
  | none => simp
  | some state =>
    cases hready : state.ready
    · by_cases hroom : state.pending.length < liveChannelCapacity <;> simp [hready, hroom]
    · by_cases hk : state.sender = k
      · subst hk
        simp [hready, Channels.trySend]
      · have hk' : ¬ k = state.sender := fun h => hk h.symm
        simp [hready, hk, hk', Channels.trySend]

/-- A call with the number of the entry makes it ready and sends its pending messages that were
    not delivered; any other changes nothing. -/
theorem activate_cases (id : UInt64) (delivered : List Id16) :
    (∃ state, r.inner.lookup device = some state ∧ state.id = id ∧
      (r.activate channels device id delivered).1 = true ∧
      (∀ d, (r.activate channels device id delivered).2.1.inner.lookup d =
        if d = device then some { state with pending := [], ready := true }
        else r.inner.lookup d) ∧
      ∀ k, (r.activate channels device id delivered).2.2 k =
        if k = state.sender then
          (channels k).sendAll (state.pending.filter fun m => m.messageId ∉ delivered)
        else channels k) ∨
    ((∀ state, r.inner.lookup device = some state → state.id ≠ id) ∧
      r.activate channels device id delivered = (false, r, channels)) := by
  have hopen := ConnectionRegistry.activate.eq_1 r channels device id delivered
  cases hlook : r.inner.lookup device with
  | none => exact .inr ⟨by simp, by rw [hopen, hlook]⟩
  | some state =>
    simp only [hlook] at hopen
    -- a newer connection of the device has another number
    by_cases hid : state.id ≠ id
    · refine .inr ⟨?_, by rw [hopen, if_pos hid]⟩
      intro state' h
      obtain rfl := Option.some.inj h
      exact hid
    · rw [if_neg hid] at hopen
      refine .inl ⟨state, rfl, not_not.mp hid, by rw [hopen], ?_, ?_⟩
      · intro d
        rw [hopen]
        exact lookup_insert_eq _ _ _ _
      · intro k
        rw [hopen]
        exact foldl_trySend _ _ _ _ _

/-! ### Numbers -/

/-- No call but `fetch_add` draws a number. -/
theorem nextId_unregister (id : UInt64) : (r.unregister device id).nextId = r.nextId := by
  unfold ConnectionRegistry.unregister
  split
  · split <;> rfl
  · rfl

theorem nextId_trySend (message : EncryptedMessage) :
    (r.trySend channels device message).1.nextId = r.nextId := by
  unfold ConnectionRegistry.trySend
  split
  · rfl
  · dsimp only
    split
    · split <;> rfl
    · rfl

theorem nextId_activate (id : UInt64) (delivered : List Id16) :
    (r.activate channels device id delivered).2.1.nextId = r.nextId := by
  unfold ConnectionRegistry.activate
  split
  · rfl
  · split <;> rfl

end

end NexaMessenger.Gateway
