import NexaMessenger.Lib.Mailbox
import NexaMessenger.Relay.Visits

namespace NexaMessenger.Relay

open Lib

/-!
# Relay — the store is a mailbox

What the clients of a relay rely on, stated without its queues: a `pull` answers with the
messages that the log of earlier calls owes to the device (`Lib.live`).  `Delivers` ties the
queues to the log, one step keeps it (`step_delivers`), and the answers follow.

A push that is not accepted leaves no trace in the log.  It may still drop expired messages
from its recipient's queue, and with them lower the counters that a later push is held
against; so without it a later pull is answered alike unless an earlier push for the same device is
not (`eventsFor_eq`).
-/

/-- What a call tells the readers: an accepted push is a message until its expiry, an `ack`
    withdraws an id, whatever it answers. -/
def eventOf : RelayOp × RelayAnswer → Option (MailEvent Id16 Id16 EncryptedMessage UInt64)
  | (.push message now, .pushed .accepted) =>
    some (.accepted message.recipientDeviceId message (satAdd now offlineTtlMs))
  | (.ack device messageId, _) => some (.acked device messageId)
  | _ => none

/-- The log of a trace. -/
def log (calls : List (RelayOp × RelayAnswer)) :
    List (MailEvent Id16 Id16 EncryptedMessage UInt64) :=
  calls.filterMap eventOf

/-- The messages owed to a device at `now`, after the calls made so far. -/
def owed (calls : List (RelayOp × RelayAnswer)) (device : Id16) (now : UInt64) :
    List EncryptedMessage :=
  live (·.messageId) device now (log calls)

/-- The clock readings of a list of calls. -/
def clocks (ops : List RelayOp) : List UInt64 := ops.filterMap RelayOp.clock

/-- The refinement relation: at any time from the last clock reading on, what is unexpired in a
    queue is what the log owes to its device. -/
def Delivers (calls : List (RelayOp × RelayAnswer)) (s : RelayStore) : Prop :=
  ∀ device now, (∀ t ∈ clocks (calls.map (·.1)), t ≤ now) →
    (unexpired (s.queue device) now).map (·.message) = owed calls device now

/-! ### One step -/

theorem unexpired_unacked (queue : List StoredMessage) (messageId : Id16) (now : UInt64) :
    (unexpired (unacked queue messageId) now).map (·.message) =
      ((unexpired queue now).map (·.message)).filter (fun m => m.messageId ≠ messageId) := by
  rw [unexpired, unacked, unexpired, List.filter_map, List.filter_filter, List.filter_filter]
  congr 1
  exact List.filter_congr fun x _ => Bool.and_comm _ _

theorem clocks_concat {calls : List (RelayOp × RelayAnswer)} {op : RelayOp} {answer : RelayAnswer}
    {now : UInt64} (h : ∀ t ∈ clocks ((calls ++ [(op, answer)]).map (·.1)), t ≤ now) :
    (∀ t ∈ clocks (calls.map (·.1)), t ≤ now) ∧ ∀ t, op.clock = some t → t ≤ now := by
  simp only [clocks, List.map_append, List.filterMap_append, List.mem_append, List.map_cons,
    List.map_nil] at h
  refine ⟨fun t ht => h t (Or.inl ht), fun t ht => h t (Or.inr ?_)⟩
  simp [ht]

/-- **One call keeps the refinement relation.** -/
theorem step_delivers {calls : List (RelayOp × RelayAnswer)} {s : RelayStore}
    (h : Delivers calls s) (op : RelayOp) :
    Delivers (calls ++ [(op, (step s op).1)]) (step s op).2 := by
  intro device now hlast
  obtain ⟨hcalls, hop⟩ := clocks_concat hlast
  have hview := h device now hcalls
  simp only [owed, log, List.filterMap_append] at hview ⊢
  cases op with
  | push message t =>
    have ht : t ≤ now := hop t rfl
    rw [step_push]
    dsimp only
    rcases push_cases s message t with hpush | ⟨-, hafter⟩
    · have hnone : [(RelayOp.push message t, RelayAnswer.pushed .invalid)].filterMap eventOf = [] :=
        rfl
      rw [hpush, hnone, List.append_nil, hview]
    -- the old part of the queue looks as before
    have hold : (unexpired ((s.visit message.recipientDeviceId t).queue device) now).map
        (·.message) = live (·.messageId) device now (calls.filterMap eventOf) := by
      rw [unexpired_visit s _ _ ht, hview]
    rw [hafter]
    by_cases hacc : (s.push message t).1 = .accepted
    · have hone : [(RelayOp.push message t, RelayAnswer.pushed .accepted)].filterMap eventOf =
          [.accepted message.recipientDeviceId message (satAdd t offlineTtlMs)] := rfl
      rw [hacc, hone, live_concat_accepted, ← hold, unexpired, List.filter_append, List.map_append]
      congr 1
      by_cases hd : device = message.recipientDeviceId
      · by_cases hexp : now < satAdd t offlineTtlMs <;> simp [hd, stored, hexp]
      · have hd' : message.recipientDeviceId ≠ device := fun e => hd e.symm
        simp [hd, hd']
    · have hnone : [(RelayOp.push message t, RelayAnswer.pushed (s.push message t).1)].filterMap
          eventOf = [] := by
        generalize (s.push message t).1 = result at hacc
        cases result with
        | accepted => exact absurd rfl hacc
        | duplicate => rfl
        | invalid => rfl
        | full => rfl
      rw [hnone, if_neg (fun h => hacc h.1), List.append_nil, List.append_nil, hold]
  | pull d t =>
    have ht : t ≤ now := hop t rfl
    have hnone : [(RelayOp.pull d t, (step s (.pull d t)).1)].filterMap eventOf = [] := rfl
    rw [hnone, List.append_nil, ← hview, step_pull]
    dsimp only
    rw [pull_visits, unexpired_visit s d device ht]
  | ack d messageId =>
    have hone : [(RelayOp.ack d messageId, (step s (.ack d messageId)).1)].filterMap eventOf =
        [.acked d messageId] := rfl
    rw [hone, live_concat_acked, step_ack, ack_queue]
    by_cases hd : device = d
    · rw [if_pos hd, if_pos hd.symm, unexpired_unacked, hview]
    · rw [if_neg hd, if_neg (fun e => hd e.symm), hview]

/-- Every run keeps the refinement relation, whatever its clock readings are. -/
theorem run_delivers (ops : List RelayOp) :
    Delivers (trace step RelayStore.empty ops) (after step RelayStore.empty ops) :=
  history_invariant_of_step (R := Delivers) (fun _ _ _ => rfl) (fun _ _ op h => step_delivers h op)
    ops

/-! ### The answers of a run -/

/-- The operations of a trace. -/
theorem trace_ops (s : RelayStore) (ops : List RelayOp) : (trace step s ops).map (·.1) = ops :=
  map_fst_trace step s ops

/-- A pull not earlier than the last clock reading answers what is owed. -/
theorem pull_owed {ops : List RelayOp} (device : Id16) {now : UInt64}
    (hlast : ∀ t ∈ clocks ops, t ≤ now) :
    (step (after step RelayStore.empty ops) (.pull device now)).1 =
      .pulled (owed (trace step RelayStore.empty ops) device now) := by
  have hview := run_delivers ops device now (by rw [trace_ops]; exact hlast)
  rw [step_pull, pull_answer, hview]

/-- In a run whose readings do not decrease, the readings of a prefix are not after the next. -/
theorem clocks_le {ops pre post : List RelayOp} {op : RelayOp} {now : UInt64}
    (hclock : (clocks ops).Pairwise (· ≤ ·)) (hops : ops = pre ++ op :: post)
    (hnow : op.clock = some now) : ∀ t ∈ clocks pre, t ≤ now := by
  intro t ht
  rw [hops, clocks, List.filterMap_append, List.pairwise_append] at hclock
  refine hclock.2.2 t ht now ?_
  simp [hnow]

/-- The answers to the pushes for a device. -/
def pushAnswers (device : Id16) (calls : List (RelayOp × RelayAnswer)) : List PushResult :=
  calls.filterMap fun
    | (.push message _, .pushed result) =>
      if message.recipientDeviceId = device then some result else none
    | _ => none

theorem pushAnswers_push (device : Id16) (message : EncryptedMessage) (now : UInt64)
    (result : PushResult) (calls : List (RelayOp × RelayAnswer)) :
    pushAnswers device ((.push message now, .pushed result) :: calls) =
      if message.recipientDeviceId = device then result :: pushAnswers device calls
      else pushAnswers device calls := by
  by_cases hd : message.recipientDeviceId = device <;> simp [pushAnswers, hd]

/-- What a trace says to the reader of one device. -/
def eventsFor (device : Id16) (calls : List (RelayOp × RelayAnswer)) :
    List (MailEvent Id16 Id16 EncryptedMessage UInt64) :=
  (log calls).filter fun e => e.box = device

theorem eventsFor_append (device : Id16) (calls later : List (RelayOp × RelayAnswer)) :
    eventsFor device (calls ++ later) = eventsFor device calls ++ eventsFor device later := by
  rw [eventsFor, log, List.filterMap_append, List.filter_append]
  rfl

/-- A push tells only its recipient. -/
theorem eventsFor_other {device : Id16} {message : EncryptedMessage} {now : UInt64}
    (answer : RelayAnswer) (hd : message.recipientDeviceId ≠ device) :
    eventsFor device [(.push message now, answer)] = [] := by
  rcases answer with (_ | _ | _ | _) | _ | _ <;> simp [eventsFor, log, eventOf, hd]

/-- A device is owed what it was told of. -/
theorem owed_of_eventsFor (calls : List (RelayOp × RelayAnswer)) (device : Id16) (now : UInt64) :
    owed calls device now = live (·.messageId) device now (eventsFor device calls) :=
  (live_filter _ device now (log calls)).symm

/-- From any two stores the same calls tell a device the same, if the pushes for it among them get
    the same answers. -/
theorem eventsFor_eq {s s' : RelayStore} {ops : List RelayOp} {device : Id16}
    (hpush : pushAnswers device (trace step s ops) = pushAnswers device (trace step s' ops)) :
    eventsFor device (trace step s ops) = eventsFor device (trace step s' ops) := by
  induction ops generalizing s s' with
  | nil => rfl
  | cons op ops ih =>
    rw [trace_cons, trace_cons] at hpush ⊢
    -- one call tells the same, and so do the others
    suffices hone : eventsFor device [(op, (step s op).1)] =
          eventsFor device [(op, (step s' op).1)] ∧
        pushAnswers device (trace step (step s op).2 ops) =
          pushAnswers device (trace step (step s' op).2 ops) by
      rw [← List.singleton_append, ← List.singleton_append (x := (op, (step s' op).1)),
        eventsFor_append, eventsFor_append, hone.1, ih hone.2]
    cases op with
    | push message now =>
      rw [step_push, step_push, pushAnswers_push, pushAnswers_push] at hpush
      by_cases hd : message.recipientDeviceId = device
      · rw [if_pos hd, if_pos hd] at hpush
        obtain ⟨hanswer, hrest⟩ := List.cons.inj hpush
        rw [step_push, step_push]
        exact ⟨by rw [hanswer], hrest⟩
      · rw [if_neg hd, if_neg hd] at hpush
        exact ⟨by rw [eventsFor_other _ hd, eventsFor_other _ hd], hpush⟩
    -- a `pull` is no event, and an `ack` is one whatever it answers
    | pull d now => exact ⟨rfl, hpush⟩
    | ack d messageId => exact ⟨rfl, hpush⟩

/-- Nothing is owed twice: the ids of the messages owed after a run are pairwise distinct. -/
theorem owed_nodup (ops : List RelayOp) (device : Id16) {now : UInt64}
    (hlast : ∀ t ∈ clocks ops, t ≤ now) :
    ((owed (trace step RelayStore.empty ops) device now).map (·.messageId)).Nodup := by
  have hview := run_delivers ops device now (by rw [trace_ops]; exact hlast)
  have hwf := (reachable_store ops).queue_wf device
  rw [← hview, List.map_map]
  exact hwf.distinct.sublist (List.filter_sublist.map _)

/-- At most one message is queued for a device under one id. -/
theorem Accounted.one_under_id {s : RelayStore} (h : Accounted s) (device messageId : Id16) :
    ((s.queue device).filter fun x => x.message.messageId = messageId).length ≤ 1 := by
  have hcount := List.nodup_iff_count_le_one.mp (h.queue_wf device).distinct messageId
  rw [List.count_eq_length_filter, List.filter_map, List.length_map] at hcount
  refine le_of_eq_of_le (congrArg _ (List.filter_congr fun x _ => ?_)) hcount
  by_cases hx : x.message.messageId = messageId <;> simp [hx]

/-- A push that is not accepted tells nobody anything. -/
theorem eventsFor_failed_push (device : Id16) {message : EncryptedMessage} {now : UInt64}
    {answer : RelayAnswer} (h : answer ≠ .pushed .accepted) :
    eventsFor device [(.push message now, answer)] = [] := by
  rcases answer with (_ | _ | _ | _) | _ | _
  · exact absurd rfl h
  all_goals rfl

/-- What a device is owed in a run with a push that is not accepted, and without it. -/
theorem owed_failed_push {pre : List RelayOp} {message : EncryptedMessage} {now : UInt64}
    {early : List RelayOp} {device : Id16} :
    let s := after step RelayStore.empty pre
    let s' := (step s (.push message now)).2
    (step s (.push message now)).1 ≠ .pushed .accepted →
    pushAnswers device (trace step s' early) = pushAnswers device (trace step s early) → ∀ t,
      owed (trace step RelayStore.empty (pre ++ .push message now :: early)) device t =
        owed (trace step RelayStore.empty (pre ++ early)) device t := by
  intro s s' hfail hpush t
  rw [owed_of_eventsFor, owed_of_eventsFor, trace_append, trace_append, trace_cons,
    ← List.singleton_append, eventsFor_append, eventsFor_append, eventsFor_append,
    eventsFor_failed_push device hfail, List.nil_append, eventsFor_eq hpush]

/-- **The relay is a mailbox.**  In a run whose clock readings do not decrease: a `pull` answers
    what the log owes, under pairwise distinct ids; an `ack` takes out the one message queued
    under its id and no other; a push that is not accepted leaves a later pull as it is, unless
    before it a push for the same device is answered otherwise than it would have been, and an
    invalid one leaves the whole store. -/
theorem run_is_mailbox (ops : List RelayOp) (hclock : (clocks ops).Pairwise (· ≤ ·)) :
    (∀ pre device now post, ops = pre ++ .pull device now :: post →
      (step (after step RelayStore.empty pre) (.pull device now)).1 =
        .pulled (owed (trace step RelayStore.empty pre) device now) ∧
      ((owed (trace step RelayStore.empty pre) device now).map (·.messageId)).Nodup) ∧
    (∀ pre device messageId post, ops = pre ++ .ack device messageId :: post →
      let s := after step RelayStore.empty pre
      (∀ d, (step s (.ack device messageId)).2.queue d =
        if d = device then unacked (s.queue d) messageId else s.queue d) ∧
      ((s.queue device).filter fun x => x.message.messageId = messageId).length ≤ 1) ∧
    ∀ pre message now post, ops = pre ++ .push message now :: post →
      let s := after step RelayStore.empty pre
      let s' := (step s (.push message now)).2
      (step s (.push message now)).1 ≠ .pushed .accepted →
        ((step s (.push message now)).1 = .pushed .invalid → s' = s) ∧
        ∀ early device t late, post = early ++ .pull device t :: late →
          pushAnswers device (trace step s' early) = pushAnswers device (trace step s early) →
            (step (after step s' early) (.pull device t)).1 =
              (step (after step s early) (.pull device t)).1 := by
  refine ⟨?_, ?_, ?_⟩
  · intro pre device now post hops
    have hlast := clocks_le hclock hops rfl
    exact ⟨pull_owed device hlast, owed_nodup pre device hlast⟩
  · intro pre device messageId post _
    exact ⟨fun d => ack_queue _ device messageId d,
      (reachable_store pre).one_under_id device messageId⟩
  · intro pre message now post hops s s' hfail
    refine ⟨fun hinvalid => push_invalid (RelayAnswer.pushed.inj hinvalid), ?_⟩
    intro early device t late hpost hpush
    have hwith : ops = (pre ++ .push message now :: early) ++ .pull device t :: late := by
      rw [hops, hpost, List.append_assoc, List.cons_append]
    have hlast := clocks_le hclock hwith rfl
    -- the run without the push is a run of its own, and its readings are among the others
    have hsub : (pre ++ early).Sublist (pre ++ .push message now :: early) :=
      (List.sublist_cons_self _ _).append_left pre
    have hlast' : ∀ u ∈ clocks (pre ++ early), u ≤ t := fun u hu =>
      hlast u ((hsub.filterMap _).subset hu)
    have hpull := pull_owed device hlast
    have hpull' := pull_owed device hlast'
    rw [owed_failed_push hfail hpush] at hpull
    rw [after_append] at hpull hpull'
    exact hpull.trans hpull'.symm

/-- A message is pulled until it is acknowledged. -/
theorem letter_pulled_until_acked :
    let ops : List RelayOp := [.push (letter 1 2 0) 0, .pull (idOf 2) 5, .ack (idOf 2) (idOf 1),
      .pull (idOf 2) 7]
    (step (after step RelayStore.empty (ops.take 1)) (.pull (idOf 2) 5)).1 =
      .pulled [letter 1 2 0] ∧
    (step (after step RelayStore.empty (ops.take 3)) (.pull (idOf 2) 7)).1 = .pulled [] := by
  intro ops
  have h := (run_is_mailbox ops (by decide)).1
  exact ⟨(h (ops.take 1) (idOf 2) 5 (ops.drop 2) rfl).1.trans (by rfl),
    (h (ops.take 3) (idOf 2) 7 [] rfl).1.trans (by rfl)⟩

/-! ### A failed push that does change a later pull

The store is filled to its message limit, all but two of the messages for devices of their
own.  The device under id 1 holds two; when the first has expired and the second is pushed
again, the answer is `Duplicate`, but the expired one is gone and a push to another device
finds room. -/

/-- A push for a device without a queue, into a store with room. -/
theorem push_fresh {s : RelayStore} {message : EncryptedMessage} {now : UInt64}
    (hvalid : validMessage message = true) (htime : timely message now = true)
    (hfresh : s.queues.lookup message.recipientDeviceId = none)
    (hm : s.totalMessages < maxTotalMessages)
    (hb : s.totalBytes + messageSize message ≤ maxTotalBytes) :
    s.push message now = (.accepted,
      ⟨s.queues.insert message.recipientDeviceId [stored message now], s.totalMessages + 1,
        s.totalBytes + messageSize message⟩) := by
  have htake : s.takeQueue message.recipientDeviceId now = none := by
    rw [RelayStore.takeQueue, hfresh]; rfl
  have hroom : ¬ (maxTotalMessages ≤ s.totalMessages ∨
      maxTotalBytes < min (s.totalBytes + messageSize message) usizeMax) := by omega
  simp only [RelayStore.push, hvalid, htime, htake, Bool.not_true, Bool.false_eq_true, if_false]
  rw [RelayStore.storeMessage, if_neg hroom]
  dsimp only
  rw [hfresh]
  rfl

/-- A push of a message that is still queued under its id. -/
theorem push_duplicate {s guard : RelayStore} {message : EncryptedMessage} {now : UInt64}
    {queue : List StoredMessage} (hvalid : validMessage message = true)
    (htime : timely message now = true)
    (htake : s.takeQueue message.recipientDeviceId now = some (queue, guard))
    (hdup : queue.any (fun stored => stored.message.messageId = message.messageId) = true) :
    s.push message now = (.duplicate, guard.putQueue message.recipientDeviceId queue) := by
  simp only [RelayStore.push, hvalid, htime, htake, Bool.not_true, Bool.false_eq_true, if_false]
  rw [if_pos hdup]

/-- `n` letters at time 1, each for a device of its own, from id 3 on. -/
def fillers (n : Nat) : List RelayOp := (List.range n).map fun i => .push (letter 1 (i + 3) 1) 1

/-- What filling a store does: the counters rise, and the queues of other devices stay. -/
theorem after_fillers {s : RelayStore} (n : Nat) (hn : n < 256 ^ 15)
    (hfresh : ∀ i < n, s.queues.lookup (idOf (i + 3)) = none)
    (hm : s.totalMessages + n ≤ maxTotalMessages)
    (hb : s.totalBytes + 84 * n ≤ maxTotalBytes) :
    (after step s (fillers n)).totalMessages = s.totalMessages + n ∧
    (after step s (fillers n)).totalBytes = s.totalBytes + 84 * n ∧
    ∀ d, (∀ i < n, d ≠ idOf (i + 3)) →
      (after step s (fillers n)).queues.lookup d = s.queues.lookup d := by
  induction n with
  | zero => exact ⟨rfl, rfl, fun _ _ => rfl⟩
  | succ n ih =>
    obtain ⟨htm, htb, hqueues⟩ :=
      ih (by omega) (fun i hi => hfresh i (by omega)) (by omega) (by omega)
    have hfill : fillers (n + 1) = fillers n ++ [.push (letter 1 (n + 3) 1) 1] := by
      simp [fillers, List.range_succ]
    have hother : (after step s (fillers n)).queues.lookup (idOf (n + 3)) = none := by
      rw [hqueues, hfresh n (by omega)]
      intro i hi e
      have := idOf_injective (by omega) (by omega) e
      omega
    have hvalid : validMessage (letter 1 (n + 3) 1) = true :=
      letter_valid 1 (by omega) (by omega) (by omega) (by omega)
    have htime : timely (letter 1 (n + 3) 1) 1 = true := by
      rw [timely, letter_sentAtMs]; rfl
    have hsize := letter_size 1 (n + 3) 1
    rw [hfill, after_concat, step_push,
      push_fresh hvalid htime hother (by omega) (by omega)]
    refine ⟨by dsimp only; omega, by dsimp only; omega, fun d hd => ?_⟩
    dsimp only
    rw [lookup_insert_eq, letter_recipientDeviceId, if_neg (hd n (by omega)),
      hqueues d fun i hi => hd i (by omega)]

/-- The calls that fill the store, the failed push, and the push after it. -/
def fillingCalls : List RelayOp :=
  [.push (letter 1 1 0) 0, .push (letter 2 1 1) 1] ++ fillers 65534

def secondPush : RelayOp := .push (letter 2 1 1) offlineTtlMs

def laterPush : RelayOp := .push (letter 1 2 offlineTtlMs) offlineTtlMs

/-- The store when the failed push comes. -/
theorem after_fillingCalls :
    let s := after step RelayStore.empty fillingCalls
    s.totalMessages = 65536 ∧ s.totalBytes = 65536 * 84 ∧
      s.queues.lookup (idOf 1) = some [stored (letter 1 1 0) 0, stored (letter 2 1 1) 1] ∧
      s.queues.lookup (idOf 2) = none := by
  have htwo : after step RelayStore.empty [.push (letter 1 1 0) 0, .push (letter 2 1 1) 1] =
      ⟨(∅ : HashMap Id16 (List StoredMessage)).insert (idOf 1)
        [stored (letter 1 1 0) 0, stored (letter 2 1 1) 1], 2, 2 * 84⟩ := by rfl
  have hother {d : Id16} (hd : d ≠ idOf 1) :
      (after step RelayStore.empty [.push (letter 1 1 0) 0,
        .push (letter 2 1 1) 1]).queues.lookup d = none := by
    rw [htwo]
    dsimp only
    rw [lookup_insert_eq, if_neg hd, lookup_empty_eq]
  have hne {i k : Nat} (hi : i < 65534) (hk : k < 3) : idOf k ≠ idOf (i + 3) := by
    intro e
    have := idOf_injective (by omega) (by omega) e
    omega
  obtain ⟨hm, hb, hqueues⟩ := after_fillers 65534 (by decide)
    (fun i hi => hother (hne hi (by decide)).symm) (by rw [htwo]; decide) (by rw [htwo]; decide)
  dsimp only
  rw [fillingCalls, after_append, hm, hb, hqueues _ fun i hi => hne hi (by decide),
    hqueues _ fun i hi => hne hi (by decide), htwo]
  exact ⟨rfl, rfl, by rfl, by rfl⟩

/-- What the failed push does: it is a duplicate, and the expired message leaves the store. -/
theorem secondPush_prunes {s : RelayStore}
    (h : s.queues.lookup (idOf 1) = some [stored (letter 1 1 0) 0, stored (letter 2 1 1) 1]) :
    step s secondPush = (.pushed .duplicate,
      ⟨s.queues.insert (idOf 1) [stored (letter 2 1 1) 1], s.totalMessages - 1,
        s.totalBytes - 84⟩) := by
  have hvalid : validMessage (letter 2 1 1) = true :=
    letter_valid 1 (by decide) (by decide) (by decide) (by decide)
  have htime : timely (letter 2 1 1) offlineTtlMs = true := by decide
  have hrem : removeExpired [stored (letter 1 1 0) 0, stored (letter 2 1 1) 1] offlineTtlMs =
      ([stored (letter 2 1 1) 1], 1, 84) := by rfl
  have htake : s.takeQueue (letter 2 1 1).recipientDeviceId offlineTtlMs =
      some ([stored (letter 2 1 1) 1],
        ⟨s.queues.erase (idOf 1), s.totalMessages - 1, s.totalBytes - 84⟩) := by
    rw [RelayStore.takeQueue, letter_recipientDeviceId, h, Option.map_some, hrem]
  rw [secondPush, step_push, push_duplicate hvalid htime htake (by decide), RelayStore.putQueue]
  dsimp only
  rw [letter_recipientDeviceId, insert_erase_self]

/-- With room for one more message, the later pull returns it. -/
theorem laterPull_of_room {s : RelayStore} (hfresh : s.queues.lookup (idOf 2) = none)
    (hm : s.totalMessages < maxTotalMessages) (hb : s.totalBytes + 84 ≤ maxTotalBytes) :
    (step (step s laterPush).2 (.pull (idOf 2) offlineTtlMs)).1 =
      .pulled [letter 1 2 offlineTtlMs] := by
  have hvalid : validMessage (letter 1 2 offlineTtlMs) = true :=
    letter_valid _ (by decide) (by decide) (by decide) (by decide)
  have hsize := letter_size 1 2 offlineTtlMs
  have htime : timely (letter 1 2 offlineTtlMs) offlineTtlMs = true := by decide
  have hpush := push_fresh hvalid htime hfresh hm (by omega)
  have hqueue : (s.push (letter 1 2 offlineTtlMs) offlineTtlMs).2.queue (idOf 2) =
      [stored (letter 1 2 offlineTtlMs) offlineTtlMs] := by
    rw [hpush, queue_of_insert]; rfl
  rw [laterPush, step_push, step_pull, pull_answer, hqueue]
  rfl

/-- Without, it returns nothing. -/
theorem laterPull_of_full {s : RelayStore} (hfresh : s.queues.lookup (idOf 2) = none)
    (hm : maxTotalMessages ≤ s.totalMessages) :
    (step (step s laterPush).2 (.pull (idOf 2) offlineTtlMs)).1 = .pulled [] := by
  have hvalid : validMessage (letter 1 2 offlineTtlMs) = true :=
    letter_valid _ (by decide) (by decide) (by decide) (by decide)
  have hpush : s.push (letter 1 2 offlineTtlMs) offlineTtlMs = (.full, s) := by
    have htake : s.takeQueue (letter 1 2 offlineTtlMs).recipientDeviceId offlineTtlMs = none := by
      rw [RelayStore.takeQueue, letter_recipientDeviceId, hfresh]; rfl
    have htime : timely (letter 1 2 offlineTtlMs) offlineTtlMs = true := by decide
    simp only [RelayStore.push, hvalid, htime, htake, Bool.not_true, Bool.false_eq_true, if_false]
    rw [RelayStore.storeMessage, if_pos (Or.inl hm)]
  have hqueue : s.queue (idOf 2) = [] := by rw [RelayStore.queue, hfresh]; rfl
  rw [laterPush, step_push, hpush, step_pull, pull_answer, hqueue]
  rfl

theorem clocks_fillers (n : Nat) : clocks (fillers n) = List.replicate n 1 := by
  induction n with
  | zero => rfl
  | succ n ih =>
    rw [List.replicate_succ', ← ih, fillers, List.range_succ, List.map_append, clocks,
      List.filterMap_append]
    rfl

theorem fillingClocks_sorted (n : Nat) :
    ([0, 1] ++ (List.replicate n 1 ++ [offlineTtlMs, offlineTtlMs, offlineTtlMs])).Pairwise
      (fun a b : UInt64 => a ≤ b) := by
  rw [List.pairwise_append, List.pairwise_append, List.pairwise_replicate]
  have hlate : ∀ b ∈ [offlineTtlMs, offlineTtlMs, offlineTtlMs], 1 ≤ b := by
    intro b hb
    obtain rfl : b = offlineTtlMs := by simpa using hb
    decide
  refine ⟨by decide, ⟨Or.inr (by decide), by decide, ?_⟩, ?_⟩
  · intro a ha b hb
    rw [List.eq_of_mem_replicate ha]
    exact hlate b hb
  · intro a ha b hb
    have hone : 1 ≤ b := by
      rcases List.mem_append.mp hb with hb | hb
      · rw [List.eq_of_mem_replicate hb]; decide
      · exact hlate b hb
    have ha : a ≤ 1 := by
      rcases List.mem_pair.mp ha with rfl | rfl <;> decide
    rw [word_le_iff] at *; omega

/-- **A failed push can change a later pull.**  All clock readings are in order, the push is a
    `Duplicate`, and with it a later pull of another device returns one more message. -/
theorem duplicate_push_changes_later_pull :
    let laterPull : RelayOp := .pull (idOf 2) offlineTtlMs
    let s := after step RelayStore.empty fillingCalls
    let s' := (step s secondPush).2
    (clocks (fillingCalls ++ [secondPush, laterPush, laterPull])).Pairwise (· ≤ ·) ∧
    (step s secondPush).1 = .pushed .duplicate ∧
    (step (step s' laterPush).2 laterPull).1 = .pulled [letter 1 2 offlineTtlMs] ∧
    (step (step s laterPush).2 laterPull).1 = .pulled [] := by
  intro laterPull s s'
  refine ⟨?_, ?_⟩
  · have hlist : clocks (fillingCalls ++ [secondPush, laterPush, laterPull]) =
        [0, 1] ++ (List.replicate 65534 1 ++ [offlineTtlMs, offlineTtlMs, offlineTtlMs]) := by
      rw [← clocks_fillers, clocks, List.filterMap_append, fillingCalls, List.filterMap_append,
        List.append_assoc]
      rfl
    rw [hlist]
    exact fillingClocks_sorted 65534
  · obtain ⟨hm, hb, hfirst, hsecond⟩ := after_fillingCalls
    have hprune := secondPush_prunes hfirst
    have hs' : s' = _ := congrArg Prod.snd hprune
    rw [hs']
    refine ⟨congrArg Prod.fst hprune, laterPull_of_room ?_ ?_ ?_, laterPull_of_full hsecond ?_⟩
    · dsimp only
      rw [lookup_insert_eq, if_neg (by decide), hsecond]
    · rw [hm]; decide
    · rw [hb]; decide
    · rw [hm]; decide

end NexaMessenger.Relay
