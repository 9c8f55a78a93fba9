import NexaMessenger.Lib.Machine
import NexaMessenger.Lib.Tickets
import NexaMessenger.Gateway.Connections

namespace NexaMessenger.Gateway.Replacement

open Lib

/-!
# Gateway — sessions that were replaced

The calls that websocket sessions make on the `ConnectionRegistry`, in any order: a session draws
its number and then, under the lock, takes the entry of its device; later it activates, and in
the end it unregisters.  A session that has been replaced by a newer one of its device still makes
its calls.

Who holds the entry of a device is told by the calls alone (`Story`): the session that was
inserted last, until it unregisters.  `Follows` relates the registry to that, and
`stale_sessions_harmless` reads off what a replaced session can do, which is nothing.  Numbers are
64-bit words; that they are all different needs fewer than 2^64 of them.
-/

/-! ### The machine -/

/-- How far a session is with `register`. -/
inductive Stage
  | idle
  /-- it has its number -/
  | numbered (id : UInt64)
  /-- it was inserted -/
  | registered (id : UInt64)
deriving DecidableEq, Repr

inductive RegistryCall
  /-- the first line of `register` -/
  | draw (k : Nat)
  /-- the rest of `register` -/
  | insert (k : Nat)
  | activate (k : Nat) (delivered : List Id16)
  | trySend (device : Id16) (message : EncryptedMessage)
  | unregister (k : Nat)
  /-- the session takes a message out of its channel -/
  | receive (k : Nat)
  /-- the session drops its receiver -/
  | drop (k : Nat)
deriving DecidableEq, Repr

/-- The registry with the channels of the sessions, where these are with `register`, and what they
    have received. -/
structure Hub where
  connections : ConnectionRegistry
  channels : Channels
  stages : Nat → Stage
  received : Nat → List EncryptedMessage

/-- Before any session. -/
def Hub.start : Hub :=
  ⟨ConnectionRegistry.empty, fun _ => Channel.new, fun _ => .idle, fun _ => []⟩

/-- What was ever put into the channel of a session. -/
def Hub.put (s : Hub) (k : Nat) : List EncryptedMessage := s.received k ++ (s.channels k).queue

theorem put_append {s s' : Hub} {k : Nat} {messages : List EncryptedMessage}
    (hreceived : s'.received k = s.received k)
    (hqueue : (s'.channels k).queue = (s.channels k).queue ++ messages) :
    s'.put k = s.put k ++ messages := by
  rw [Hub.put, hreceived, hqueue, ← List.append_assoc]
  rfl

theorem put_congr {s s' : Hub} {k : Nat} (hreceived : s'.received k = s.received k)
    (hqueue : (s'.channels k).queue = (s.channels k).queue) : s'.put k = s.put k := by
  rw [Hub.put, hreceived, hqueue]
  rfl

/-- What a session has received it keeps. -/
theorem put_received {s : Hub} {k : Nat} {message : EncryptedMessage}
    {rest : List EncryptedMessage} (hqueue : (s.channels k).queue = message :: rest) :
    Hub.put { s with
      channels := Function.update s.channels k { s.channels k with queue := rest }
      received := Function.update s.received k (s.received k ++ [message]) } = s.put := by
  ext1 k'
  by_cases hk : k' = k
  · subst hk
    simp [Hub.put, hqueue]
  · simp [Hub.put, hk]

theorem put_dropped (s : Hub) (k : Nat) :
    Hub.put { s with
      channels := Function.update s.channels k { s.channels k with closed := true } } = s.put := by
  ext1 k'
  by_cases hk : k' = k
  · subst hk
    simp [Hub.put]
  · simp [Hub.put, hk]

section
variable (device : Nat → Id16)

/-- A call, made by a session of the device `device k` or, for `try_send`, by anybody.  There is no
    answer when the session cannot make the call; otherwise the answer is that of `activate`, and
    `true` for the calls that return nothing. -/
def connectionStep (s : Hub) : RegistryCall → Option Bool × Hub
  | .draw k =>
    match s.stages k with
    | .idle =>
      let (id, connections) := s.connections.fetchId
      (some true, { s with connections, stages := Function.update s.stages k (.numbered id) })
    | _ => (none, s)
  | .insert k =>
    match s.stages k with
    | .numbered id =>
      (some true, { s with
        connections := s.connections.register (device k) id k
        stages := Function.update s.stages k (.registered id) })
    | _ => (none, s)
  | .activate k delivered =>
    match s.stages k with
    | .registered id =>
      let (active, connections, channels) :=
        s.connections.activate s.channels (device k) id delivered
      (some active, { s with connections, channels })
    | _ => (none, s)
  | .trySend d message =>
    let (connections, channels) := s.connections.trySend s.channels d message
    (some true, { s with connections, channels })
  | .unregister k =>
    match s.stages k with
    | .registered id =>
      (some true, { s with connections := s.connections.unregister (device k) id })
    | _ => (none, s)
  | .receive k =>
    match (s.channels k).queue with
    | [] => (none, s)
    | message :: rest =>
      (some true, { s with
        channels := Function.update s.channels k { s.channels k with queue := rest }
        received := Function.update s.received k (s.received k ++ [message]) })
  | .drop k =>
    (some true, { s with
      channels := Function.update s.channels k { s.channels k with closed := true } })

/-! ### What the calls tell -/

/-- What a history of calls says: which session was inserted last for a device, which sessions have
    unregistered and which were activated, and the messages that were sent to the device of a
    session while it was the last one inserted. -/
structure Story where
  latest : Id16 → Option Nat
  left : Nat → Bool
  activated : Nat → Bool
  sent : Nat → List EncryptedMessage

def Story.start : Story := ⟨fun _ => none, fun _ => false, fun _ => false, fun _ => []⟩

def Story.next (h : Story) : RegistryCall × Option Bool → Story
  | (.insert k, some _) => { h with latest := Function.update h.latest (device k) (some k) }
  | (.activate k _, some true) => { h with activated := Function.update h.activated k true }
  | (.unregister k, some _) => { h with left := Function.update h.left k true }
  | (.trySend d message, _) =>
    match h.latest d with
    | none => h
    | some k => { h with sent := Function.update h.sent k (h.sent k ++ [message]) }
  | _ => h

/-- The story of a history. -/
def story (log : List (RegistryCall × Option Bool)) : Story :=
  log.foldl (Story.next device) Story.start

end

/-- How many numbers were drawn. -/
def draws (log : List (RegistryCall × Option Bool)) : Nat :=
  log.countP fun
    | (.draw _, some _) => true
    | _ => false

/-! ### Numbers -/

/-- The session has drawn the number. -/
def Hub.Holds (s : Hub) (k : Nat) (id : UInt64) : Prop :=
  s.stages k = .numbered id ∨ s.stages k = .registered id

/-- After `n` draws the sessions hold different numbers, up to `n`. -/
abbrev Numbered (n : Nat) (s : Hub) : Prop := Issued n s.connections.nextId s.Holds

section
variable {device : Nat → Id16} {s : Hub} {n : Nat}

theorem Numbered.congr (h : Numbered n s) {s' : Hub}
    (hnext : s'.connections.nextId = s.connections.nextId)
    (hholds : ∀ k id, s'.Holds k id → s.Holds k id) : Numbered n s' := by
  unfold Numbered
  rw [hnext]
  exact Issued.mono h hholds

/-- A session that draws gets a number that nobody holds, as long as there are any. -/
theorem Numbered.draw (h : Numbered n s) (hn : n + 1 < 2 ^ 64) (k : Nat) :
    Numbered (n + 1)
      { s with
        connections := s.connections.fetchId.2
        stages := Function.update s.stages k (.numbered s.connections.fetchId.1) } := by
  refine Issued.draw (k := k) h hn fun j id hj => ?_
  by_cases hjk : j = k
  · subst hjk
    have hid : id = s.connections.fetchId.1 := by simpa [Hub.Holds, eq_comm] using hj
    exact .inl ⟨rfl, hid⟩
  · right
    simpa [Hub.Holds, hjk] using hj

theorem draws_concat (log : List (RegistryCall × Option Bool))
    (entry : RegistryCall × Option Bool) : draws (log ++ [entry]) = draws log + draws [entry] :=
  List.countP_append

/-- **Step.** -/
theorem Numbered.step (h : Numbered n s) (call : RegistryCall)
    (hn : n + draws [(call, (connectionStep device s call).1)] < 2 ^ 64) :
    Numbered (n + draws [(call, (connectionStep device s call).1)])
      (connectionStep device s call).2 := by
  cases call with
  | draw k =>
    cases hstage : s.stages k with
    | idle =>
      have hdraw : connectionStep device s (.draw k) = (some true, { s with
          connections := s.connections.fetchId.2
          stages := Function.update s.stages k (.numbered s.connections.fetchId.1) }) := by
        simp only [connectionStep, hstage]
      rw [hdraw] at hn ⊢
      exact h.draw hn k
    | numbered id =>
      rw [show connectionStep device s (.draw k) = (none, s) by simp only [connectionStep, hstage]]
      exact h
    | registered id =>
      rw [show connectionStep device s (.draw k) = (none, s) by simp only [connectionStep, hstage]]
      exact h
  | insert k =>
    simp only [connectionStep]
    split
    · rename_i id hstage
      show Numbered n _
      refine Numbered.congr h rfl ?_
      intro k' id' hk
      by_cases hkk : k' = k
      · subst hkk
        have hid : id' = id := by simpa [Hub.Holds, eq_comm] using hk
        rw [hid]
        exact .inl hstage
      · simpa [Hub.Holds, hkk] using hk
    · exact h
  | activate k delivered =>
    simp only [connectionStep]
    split
    · exact Numbered.congr (n := n) h (nextId_activate _ _ _ _ _) fun _ _ hk => hk
    · exact h
  | trySend d message => exact h.congr (nextId_trySend _ _ _ _) fun _ _ hk => hk
  | unregister k =>
    simp only [connectionStep]
    split
    · exact h.congr (nextId_unregister _ _ _) fun _ _ hk => hk
    · exact h
  | receive k =>
    simp only [connectionStep]
    split
    · exact h
    · exact h.congr rfl fun _ _ hk => hk
  | drop k => exact h.congr rfl fun _ _ hk => hk

end

/-! ### The registry follows the story -/

/-- The registry, when sessions have made the calls of a story. -/
structure Follows (device : Nat → Id16) (h : Story) (s : Hub) : Prop where
  /-- an entry is that of the last session inserted, which has not unregistered -/
  entry : ∀ d state, s.connections.inner.lookup d = some state →
    h.latest d = some state.sender ∧ h.left state.sender = false ∧
      s.stages state.sender = .registered state.id
  /-- and it is there until that session unregisters -/
  gone : ∀ d k, h.latest d = some k → s.connections.inner.lookup d = none → h.left k = true
  own : ∀ d k, h.latest d = some k → device k = d
  registered : ∀ k, h.left k = true ∨ h.latest (device k) = some k →
    ∃ id, s.stages k = .registered id
  early : ∀ k, (∀ id, s.stages k ≠ .registered id) → s.put k = []
  /-- nothing is put into a channel before its session is activated -/
  waiting : ∀ d state, s.connections.inner.lookup d = some state → state.ready = false →
    s.put state.sender = []
  ready : ∀ d state, s.connections.inner.lookup d = some state → state.ready = true →
    h.activated state.sender = true ∧ state.pending = []
  /-- and then what was sent, in order -/
  pending : ∀ d state, s.connections.inner.lookup d = some state →
    (s.put state.sender ++ state.pending).Sublist (h.sent state.sender)
  order : ∀ k, (s.put k).Sublist (h.sent k)

section
variable {device : Nat → Id16} {h : Story} {s : Hub}

theorem numbered_start : Numbered 0 Hub.start :=
  Issued.start fun k id hk => by simp [Hub.Holds, Hub.start] at hk

theorem follows_start : Follows device Story.start Hub.start where
  entry d state hlook := by
    rw [show Hub.start.connections.inner.lookup d = none from lookup_empty_eq d] at hlook
    exact absurd hlook (by simp)
  gone d k hlatest := absurd hlatest (by simp [Story.start])
  own d k hlatest := absurd hlatest (by simp [Story.start])
  registered k hk := by simp [Story.start] at hk
  early k _ := rfl
  waiting d state hlook := by
    rw [show Hub.start.connections.inner.lookup d = none from lookup_empty_eq d] at hlook
    exact absurd hlook (by simp)
  ready d state hlook := by
    rw [show Hub.start.connections.inner.lookup d = none from lookup_empty_eq d] at hlook
    exact absurd hlook (by simp)
  pending d state hlook := by
    rw [show Hub.start.connections.inner.lookup d = none from lookup_empty_eq d] at hlook
    exact absurd hlook (by simp)
  order k := List.Sublist.refl _

/-- Where the entry of one device is replaced, an entry is the new one or an old one of another
    device. -/
theorem replaced_cases {m m' : HashMap Id16 ConnectionState} {d₀ : Id16} {new : ConnectionState}
    (hentries : ∀ d, m'.lookup d = if d = d₀ then some new else m.lookup d) {d : Id16}
    {state : ConnectionState} (hlook : m'.lookup d = some state) :
    d = d₀ ∧ state = new ∨ d ≠ d₀ ∧ m.lookup d = some state := by
  rw [hentries] at hlook
  by_cases hd : d = d₀
  · rw [if_pos hd] at hlook
    exact .inl ⟨hd, (Option.some.inj hlook).symm⟩
  · rw [if_neg hd] at hlook
    exact .inr ⟨hd, hlook⟩

theorem replaced_none {m m' : HashMap Id16 ConnectionState} {d₀ : Id16} {new : ConnectionState}
    (hentries : ∀ d, m'.lookup d = if d = d₀ then some new else m.lookup d) {d : Id16}
    (hnone : m'.lookup d = none) : d ≠ d₀ ∧ m.lookup d = none := by
  rw [hentries] at hnone
  by_cases hd : d = d₀
  · rw [if_pos hd] at hnone
    exact absurd hnone (by simp)
  · rw [if_neg hd] at hnone
    exact ⟨hd, hnone⟩

/-- An entry of a device is that of a session of the device. -/
theorem Follows.device_eq (hf : Follows device h s) {d : Id16} {state : ConnectionState}
    (hlook : s.connections.inner.lookup d = some state) : device state.sender = d :=
  hf.own d _ (hf.entry d state hlook).1

/-- A session has one entry. -/
theorem Follows.entry_unique (hf : Follows device h s) {d d' : Id16}
    {state state' : ConnectionState} (hlook : s.connections.inner.lookup d = some state)
    (hlook' : s.connections.inner.lookup d' = some state')
    (hsame : state'.sender = state.sender) : state' = state := by
  have hd : d' = d := by rw [← hf.device_eq hlook', hsame, hf.device_eq hlook]
  rw [hd, hlook] at hlook'
  exact (Option.some.inj hlook').symm

/-- A step that changes neither entries nor stages, nor what was put into any channel. -/
theorem Follows.congr (hf : Follows device h s) {s' : Hub}
    (hentries : s'.connections.inner = s.connections.inner) (hstages : s'.stages = s.stages)
    (hput : s'.put = s.put) : Follows device h s' where
  entry := by rw [hentries, hstages]; exact hf.entry
  gone := by rw [hentries]; exact hf.gone
  own := hf.own
  registered := by rw [hstages]; exact hf.registered
  early := by rw [hstages, hput]; exact hf.early
  waiting := by rw [hentries, hput]; exact hf.waiting
  ready := by rw [hentries]; exact hf.ready
  pending := by rw [hentries, hput]; exact hf.pending
  order := by rw [hput]; exact hf.order

/-- A session that was not registered moves on; those that were keep their stage. -/
theorem still_registered {k : Nat} (hfirst : ∀ id, s.stages k ≠ .registered id) (stage : Stage)
    (k' : Nat) (id' : UInt64) (hk : s.stages k' = .registered id') :
    Function.update s.stages k stage k' = .registered id' := by
  have hne : k' ≠ k := by
    rintro rfl
    exact hfirst id' hk
  rw [Function.update_of_ne hne, hk]

theorem Follows.draw (hf : Follows device h s) {k : Nat} (hstage : s.stages k = .idle)
    (id : UInt64) : Follows device h
      { s with
        connections := s.connections.fetchId.2
        stages := Function.update s.stages k (.numbered id) } := by
  have hfirst (id' : UInt64) : s.stages k ≠ .registered id' := by rw [hstage]; simp
  have hstill := @still_registered s k hfirst (.numbered id)
  constructor
  case entry =>
    intro d state hlook
    obtain ⟨hlatest, hleft, hsender⟩ := hf.entry d state hlook
    exact ⟨hlatest, hleft, hstill _ _ hsender⟩
  case gone => exact hf.gone
  case own => exact hf.own
  case registered =>
    intro k' hk
    obtain ⟨id', hid⟩ := hf.registered k' hk
    exact ⟨id', hstill k' id' hid⟩
  case early =>
    intro k' hk
    refine hf.early k' fun id' hid => ?_
    exact hk id' (hstill k' id' hid)
  case waiting => exact hf.waiting
  case ready => exact hf.ready
  case pending => exact hf.pending
  case order => exact hf.order

theorem Follows.insert (hf : Follows device h s) {k : Nat} {id : UInt64}
    (hstage : s.stages k = .numbered id) : Follows device
      { h with latest := Function.update h.latest (device k) (some k) }
      { s with
        connections := s.connections.register (device k) id k
        stages := Function.update s.stages k (.registered id) } := by
  have hfirst (id' : UInt64) : s.stages k ≠ .registered id' := by rw [hstage]; simp
  have hempty : s.put k = [] := hf.early k hfirst
  have hstays : h.left k = false := by
    cases hleft : h.left k with
    | false => rfl
    | true =>
      obtain ⟨id', hid⟩ := hf.registered k (.inl hleft)
      exact absurd hid (hfirst id')
  have hstill := @still_registered s k hfirst (.registered id)
  have hentries (d : Id16) := register_lookup s.connections (device k) d id k
  have hlast (d : Id16) (k' : Nat)
      (hlatest : Function.update h.latest (device k) (some k) d = some k') :
      d = device k ∧ k' = k ∨ h.latest d = some k' := by
    by_cases hd : d = device k
    · subst hd
      rw [Function.update_self] at hlatest
      exact .inl ⟨rfl, (Option.some.inj hlatest).symm⟩
    · rw [Function.update_of_ne hd] at hlatest
      exact .inr hlatest
  constructor
  case entry =>
    intro d state hlook
    rcases replaced_cases hentries hlook with ⟨rfl, rfl⟩ | ⟨hd, hlook⟩
    · exact ⟨Function.update_self _ _ _, hstays, Function.update_self _ _ _⟩
    · obtain ⟨hlatest, hleft, hsender⟩ := hf.entry d state hlook
      exact ⟨(Function.update_of_ne hd _ _).trans hlatest, hleft, hstill _ _ hsender⟩
  case gone =>
    intro d k' hlatest hlook
    obtain ⟨hd, hbefore⟩ := replaced_none hentries hlook
    rcases hlast d k' hlatest with ⟨rfl, -⟩ | hold
    · exact absurd rfl hd
    · exact hf.gone d k' hold hbefore
  case own =>
    intro d k' hlatest
    rcases hlast d k' hlatest with ⟨rfl, rfl⟩ | hold
    · rfl
    · exact hf.own d k' hold
  case registered =>
    intro k' hk
    by_cases hkk : k' = k
    · subst hkk
      exact ⟨id, Function.update_self _ _ _⟩
    · have hbefore : h.left k' = true ∨ h.latest (device k') = some k' := by
        refine hk.imp_right fun hlatest => ?_
        rcases hlast (device k') k' hlatest with ⟨-, heq⟩ | hold
        · exact absurd heq hkk
        · exact hold
      obtain ⟨id', hid⟩ := hf.registered k' hbefore
      exact ⟨id', hstill k' id' hid⟩
  case early =>
    intro k' hk
    exact hf.early k' fun id' hid => hk id' (hstill k' id' hid)
  case waiting =>
    intro d state hlook hready
    rcases replaced_cases hentries hlook with ⟨rfl, rfl⟩ | ⟨-, hlook⟩
    · exact hempty
    · exact hf.waiting d state hlook hready
  case ready =>
    intro d state hlook hready
    rcases replaced_cases hentries hlook with ⟨rfl, rfl⟩ | ⟨-, hlook⟩
    · exact absurd hready (by simp)
    · exact hf.ready d state hlook hready
  case pending =>
    intro d state hlook
    rcases replaced_cases hentries hlook with ⟨rfl, rfl⟩ | ⟨-, hlook⟩
    · show (s.put k ++ []).Sublist (h.sent k)
      rw [hempty]
      exact List.nil_sublist _
    · exact hf.pending d state hlook
  case order => exact hf.order

/-- The entry with the number of a registered session is its own. -/
theorem Follows.sender_eq (hf : Follows device h s) (hn : Numbered n s) {k : Nat} {id : UInt64}
    (hstage : s.stages k = .registered id) {d : Id16} {state : ConnectionState}
    (hlook : s.connections.inner.lookup d = some state) (hid : state.id = id) :
    state.sender = k := by
  obtain ⟨-, -, hsender⟩ := hf.entry d state hlook
  rw [hid] at hsender
  exact hn.unique state.sender k id (.inr hsender) (.inr hstage)

/-- A session that is activated: its entry is ready, its channel gets some of what waited, and
    nothing else changes. -/
theorem Follows.activated (hf : Follows device h s) {k : Nat} {state : ConnectionState}
    (hlook : s.connections.inner.lookup (device k) = some state) (hsender : state.sender = k)
    {s' : Hub} (hstages : s'.stages = s.stages)
    (hentries : ∀ d, s'.connections.inner.lookup d =
      if d = device k then some { state with pending := [], ready := true }
      else s.connections.inner.lookup d)
    {taken : List EncryptedMessage} (htaken : taken.Sublist state.pending)
    (hput : s'.put k = s.put k ++ taken) (hother : ∀ k', k' ≠ k → s'.put k' = s.put k') :
    Follows device { h with activated := Function.update h.activated k true } s' := by
  have hcases (d : Id16) (state' : ConnectionState)
      (hlook' : s'.connections.inner.lookup d = some state') :
      d = device k ∧ state' = { state with pending := [], ready := true } ∨
        state'.sender ≠ k ∧ s.connections.inner.lookup d = some state' := by
    rcases replaced_cases hentries hlook' with hnew | ⟨hd, hold⟩
    · exact .inl hnew
    · refine .inr ⟨?_, hold⟩
      rintro rfl
      exact hd (hf.device_eq hold).symm
  have hpending := hf.pending (device k) state hlook
  rw [hsender] at hpending
  constructor
  case entry =>
    intro d state' hlook'
    rw [hstages]
    rcases hcases d state' hlook' with ⟨rfl, rfl⟩ | ⟨-, hold⟩
    · exact hf.entry _ state hlook
    · exact hf.entry d state' hold
  case gone =>
    intro d k' hlatest hnone
    exact hf.gone d k' hlatest (replaced_none hentries hnone).2
  case own => exact hf.own
  case registered =>
    rw [hstages]
    exact hf.registered
  case early =>
    intro k' hk
    rw [hstages] at hk
    have hne : k' ≠ k := by
      rintro rfl
      obtain ⟨-, -, hstage⟩ := hf.entry _ state hlook
      rw [hsender] at hstage
      exact hk _ hstage
    rw [hother k' hne]
    exact hf.early k' hk
  case waiting =>
    intro d state' hlook' hready
    rcases hcases d state' hlook' with ⟨rfl, rfl⟩ | ⟨hne, hold⟩
    · exact absurd hready (by simp)
    · rw [hother _ hne]
      exact hf.waiting d state' hold hready
  case ready =>
    intro d state' hlook' hready
    rcases hcases d state' hlook' with ⟨rfl, rfl⟩ | ⟨hne, hold⟩
    · refine ⟨?_, rfl⟩
      show Function.update h.activated k true state.sender = true
      rw [hsender, Function.update_self]
    · obtain ⟨hactivated, hnil⟩ := hf.ready d state' hold hready
      exact ⟨(Function.update_of_ne hne _ _).trans hactivated, hnil⟩
  case pending =>
    intro d state' hlook'
    rcases hcases d state' hlook' with ⟨rfl, rfl⟩ | ⟨hne, hold⟩
    · show (s'.put state.sender ++ []).Sublist (h.sent state.sender)
      rw [hsender, List.append_nil, hput]
      exact (htaken.append_left _).trans hpending
    · rw [hother _ hne]
      exact hf.pending d state' hold
  case order =>
    intro k'
    by_cases hk : k' = k
    · rw [hk, hput]
      exact (htaken.append_left _).trans hpending
    · rw [hother k' hk]
      exact hf.order k'

theorem Follows.activate (hf : Follows device h s) (hn : Numbered n s) {k : Nat} {id : UInt64}
    (hstage : s.stages k = .registered id) (delivered : List Id16) : Follows device
      (h.next device (.activate k delivered,
        some (s.connections.activate s.channels (device k) id delivered).1))
      { s with
        connections := (s.connections.activate s.channels (device k) id delivered).2.1
        channels := (s.connections.activate s.channels (device k) id delivered).2.2 } := by
  rcases activate_cases s.connections s.channels (device k) id delivered with
    ⟨state, hlook, hid, hanswer, hentries, hchannels⟩ | ⟨-, hfalse⟩
  · have hsender : state.sender = k := hf.sender_eq hn hstage hlook hid
    obtain ⟨taken, htaken, hqueue⟩ := sendAll_queue (s.channels k)
      (state.pending.filter fun m => m.messageId ∉ delivered)
    rw [hanswer]
    refine hf.activated hlook hsender rfl hentries (htaken.trans List.filter_sublist) ?_ ?_
    · exact put_append rfl (((congrArg Channel.queue (hchannels k)).trans
        (by rw [if_pos hsender.symm])).trans hqueue)
    · intro k' hk
      exact put_congr rfl ((congrArg Channel.queue (hchannels k')).trans
        (by rw [if_neg (by rwa [hsender])]))
  · rw [hfalse]
    exact hf

theorem Follows.sent_mono (hf : Follows device h s) {sent : Nat → List EncryptedMessage}
    (hmono : ∀ k, (h.sent k).Sublist (sent k)) : Follows device { h with sent } s where
  entry := hf.entry
  gone := hf.gone
  own := hf.own
  registered := hf.registered
  early := hf.early
  waiting := hf.waiting
  ready := hf.ready
  pending d state hlook := (hf.pending d state hlook).trans (hmono _)
  order k := (hf.order k).trans (hmono k)

theorem sent_sublist (sent : Nat → List EncryptedMessage) (k : Nat) (message : EncryptedMessage)
    (k' : Nat) : (sent k').Sublist (Function.update sent k (sent k ++ [message]) k') := by
  by_cases hk : k' = k
  · subst hk
    rw [Function.update_self]
    exact List.sublist_append_left _ _
  · rw [Function.update_of_ne hk]

/-- A message for a ready connection goes to its channel. -/
theorem Follows.passed (hf : Follows device h s) {d : Id16} {state : ConnectionState}
    (hlook : s.connections.inner.lookup d = some state) (hready : state.ready = true)
    {message : EncryptedMessage} {taken : List EncryptedMessage} (htaken : taken.Sublist [message])
    {s' : Hub} (hentries : s'.connections.inner = s.connections.inner)
    (hstages : s'.stages = s.stages) (hput : s'.put state.sender = s.put state.sender ++ taken)
    (hother : ∀ k, k ≠ state.sender → s'.put k = s.put k) :
    Follows device
      { h with sent := Function.update h.sent state.sender (h.sent state.sender ++ [message]) }
      s' := by
  have hm := hf.sent_mono (sent_sublist h.sent state.sender message)
  have hsent : (s'.put state.sender).Sublist (Function.update h.sent state.sender
      (h.sent state.sender ++ [message]) state.sender) := by
    rw [hput, Function.update_self]
    exact (hf.order state.sender).append htaken
  constructor
  case entry =>
    rw [hentries, hstages]
    exact hf.entry
  case gone =>
    rw [hentries]
    exact hf.gone
  case own => exact hf.own
  case registered =>
    rw [hstages]
    exact hf.registered
  case early =>
    intro k hk
    rw [hstages] at hk
    have hne : k ≠ state.sender := by
      rintro rfl
      exact hk _ (hf.entry d state hlook).2.2
    rw [hother k hne]
    exact hf.early k hk
  case waiting =>
    intro d' state' hlook' hready'
    rw [hentries] at hlook'
    have hne : state'.sender ≠ state.sender := by
      intro heq
      rw [hf.entry_unique hlook hlook' heq, hready] at hready'
      exact absurd hready' (by simp)
    rw [hother _ hne]
    exact hf.waiting d' state' hlook' hready'
  case ready =>
    rw [hentries]
    exact hf.ready
  case pending =>
    intro d' state' hlook'
    rw [hentries] at hlook'
    by_cases heq : state'.sender = state.sender
    · rw [hf.entry_unique hlook hlook' heq, (hf.ready d state hlook hready).2, List.append_nil]
      exact hsent
    · rw [hother _ heq]
      exact hm.pending d' state' hlook'
  case order =>
    intro k
    by_cases hk : k = state.sender
    · rw [hk]
      exact hsent
    · rw [hother k hk]
      exact hm.order k

/-- A message for a connection that is not ready waits in its entry. -/
theorem Follows.kept (hf : Follows device h s) {d : Id16} {state : ConnectionState}
    (hlook : s.connections.inner.lookup d = some state) (hready : state.ready = false)
    (message : EncryptedMessage) {s' : Hub}
    (hentries : ∀ d', s'.connections.inner.lookup d' =
      if d' = d then some { state with pending := state.pending ++ [message] }
      else s.connections.inner.lookup d')
    (hstages : s'.stages = s.stages) (hput : s'.put = s.put) :
    Follows device
      { h with sent := Function.update h.sent state.sender (h.sent state.sender ++ [message]) }
      s' := by
  have hm := hf.sent_mono (sent_sublist h.sent state.sender message)
  constructor
  case entry =>
    intro d' state' hlook'
    rw [hstages]
    rcases replaced_cases hentries hlook' with ⟨rfl, rfl⟩ | ⟨-, hold⟩
    · exact hf.entry d' state hlook
    · exact hf.entry d' state' hold
  case gone =>
    intro d' k hlatest hnone
    exact hf.gone d' k hlatest (replaced_none hentries hnone).2
  case own => exact hf.own
  case registered =>
    rw [hstages]
    exact hf.registered
  case early =>
    rw [hstages, hput]
    exact hf.early
  case waiting =>
    intro d' state' hlook' hready'
    rw [hput]
    rcases replaced_cases hentries hlook' with ⟨rfl, rfl⟩ | ⟨-, hold⟩
    · exact hf.waiting d' state hlook hready
    · exact hf.waiting d' state' hold hready'
  case ready =>
    intro d' state' hlook' hready'
    rcases replaced_cases hentries hlook' with ⟨rfl, rfl⟩ | ⟨-, hold⟩
    · exact absurd (hready.symm.trans hready') (by simp)
    · exact hf.ready d' state' hold hready'
  case pending =>
    intro d' state' hlook'
    rw [hput]
    rcases replaced_cases hentries hlook' with ⟨rfl, rfl⟩ | ⟨-, hold⟩
    · show (s.put state.sender ++ (state.pending ++ [message])).Sublist
        (Function.update h.sent state.sender (h.sent state.sender ++ [message]) state.sender)
      rw [Function.update_self, ← List.append_assoc]
      exact (hf.pending d' state hlook).append_right _
    · exact hm.pending d' state' hold
  case order =>
    rw [hput]
    exact hm.order

theorem Follows.trySend (hf : Follows device h s) (d : Id16) (message : EncryptedMessage)
    (answer : Option Bool) : Follows device (h.next device (.trySend d message, answer))
      { s with
        connections := (s.connections.trySend s.channels d message).1
        channels := (s.connections.trySend s.channels d message).2 } := by
  have hopen := ConnectionRegistry.trySend.eq_1 s.connections s.channels d message
  cases hlook : s.connections.inner.lookup d with
  | none =>
    rw [hlook] at hopen
    rw [hopen]
    cases hlatest : h.latest d with
    | none => simpa only [Story.next, hlatest] using hf
    | some k =>
      simp only [Story.next, hlatest]
      exact hf.sent_mono (sent_sublist h.sent k message)
  | some state =>
    have hlatest := (hf.entry d state hlook).1
    simp only [Story.next, hlatest]
    simp only [hlook] at hopen
    cases hready : state.ready with
    | true =>
      rw [hready, Bool.not_true, if_neg Bool.false_ne_true] at hopen
      rw [hopen]
      obtain ⟨taken, htaken, hqueue⟩ := trySend_queue (s.channels state.sender) message
      refine hf.passed hlook hready htaken rfl rfl (put_append rfl ?_) fun k hk =>
        put_congr rfl ?_
      · rw [← hqueue]
        exact congrArg Channel.queue (Function.update_self _ _ _)
      · exact congrArg Channel.queue (Function.update_of_ne hk _ _)
    | false =>
      rw [hready, Bool.not_false, if_pos rfl] at hopen
      by_cases hroom : state.pending.length < liveChannelCapacity
      · rw [if_pos hroom] at hopen
        rw [hopen]
        refine hf.kept hlook hready message (fun d' => ?_) rfl rfl
        rw [hready]
        exact lookup_insert_eq _ _ _ _
      · rw [if_neg hroom] at hopen
        rw [hopen]
        exact hf.sent_mono (sent_sublist h.sent state.sender message)

/-- A session that unregisters takes its own entry away, and no other. -/
theorem Follows.unregister (hf : Follows device h s) (hn : Numbered n s) {k : Nat} {id : UInt64}
    (hstage : s.stages k = .registered id) : Follows device
      { h with left := Function.update h.left k true }
      { s with connections := s.connections.unregister (device k) id } := by
  have hcases (d : Id16) (state : ConnectionState)
      (hlook : (s.connections.unregister (device k) id).inner.lookup d = some state) :
      state.sender ≠ k ∧ s.connections.inner.lookup d = some state := by
    rw [unregister_lookup] at hlook
    split at hlook
    · exact absurd hlook (by simp)
    · rename_i hkeep
      refine ⟨?_, hlook⟩
      rintro rfl
      obtain ⟨-, -, hsender⟩ := hf.entry d state hlook
      have hid : state.id = id := by
        rw [hsender] at hstage
        exact Stage.registered.inj hstage
      exact hkeep ⟨(hf.device_eq hlook).symm, by simp [hlook, hid]⟩
  constructor
  case entry =>
    intro d state hlook
    obtain ⟨hne, hold⟩ := hcases d state hlook
    obtain ⟨hlatest, hleft, hsender⟩ := hf.entry d state hold
    exact ⟨hlatest, (Function.update_of_ne hne _ _).trans hleft, hsender⟩
  case gone =>
    intro d k' hlatest hnone
    show Function.update h.left k true k' = true
    by_cases hk : k' = k
    · rw [hk, Function.update_self]
    · rw [Function.update_of_ne hk]
      cases hlook : s.connections.inner.lookup d with
      | none => exact hf.gone d k' hlatest hlook
      | some state =>
        -- the entry that went has the number of the session, so it is the session's
        have hnone := (unregister_lookup _ _ _ _).symm.trans hnone
        rw [hlook] at hnone
        split at hnone
        · rename_i hgone
          have hid : state.id = id := by simpa using hgone.2
          have hsame := hf.sender_eq hn hstage hlook hid
          have : some state.sender = some k' := (hf.entry d state hlook).1.symm.trans hlatest
          exact absurd ((Option.some.inj this).symm.trans hsame) hk
        · exact absurd hnone (by simp)
  case own => exact hf.own
  case registered =>
    intro k' hk
    by_cases heq : k' = k
    · exact ⟨id, heq ▸ hstage⟩
    · refine hf.registered k' (hk.imp_left fun hleft => ?_)
      exact (Function.update_of_ne heq _ _).symm.trans hleft
  case early => exact hf.early
  case waiting =>
    intro d state hlook
    exact hf.waiting d state (hcases d state hlook).2
  case ready =>
    intro d state hlook
    exact hf.ready d state (hcases d state hlook).2
  case pending =>
    intro d state hlook
    exact hf.pending d state (hcases d state hlook).2
  case order => exact hf.order

/-- **Step.** -/
theorem Follows.step (hf : Follows device h s) (hn : Numbered n s) (call : RegistryCall) :
    Follows device (h.next device (call, (connectionStep device s call).1))
      (connectionStep device s call).2 := by
  cases call with
  | draw k =>
    simp only [connectionStep]
    split
    · rename_i hstage
      exact hf.draw hstage _
    · exact hf
  | insert k =>
    simp only [connectionStep]
    split
    · rename_i id hstage
      exact hf.insert hstage
    · exact hf
  | activate k delivered =>
    simp only [connectionStep]
    split
    · rename_i id hstage
      exact hf.activate hn hstage delivered
    · exact hf
  | trySend d message => exact hf.trySend d message _
  | unregister k =>
    simp only [connectionStep]
    split
    · rename_i id hstage
      exact hf.unregister hn hstage
    · exact hf
  | receive k =>
    simp only [connectionStep]
    split
    · exact hf
    · rename_i message rest hqueue
      exact Follows.congr hf rfl rfl (put_received hqueue)
  | drop k => exact Follows.congr hf rfl rfl (put_dropped s k)

end

/-! ### Runs -/

section
variable (device : Nat → Id16)

theorem story_concat (log : List (RegistryCall × Option Bool))
    (entry : RegistryCall × Option Bool) :
    story device (log ++ [entry]) = (story device log).next device entry := by
  rw [story, List.foldl_append]
  rfl

theorem draws_mono {log log' : List (RegistryCall × Option Bool)} (h : log <+: log') :
    draws log ≤ draws log' :=
  h.sublist.countP_le

/-- The run of some calls from the start: what it says, and where it leads. -/
def runStory (calls : List RegistryCall) : Story :=
  story device (trace (connectionStep device) Hub.start calls)

def runHub (calls : List RegistryCall) : Hub := after (connectionStep device) Hub.start calls

def runDraws (calls : List RegistryCall) : Nat :=
  draws (trace (connectionStep device) Hub.start calls)

/-- **Run.** With fewer than 2^64 numbers drawn the registry follows the story. -/
theorem run_follows {calls : List RegistryCall} (hdraws : runDraws device calls < 2 ^ 64) :
    Numbered (runDraws device calls) (runHub device calls) ∧
      Follows device (runStory device calls) (runHub device calls) := by
  refine history_invariant
    (R := fun log s => Numbered (draws log) s ∧ Follows device (story device log) s)
    ⟨numbered_start, follows_start⟩ calls ?_
  intro pre call hpre ⟨hn, hf⟩
  have hle := draws_mono (trace_mono (connectionStep device) Hub.start hpre)
  rw [trace_concat, draws_concat] at hle
  rw [draws_concat, story_concat]
  exact ⟨hn.step call (hle.trans_lt hdraws), hf.step hn call⟩

end

section
variable {device : Nat → Id16} {h : Story} {s : Hub} {n : Nat}

/-- A registered session that is not the last of its device finds another number in the entry. -/
theorem Follows.stale_ne (hf : Follows device h s) (hn : Numbered n s) {k : Nat} {id : UInt64}
    (hstage : s.stages k = .registered id) (hstale : h.latest (device k) ≠ some k)
    (state : ConnectionState) (hlook : s.connections.inner.lookup (device k) = some state) :
    state.id ≠ id := by
  intro hid
  have hsender := hf.sender_eq hn hstage hlook hid
  obtain ⟨hlatest, -, -⟩ := hf.entry _ state hlook
  exact hstale (hsender ▸ hlatest)

/-- Its calls change nothing. -/
theorem Follows.stale_activate (hf : Follows device h s) (hn : Numbered n s) {k : Nat}
    {id : UInt64} (hstage : s.stages k = .registered id)
    (hstale : h.latest (device k) ≠ some k) (delivered : List Id16) :
    connectionStep device s (.activate k delivered) = (some false, s) := by
  rcases activate_cases s.connections s.channels (device k) id delivered with
    ⟨state, hlook, hid, -⟩ | ⟨-, hfalse⟩
  · exact absurd hid (hf.stale_ne hn hstage hstale state hlook)
  · simp only [connectionStep, hstage, hfalse]

theorem Follows.stale_unregister (hf : Follows device h s) (hn : Numbered n s) {k : Nat}
    {id : UInt64} (hstage : s.stages k = .registered id)
    (hstale : h.latest (device k) ≠ some k) :
    connectionStep device s (.unregister k) = (some true, s) := by
  have hsame : s.connections.unregister (device k) id = s.connections := by
    unfold ConnectionRegistry.unregister
    cases hlook : s.connections.inner.lookup (device k) with
    | none => rfl
    | some state => exact if_neg (hf.stale_ne hn hstage hstale state hlook)
  simp only [connectionStep, hstage, hsame]

/-- A message is put into the channel of the last session only, by its activation or, once it is
    activated, by a message to its device. -/
theorem Follows.put_changed (hf : Follows device h s) (hn : Numbered n s) (call : RegistryCall)
    (k : Nat) (hput : (connectionStep device s call).2.put k ≠ s.put k) :
    h.latest (device k) = some k ∧
      ((∃ delivered, call = .activate k delivered ∧
          (connectionStep device s call).1 = some true) ∨
        (∃ message, call = .trySend (device k) message) ∧ h.activated k = true) := by
  cases call with
  | draw k' =>
    refine absurd ?_ hput
    simp only [connectionStep]
    split <;> rfl
  | insert k' =>
    refine absurd ?_ hput
    simp only [connectionStep]
    split <;> rfl
  | activate k' delivered =>
    simp only [connectionStep] at hput ⊢
    split at hput
    · rename_i id hstage
      rcases activate_cases s.connections s.channels (device k') id delivered with
        ⟨state, hlook, hid, hanswer, -, hchannels⟩ | ⟨-, hfalse⟩
      · have hsender := hf.sender_eq hn hstage hlook hid
        have hk : k = k' := by
          by_contra hk
          refine hput (put_congr rfl ((congrArg Channel.queue (hchannels k)).trans ?_))
          rw [if_neg (by rwa [hsender])]
        subst hk
        refine ⟨hsender ▸ (hf.entry _ state hlook).1, .inl ⟨delivered, rfl, ?_⟩⟩
        rw [hanswer]
      · rw [hfalse] at hput
        exact absurd rfl hput
    · exact absurd rfl hput
  | trySend d message =>
    have hchannel := trySend_channel s.connections s.channels d message k
    cases hlook : s.connections.inner.lookup d with
    | none =>
      rw [hlook, if_neg (by simp)] at hchannel
      refine absurd ?_ hput
      exact put_congr rfl (congrArg Channel.queue hchannel)
    | some state =>
      by_cases hready : state.ready = true ∧ state.sender = k
      · obtain ⟨hready, rfl⟩ := hready
        obtain rfl := hf.device_eq hlook
        exact ⟨(hf.entry _ state hlook).1, .inr ⟨⟨message, rfl⟩, (hf.ready _ state hlook hready).1⟩⟩
      · rw [hlook, if_neg (by simpa using hready)] at hchannel
        refine absurd ?_ hput
        exact put_congr rfl (congrArg Channel.queue hchannel)
  | unregister k' =>
    refine absurd ?_ hput
    simp only [connectionStep]
    split <;> rfl
  | receive k' =>
    refine absurd ?_ hput
    simp only [connectionStep]
    split
    · rfl
    · rename_i message rest hqueue
      exact congrFun (put_received hqueue) k
  | drop k' => exact absurd (congrFun (put_dropped s k') k) hput

end

/-- **Replaced sessions do no harm.**  In any run of fewer than 2^64 registrations: a device has the
    entry of the session inserted last, until this unregisters; a registered session that is not
    the last one changes nothing by `activate`, which returns `false`, or `unregister`; a call puts
    messages into a channel only if its session is the last one, at its activation or after; and
    what is put there was sent to the device after the session was inserted, in this order. -/
theorem stale_sessions_harmless (device : Nat → Id16) (calls : List RegistryCall)
    (hdraws : runDraws device calls < 2 ^ 64) :
    (∀ d, (runStory device calls).latest d = none →
      (runHub device calls).connections.inner.lookup d = none) ∧
    (∀ d k, (runStory device calls).latest d = some k →
      if (runStory device calls).left k then
        (runHub device calls).connections.inner.lookup d = none
      else ∃ state, (runHub device calls).connections.inner.lookup d = some state ∧
        state.sender = k ∧ (runHub device calls).stages k = .registered state.id) ∧
    (∀ k id, (runHub device calls).stages k = .registered id →
      (runStory device calls).latest (device k) ≠ some k →
      (∀ delivered, connectionStep device (runHub device calls) (.activate k delivered) =
        (some false, runHub device calls)) ∧
      connectionStep device (runHub device calls) (.unregister k) =
        (some true, runHub device calls)) ∧
    (∀ call k, (connectionStep device (runHub device calls) call).2.put k ≠
        (runHub device calls).put k →
      (runStory device calls).latest (device k) = some k ∧
        ((∃ delivered, call = .activate k delivered ∧
            (connectionStep device (runHub device calls) call).1 = some true) ∨
          (∃ message, call = .trySend (device k) message) ∧
            (runStory device calls).activated k = true)) ∧
    ∀ k, ((runHub device calls).put k).Sublist ((runStory device calls).sent k) := by
  obtain ⟨hn, hf⟩ := run_follows device hdraws
  refine ⟨?_, ?_, ?_, fun call k => hf.put_changed hn call k, hf.order⟩
  · intro d hlatest
    cases hlook : (runHub device calls).connections.inner.lookup d with
    | none => rfl
    | some state =>
      have hsome := (hf.entry d state hlook).1
      rw [hlatest] at hsome
      exact absurd hsome (by simp)
  · intro d k hlatest
    cases hlook : (runHub device calls).connections.inner.lookup d with
    | none =>
      rw [if_pos (hf.gone d k hlatest hlook)]
    | some state =>
      obtain ⟨hsome, hleft, hsender⟩ := hf.entry d state hlook
      obtain rfl := Option.some.inj (hlatest.symm.trans hsome)
      rw [if_neg (by simp [hleft])]
      exact ⟨state, rfl, rfl, hsender⟩
  · intro k id hstage hstale
    exact ⟨hf.stale_activate hn hstage hstale, hf.stale_unregister hn hstage hstale⟩

/-- Two sessions of one device, of which the one with the smaller number is inserted last: the
    entry is its own, and the other one cannot take it away. -/
theorem stale_sessions_harmless_sample :
    (∃ state, (runHub (fun _ => Vector.replicate 16 7)
        [.draw 0, .draw 1, .insert 1, .insert 0]).connections.inner.lookup
          (Vector.replicate 16 7) = some state ∧ state.sender = 0) ∧
      connectionStep (fun _ => Vector.replicate 16 7)
          (runHub (fun _ => Vector.replicate 16 7) [.draw 0, .draw 1, .insert 1, .insert 0])
          (.unregister 1) =
        (some true,
          runHub (fun _ => Vector.replicate 16 7) [.draw 0, .draw 1, .insert 1, .insert 0]) := by
  obtain ⟨-, hentry, hstale, -, -⟩ := stale_sessions_harmless (fun _ => Vector.replicate 16 7)
    [.draw 0, .draw 1, .insert 1, .insert 0] (by decide)
  constructor
  · have hlast := hentry (Vector.replicate 16 7) 0 (by decide)
    rw [if_neg (by decide)] at hlast
    obtain ⟨state, hlook, hsender, -⟩ := hlast
    exact ⟨state, hlook, hsender⟩
  · exact (hstale 1 2 rfl (by decide)).2

end NexaMessenger.Gateway.Replacement
