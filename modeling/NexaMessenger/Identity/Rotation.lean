import NexaMessenger.Lib.Machine
import NexaMessenger.Lib.Succession
import NexaMessenger.Lib.Word
import NexaMessenger.Identity.Keys

namespace NexaMessenger.Identity

open Lib

/-!
# Identity — rotation of the signed prekey

`SignedPrekeyStore` holds the current signed prekey and at most two retired ones, each until the
grace period given at its retirement is over.  Retired keys are dropped by `prune` and at the
start of every `rotate`, also of one that fails afterwards.

Told from the history, the keys of a store are a succession (`Lib.Succession`): each key is
installed under an id, and its tenure ends with the rotation that retires it, at a deadline.
`Follows` says that the store remembers this succession as far as any later call can ask for it,
and `withKey_eq` that `with_key` answers with the key that the id stands for.

The lock is never poisoned, since nothing under it panics, and a generated key is an argument.
-/

/-- `MAX_RETIRED_SIGNED_PREKEYS`. -/
def maxRetiredSignedPrekeys : Nat := 2

inductive SignedPrekeyStoreError
  | duplicateKeyId | notFound | invalidTime | generationOverflow | retiredCapacity | poisoned
deriving DecidableEq, Repr

structure SignedPrekeyEntry (x : X25519) where
  keyId : UInt32
  createdAtMs : UInt64
  expiresAtMs : Option UInt64
  key : SignedPrekey x
  record : SignedPrekeyRecord

/-- `SignedPrekeyState`, the state behind the lock of a `SignedPrekeyStore`. -/
structure SignedPrekeyStore (x : X25519) where
  current : SignedPrekeyEntry x
  retired : BTreeMap UInt32 (SignedPrekeyEntry x)

section
variable {x : X25519}

/-- The `retain` of `rotate` and `prune`: the entry has not expired. -/
def SignedPrekeyEntry.unexpired (entry : SignedPrekeyEntry x) (nowMs : UInt64) : Bool :=
  match entry.expiresAtMs with
  | none => true
  | some expires => nowMs < expires

namespace SignedPrekeyStore

/-- `SignedPrekeyStore::new`. -/
def new (signer : Signer) (identity : IdentityKey x) (keyId : UInt32) (nowMs : UInt64)
    (key : SignedPrekey x) : SignedPrekeyStore x where
  current := ⟨keyId, nowMs, none, key, publishableSignedPrekey signer identity keyId key⟩
  retired := ∅

/-- `SignedPrekeyStore::current_record`. -/
def currentRecord (s : SignedPrekeyStore x) : SignedPrekeyRecord := s.current.record

/-- `SignedPrekeyStore::with_key`. -/
def withKey {ρ : Type} (s : SignedPrekeyStore x) (keyId : UInt32) (nowMs : UInt64)
    (operation : SignedPrekey x → ρ) : Except SignedPrekeyStoreError ρ :=
  if s.current.keyId = keyId then .ok (operation s.current.key)
  else
    match s.retired[keyId]? with
    | none => .error .notFound
    | some entry => if entry.unexpired nowMs then .ok (operation entry.key) else .error .notFound

/-- The line that `rotate` and `prune` share: expired keys leave. -/
def retain (s : SignedPrekeyStore x) (nowMs : UInt64) : SignedPrekeyStore x :=
  { s with retired := s.retired.filter fun _ entry => entry.unexpired nowMs }

/-- The replacement at the end of `rotate`. -/
def replace (s : SignedPrekeyStore x) (entry : SignedPrekeyEntry x) (expiresAtMs : UInt64) :
    SignedPrekeyStore x where
  current := entry
  retired := s.retired.insert s.current.keyId { s.current with expiresAtMs := some expiresAtMs }

/-- `SignedPrekeyStore::rotate`. -/
def rotate (signer : Signer) (s : SignedPrekeyStore x) (identity : IdentityKey x)
    (newKeyId : UInt32) (nowMs graceMs : UInt64) (key : SignedPrekey x) :
    Except SignedPrekeyStoreError SignedPrekeyRecord × SignedPrekeyStore x :=
  let state := s.retain nowMs
  if newKeyId = state.current.keyId ∨ newKeyId ∈ state.retired then (.error .duplicateKeyId, state)
  else if nowMs < state.current.createdAtMs then (.error .invalidTime, state)
  else if maxRetiredSignedPrekeys ≤ state.retired.size then (.error .retiredCapacity, state)
  else
    match checkedAdd nowMs graceMs with
    | none => (.error .generationOverflow, state)
    | some expiresAtMs =>
      let record := publishableSignedPrekey signer identity newKeyId key
      (.ok record, state.replace ⟨newKeyId, nowMs, none, key, record⟩ expiresAtMs)

/-- `SignedPrekeyStore::prune`. -/
def prune (s : SignedPrekeyStore x) (nowMs : UInt64) : Nat × SignedPrekeyStore x :=
  let state := s.retain nowMs
  (s.retired.size - state.retired.size, state)

end SignedPrekeyStore

/-! ### The store as a machine -/

/-- A call on the store; the answer of `with_key` is the key its operation runs on. -/
inductive SignedPrekeyOp (x : X25519)
  | rotate (identity : IdentityKey x) (newKeyId : UInt32) (nowMs graceMs : UInt64)
      (key : SignedPrekey x)
  | prune (nowMs : UInt64)
  | withKey (keyId : UInt32) (nowMs : UInt64)

inductive SignedPrekeyAnswer (x : X25519)
  | rotated (result : Except SignedPrekeyStoreError SignedPrekeyRecord)
  | pruned (removed : Nat)
  | used (result : Except SignedPrekeyStoreError (SignedPrekey x))

/-- The time a call is given. -/
def SignedPrekeyOp.time : SignedPrekeyOp x → UInt64
  | .rotate _ _ nowMs _ _ => nowMs
  | .prune nowMs => nowMs
  | .withKey _ nowMs => nowMs

def rotationStep (signer : Signer) (s : SignedPrekeyStore x) :
    SignedPrekeyOp x → SignedPrekeyAnswer x × SignedPrekeyStore x
  | .rotate identity newKeyId nowMs graceMs key =>
    let (r, s') := s.rotate signer identity newKeyId nowMs graceMs key; (.rotated r, s')
  | .prune nowMs => let (n, s') := s.prune nowMs; (.pruned n, s')
  | .withKey keyId nowMs => (.used (s.withKey keyId nowMs id), s)

@[simp] theorem rotationStep_rotate (signer : Signer) (s : SignedPrekeyStore x)
    (identity : IdentityKey x) (newKeyId : UInt32) (nowMs graceMs : UInt64) (key : SignedPrekey x) :
    rotationStep signer s (.rotate identity newKeyId nowMs graceMs key) =
      (.rotated (s.rotate signer identity newKeyId nowMs graceMs key).1,
        (s.rotate signer identity newKeyId nowMs graceMs key).2) := rfl

/-- A key as it was installed: with the record that was returned for it. -/
structure Installed (x : X25519) where
  key : SignedPrekey x
  record : SignedPrekeyRecord

/-- What a call does to the succession of keys: a successful rotation ends the present tenure, at
    its time and the grace. -/
def install (h : Succession UInt32 (Installed x) Nat) :
    SignedPrekeyOp x × SignedPrekeyAnswer x → Succession UInt32 (Installed x) Nat
  | (.rotate _ newKeyId nowMs graceMs key, .rotated (.ok record)) =>
    h.succeed newKeyId ⟨key, record⟩ (nowMs.toNat + graceMs.toNat)
  | _ => h

/-- The succession of keys, told from a store that is new and the calls on it. -/
def succession (s : SignedPrekeyStore x)
    (calls : List (SignedPrekeyOp x × SignedPrekeyAnswer x)) :
    Succession UInt32 (Installed x) Nat :=
  calls.foldl install (.start s.current.keyId ⟨s.current.key, s.currentRecord⟩)

theorem succession_concat (s : SignedPrekeyStore x)
    (calls : List (SignedPrekeyOp x × SignedPrekeyAnswer x))
    (call : SignedPrekeyOp x × SignedPrekeyAnswer x) :
    succession s (calls ++ [call]) = install (succession s calls) call := by
  rw [succession, List.foldl_append]
  rfl

/-! ### What the calls do -/

/-- What a rotation does: it fails and only drops the expired keys, or it replaces the current key
    by one under an id that no key has. -/
theorem rotate_cases (signer : Signer) (s : SignedPrekeyStore x) (identity : IdentityKey x)
    (newKeyId : UInt32) (nowMs graceMs : UInt64) (key : SignedPrekey x) :
    (∃ e, s.rotate signer identity newKeyId nowMs graceMs key = (.error e, s.retain nowMs) ∧
      (e = .retiredCapacity → maxRetiredSignedPrekeys ≤ (s.retain nowMs).retired.size)) ∨
    ∃ expires : UInt64, expires.toNat = nowMs.toNat + graceMs.toNat ∧
      newKeyId ≠ s.current.keyId ∧ newKeyId ∉ (s.retain nowMs).retired ∧
      (s.retain nowMs).retired.size < maxRetiredSignedPrekeys ∧
      s.rotate signer identity newKeyId nowMs graceMs key =
        (.ok (publishableSignedPrekey signer identity newKeyId key),
          (s.retain nowMs).replace ⟨newKeyId, nowMs, none, key,
            publishableSignedPrekey signer identity newKeyId key⟩ expires) := by
  unfold SignedPrekeyStore.rotate
  dsimp only
  split
  · exact Or.inl ⟨_, rfl, by simp⟩
  rename_i hfresh
  split
  · exact Or.inl ⟨_, rfl, by simp⟩
  split
  · rename_i hfull
    exact Or.inl ⟨_, rfl, fun _ => hfull⟩
  rename_i hroom
  cases hexpires : checkedAdd nowMs graceMs with
  | none => exact Or.inl ⟨_, rfl, by simp⟩
  | some expires =>
    obtain ⟨hcurrent, hretired⟩ := not_or.mp hfresh
    exact Or.inr ⟨expires, checkedAdd_eq_some hexpires, hcurrent, hretired, not_le.mp hroom, rfl⟩

theorem unexpired_earlier {entry : SignedPrekeyEntry x} {nowMs later : UInt64}
    (hle : nowMs ≤ later) (h : entry.unexpired later = true) : entry.unexpired nowMs = true := by
  unfold SignedPrekeyEntry.unexpired at h ⊢
  cases hexpires : entry.expiresAtMs with
  | none => rfl
  | some expires =>
    rw [hexpires] at h
    simp only [decide_eq_true_eq, word_lt_iff, word_le_iff] at h hle ⊢
    omega

/-- What has expired at a time is not found at a later one anyway. -/
theorem withKey_retain {ρ : Type} (s : SignedPrekeyStore x) {nowMs later : UInt64}
    (hle : nowMs ≤ later) (keyId : UInt32) (operation : SignedPrekey x → ρ) :
    (s.retain nowMs).withKey keyId later operation = s.withKey keyId later operation := by
  unfold SignedPrekeyStore.withKey
  show (if s.current.keyId = keyId then _ else _) = _
  split
  · rfl
  have hlookup : (s.retain nowMs).retired[keyId]? =
      s.retired[keyId]?.filter fun entry => entry.unexpired nowMs := BTreeMap.get?_filter _ _ _
  rw [hlookup]
  cases s.retired[keyId]? with
  | none => rfl
  | some entry =>
    by_cases hlive : entry.unexpired nowMs = true
    · rw [Option.filter_some, if_pos hlive]
    · have hover : ¬ entry.unexpired later = true := fun h => hlive (unexpired_earlier hle h)
      rw [Option.filter_some, if_neg hlive]
      exact (if_neg hover).symm

/-! ### The store remembers the succession -/

/-- An entry with a deadline, as a tenure that has ended. -/
def SignedPrekeyEntry.tenure (entry : SignedPrekeyEntry x) :
    Option (Tenure UInt32 (Installed x) Nat) :=
  entry.expiresAtMs.map fun expires => ⟨entry.keyId, ⟨entry.key, entry.record⟩, expires.toNat⟩

/-- The past tenures that a store remembers. -/
def SignedPrekeyStore.remembered (s : SignedPrekeyStore x) (keyId : UInt32) :
    Option (Tenure UInt32 (Installed x) Nat) :=
  s.retired[keyId]?.bind (·.tenure)

/-- The store follows a succession: the current key is the present one, every retired key has a
    deadline, and the past is remembered but for deadlines that a call's time has reached. -/
structure Follows (h : Succession UInt32 (Installed x) Nat) (times : List UInt64)
    (s : SignedPrekeyStore x) : Prop where
  name : s.current.keyId = h.name
  holder : ⟨s.current.key, s.current.record⟩ = h.holder
  deadlines : ∀ (keyId : UInt32) (entry : SignedPrekeyEntry x), s.retired[keyId]? = some entry →
    entry.tenure.isSome
  keeps : h.Keeps s.remembered fun deadline => ∃ t ∈ times, deadline ≤ t.toNat
  bounded : s.retired.size ≤ maxRetiredSignedPrekeys

/-- An unexpired entry is one whose tenure ends later. -/
theorem unexpired_eq {entry : SignedPrekeyEntry x} {t : Tenure UInt32 (Installed x) Nat}
    (h : entry.tenure = some t) (nowMs : UInt64) :
    entry.unexpired nowMs = decide (nowMs.toNat < t.ended) := by
  unfold SignedPrekeyEntry.tenure at h
  unfold SignedPrekeyEntry.unexpired
  cases hexpires : entry.expiresAtMs with
  | none =>
    rw [hexpires] at h
    exact absurd h (by simp)
  | some expires =>
    rw [hexpires] at h
    obtain rfl := Option.some.inj h
    exact decide_eq_decide.mpr word_lt_iff

theorem remembered_retain {s : SignedPrekeyStore x}
    (hdeadlines : ∀ (keyId : UInt32) (entry : SignedPrekeyEntry x),
      s.retired[keyId]? = some entry → entry.tenure.isSome)
    (nowMs : UInt64) (keyId : UInt32) :
    (s.retain nowMs).remembered keyId =
      (s.remembered keyId).filter fun t => nowMs.toNat < t.ended := by
  have hlookup : (s.retain nowMs).retired[keyId]? =
      s.retired[keyId]?.filter fun entry => entry.unexpired nowMs := BTreeMap.get?_filter _ _ _
  unfold SignedPrekeyStore.remembered
  rw [hlookup]
  cases hentry : s.retired[keyId]? with
  | none => rfl
  | some entry =>
    obtain ⟨t, ht⟩ := Option.isSome_iff_exists.mp (hdeadlines keyId entry hentry)
    rw [Option.filter_some, unexpired_eq ht]
    show _ = Option.filter _ entry.tenure
    rw [ht, Option.filter_some]
    split
    · exact ht
    · rfl

/-- **A `retain`** drops tenures whose deadline its time has reached. -/
theorem Follows.retain {h : Succession UInt32 (Installed x) Nat} {times : List UInt64}
    {s : SignedPrekeyStore x} (hf : Follows h times s) (nowMs : UInt64) :
    Follows h (times ++ [nowMs]) (s.retain nowMs) where
  name := hf.name
  holder := hf.holder
  deadlines := by
    intro keyId entry hentry
    have hlookup : (s.retain nowMs).retired[keyId]? =
        s.retired[keyId]?.filter fun entry => entry.unexpired nowMs := BTreeMap.get?_filter _ _ _
    rw [hlookup] at hentry
    exact hf.deadlines keyId entry (Option.filter_eq_some_iff.mp hentry).1
  keeps := by
    have hkeeps := hf.keeps.mono (P := fun deadline => ∃ t ∈ times ++ [nowMs],
      deadline ≤ t.toNat) fun deadline ⟨t, ht, hle⟩ => ⟨t, List.mem_append_left _ ht, hle⟩
    have hforget := hkeeps.forget (fun deadline => nowMs.toNat < deadline) ?_
    · rw [funext (remembered_retain hf.deadlines nowMs)]
      exact hforget
    · intro deadline hlive
      exact ⟨nowMs, List.mem_append_right _ (List.mem_singleton.mpr rfl),
        not_lt.mp (of_decide_eq_false hlive)⟩
  bounded := Std.ExtTreeMap.size_filter_le_size.trans hf.bounded

/-- **A replacement** ends the present tenure and remembers it. -/
theorem Follows.replace {h : Succession UInt32 (Installed x) Nat} {times : List UInt64}
    {s : SignedPrekeyStore x} (hf : Follows h times s) (entry : SignedPrekeyEntry x)
    (hcurrent : entry.keyId ≠ s.current.keyId) (hfree : entry.keyId ∉ s.retired)
    (hroom : s.retired.size < maxRetiredSignedPrekeys) (expires : UInt64) :
    Follows (h.succeed entry.keyId ⟨entry.key, entry.record⟩ expires.toNat) times
      (s.replace entry expires) where
  name := rfl
  holder := rfl
  deadlines := by
    intro keyId e he
    have hlookup : (s.replace entry expires).retired[keyId]? = _ := BTreeMap.get?_insert _ _ _ _
    rw [hlookup] at he
    split at he
    · rw [← Option.some.inj he]
      rfl
    · exact hf.deadlines keyId e he
  keeps := by
    have hnone : s.remembered entry.keyId = none := by
      rw [SignedPrekeyStore.remembered, Std.ExtTreeMap.getElem?_eq_none hfree]
      rfl
    have hkeeps := hf.keeps.succeed (hf.name ▸ hcurrent) hnone ⟨entry.key, entry.record⟩
      expires.toNat
    refine (congrArg (fun kept => Succession.Keeps _ kept _) (funext fun keyId => ?_)).mpr hkeeps
    have hlookup : (s.replace entry expires).retired[keyId]? = _ := BTreeMap.get?_insert _ _ _ _
    rw [SignedPrekeyStore.remembered, hlookup, ← hf.name, ← hf.holder]
    split <;> rfl
  bounded := Std.ExtTreeMap.size_insert_le.trans hroom

/-- **One call.** -/
theorem Follows.step {h : Succession UInt32 (Installed x) Nat} {times : List UInt64}
    {s : SignedPrekeyStore x} (hf : Follows h times s) (signer : Signer) (op : SignedPrekeyOp x) :
    Follows (install h (op, (rotationStep signer s op).1)) (times ++ [op.time])
      (rotationStep signer s op).2 := by
  cases op with
  | rotate identity newKeyId nowMs graceMs key =>
    have hretain := hf.retain nowMs
    rcases rotate_cases signer s identity newKeyId nowMs graceMs key with
      ⟨e, hrotate, -⟩ | ⟨expires, hexpires, hcurrent, hfree, hroom, hrotate⟩
    · rw [rotationStep_rotate, hrotate]
      exact hretain
    · rw [rotationStep_rotate, hrotate]
      dsimp only [install]
      rw [← hexpires]
      exact hretain.replace ⟨newKeyId, nowMs, none, key, _⟩ hcurrent hfree hroom expires
  | prune nowMs => exact hf.retain nowMs
  | withKey keyId nowMs =>
    exact { hf with
      keeps := hf.keeps.mono fun deadline ⟨t, ht, hle⟩ => ⟨t, List.mem_append_left _ ht, hle⟩ }

theorem Follows.new (signer : Signer) (identity : IdentityKey x) (keyId : UInt32) (nowMs : UInt64)
    (key : SignedPrekey x) :
    Follows (succession (.new signer identity keyId nowMs key) []) []
      (.new signer identity keyId nowMs key) where
  name := rfl
  holder := rfl
  deadlines := fun k entry h => by simp [SignedPrekeyStore.new] at h
  keeps := by
    have hnone : (SignedPrekeyStore.new signer identity keyId nowMs key).remembered =
        fun _ => none := by
      funext k
      simp [SignedPrekeyStore.remembered, SignedPrekeyStore.new]
    rw [hnone]
    exact Succession.Keeps.start _ _
  bounded := by simp [SignedPrekeyStore.new]

/-- Every run from a new store follows its succession. -/
theorem run_follows (signer : Signer) (identity : IdentityKey x) (keyId : UInt32) (nowMs : UInt64)
    (key : SignedPrekey x) (ops : List (SignedPrekeyOp x)) :
    let s := SignedPrekeyStore.new signer identity keyId nowMs key
    Follows (succession s (trace (rotationStep signer) s ops)) (ops.map (·.time))
      (after (rotationStep signer) s ops) := by
  intro s
  have hrun : Follows (succession s (trace (rotationStep signer) s ops))
      (((trace (rotationStep signer) s ops).map (·.1)).map (·.time))
      (after (rotationStep signer) s ops) := by
    refine history_invariant_of_step (s := s)
      (R := fun calls t => Follows (succession s calls) ((calls.map (·.1)).map (·.time)) t)
      (Follows.new signer identity keyId nowMs key) (fun calls t op h => ?_) ops
    rw [succession_concat, List.map_append, List.map_append]
    exact h.step signer op
  rwa [map_fst_trace] at hrun

/-- Every key is installed with a record of its id and of its public key. -/
theorem run_recorded (signer : Signer) (identity : IdentityKey x) (keyId : UInt32) (nowMs : UInt64)
    (key : SignedPrekey x) (ops : List (SignedPrekeyOp x)) :
    let s := SignedPrekeyStore.new signer identity keyId nowMs key
    ∀ id installed, (succession s (trace (rotationStep signer) s ops)).Held id installed →
      installed.record.keyId = id ∧ installed.record.publicKey = installed.key.publicKey := by
  intro s
  refine history_invariant_of_step (s := s)
    (R := fun calls _ => ∀ id installed, (succession s calls).Held id installed →
      installed.record.keyId = id ∧ installed.record.publicKey = installed.key.publicKey)
    ?_ (fun calls t op h => ?_) ops
  · rintro id installed (⟨rfl, rfl⟩ | ⟨t, ht, -⟩)
    · exact ⟨rfl, rfl⟩
    · exact absurd ht List.not_mem_nil
  · rw [succession_concat]
    cases op with
    | rotate identity newKeyId nowMs graceMs key =>
      rcases rotate_cases signer t identity newKeyId nowMs graceMs key with
        ⟨e, hrotate, -⟩ | ⟨expires, -, -, -, -, hrotate⟩
      · rw [rotationStep_rotate, hrotate]
        exact h
      · rw [rotationStep_rotate, hrotate]
        intro id installed hheld
        rcases Succession.held_succeed.mp hheld with ⟨rfl, rfl⟩ | hold
        · exact ⟨rfl, rfl⟩
        · exact h id installed hold
    | prune nowMs => exact h
    | withKey keyId nowMs => exact h

/-! ### The answers -/

/-- **`with_key` asks the succession**, at a time that no earlier call's time is after. -/
theorem Follows.withKey_eq {ρ : Type} {h : Succession UInt32 (Installed x) Nat}
    {times : List UInt64} {s : SignedPrekeyStore x} (hf : Follows h times s) {nowMs : UInt64}
    (hlast : ∀ t ∈ times, t ≤ nowMs) (keyId : UInt32) (operation : SignedPrekey x → ρ) :
    s.withKey keyId nowMs operation =
      match h.serving (fun deadline => nowMs.toNat < deadline) keyId with
      | some installed => .ok (operation installed.key)
      | none => .error .notFound := by
  unfold SignedPrekeyStore.withKey
  rw [hf.name]
  by_cases hname : h.name = keyId
  · rw [if_pos hname, Succession.serving, if_pos hname.symm, ← hf.holder]
  · have hover : ∀ deadline, (∃ t ∈ times, deadline ≤ t.toNat) →
        decide (nowMs.toNat < deadline) = false := by
      rintro deadline ⟨t, ht, hle⟩
      have hlate := word_le_iff.mp (hlast t ht)
      exact decide_eq_false (by omega)
    rw [if_neg hname, hf.keeps.serving_eq hover (Ne.symm hname), SignedPrekeyStore.remembered]
    cases hentry : s.retired[keyId]? with
    | none => rfl
    | some entry =>
      obtain ⟨t, ht⟩ := Option.isSome_iff_exists.mp (hf.deadlines keyId entry hentry)
      obtain ⟨expires, -, rfl⟩ := Option.map_eq_some_iff.mp ht
      dsimp only
      rw [unexpired_eq ht, Option.bind_some, ht, Option.filter_some]
      by_cases hlive : nowMs.toNat < expires.toNat
      · rw [if_pos (decide_eq_true hlive), if_pos (decide_eq_true hlive)]
        rfl
      · rw [if_neg (by simpa using hlive), if_neg (by simpa using hlive)]
        rfl

/-- The key last installed under an id is retired, and its deadline is ahead. -/
def InGrace (h : Succession UInt32 (Installed x) Nat) (nowMs : UInt64) (keyId : UInt32) : Prop :=
  keyId ≠ h.name ∧ ∃ t, h.lastPast keyId = some t ∧ nowMs.toNat < t.ended

/-- A retired entry has the last tenure under its id, which is not the current one. -/
theorem Follows.exists_tenure {h : Succession UInt32 (Installed x) Nat} {times : List UInt64}
    {s : SignedPrekeyStore x} (hf : Follows h times s) {keyId : UInt32}
    {entry : SignedPrekeyEntry x} (hentry : s.retired[keyId]? = some entry) :
    ∃ t, entry.tenure = some t ∧ keyId ≠ h.name ∧ h.lastPast keyId = some t := by
  obtain ⟨t, ht⟩ := Option.isSome_iff_exists.mp (hf.deadlines keyId entry hentry)
  have hremembered : s.remembered keyId = some t := by
    rw [SignedPrekeyStore.remembered, hentry]
    exact ht
  exact ⟨t, ht, hf.keeps.lastPast_eq hremembered⟩

/-- What is left of the retired keys is in its grace period. -/
theorem Follows.inGrace {h : Succession UInt32 (Installed x) Nat} {times : List UInt64}
    {s : SignedPrekeyStore x} (hf : Follows h times s) {nowMs : UInt64} {keyId : UInt32}
    (hmem : keyId ∈ (s.retain nowMs).retired) : InGrace h nowMs keyId := by
  obtain ⟨entry, hentry⟩ := (BTreeMap.mem_iff_get? _ _).mp hmem
  have hlookup : (s.retain nowMs).retired[keyId]? =
      s.retired[keyId]?.filter fun entry => entry.unexpired nowMs := BTreeMap.get?_filter _ _ _
  obtain ⟨hstored, hlive⟩ := Option.filter_eq_some_iff.mp (hlookup.symm.trans hentry)
  obtain ⟨t, ht, hname, hlast⟩ := hf.exists_tenure hstored
  rw [unexpired_eq ht, decide_eq_true_eq] at hlive
  exact ⟨hname, t, hlast, hlive⟩

theorem Follows.current_not_mem {h : Succession UInt32 (Installed x) Nat} {times : List UInt64}
    {s : SignedPrekeyStore x} (hf : Follows h times s) : s.current.keyId ∉ s.retired := by
  intro hmem
  obtain ⟨entry, hentry⟩ := (BTreeMap.mem_iff_get? _ _).mp hmem
  obtain ⟨t, -, hpast, -⟩ := hf.exists_tenure hentry
  exact hpast hf.name

/-- **Rotation honours the grace period.**  After any calls on a new store, and at a time that none
    of their times is after: at most two keys are retired, and the current id is not among them;
    `with_key` finds the key that the id stands for, that is, the current key or the last one
    installed under the id if its deadline is ahead, and the record returned for that key is of the
    id and of its public key; a rotation that fails changes no answer from then on, and it fails for
    capacity only if two retired keys have their deadlines ahead. -/
theorem rotation_honours_grace (signer : Signer) (firstIdentity : IdentityKey x)
    (firstKeyId : UInt32) (firstMs : UInt64) (firstKey : SignedPrekey x)
    (ops : List (SignedPrekeyOp x)) (nowMs : UInt64) (hlast : ∀ op ∈ ops, op.time ≤ nowMs) :
    let new := SignedPrekeyStore.new signer firstIdentity firstKeyId firstMs firstKey
    let s := after (rotationStep signer) new ops
    let h := succession new (trace (rotationStep signer) new ops)
    (s.retired.size ≤ maxRetiredSignedPrekeys ∧ s.current.keyId = h.name ∧
      s.current.keyId ∉ s.retired) ∧
    (∀ (keyId : UInt32) (ρ : Type) (operation : SignedPrekey x → ρ),
      s.withKey keyId nowMs operation =
        match h.serving (fun deadline => nowMs.toNat < deadline) keyId with
        | some installed => .ok (operation installed.key)
        | none => .error .notFound) ∧
    (∀ keyId installed, h.serving (fun deadline => nowMs.toNat < deadline) keyId = some installed →
      installed.record.keyId = keyId ∧ installed.record.publicKey = installed.key.publicKey) ∧
    ∀ identity newKeyId graceMs key e,
      (s.rotate signer identity newKeyId nowMs graceMs key).1 = .error e →
      (∀ (keyId : UInt32) (later : UInt64) (ρ : Type) (operation : SignedPrekey x → ρ),
        nowMs ≤ later →
        (s.rotate signer identity newKeyId nowMs graceMs key).2.withKey keyId later operation =
          s.withKey keyId later operation) ∧
      (e = .retiredCapacity → ∃ a b, a ≠ b ∧ InGrace h nowMs a ∧ InGrace h nowMs b) := by
  intro new s h
  have hf : Follows h (ops.map (·.time)) s :=
    run_follows signer firstIdentity firstKeyId firstMs firstKey ops
  have htimes : ∀ t ∈ ops.map (·.time), t ≤ nowMs := by
    intro t ht
    obtain ⟨op, hop, rfl⟩ := List.mem_map.mp ht
    exact hlast op hop
  refine ⟨⟨hf.bounded, hf.name, hf.current_not_mem⟩, fun keyId ρ operation => ?_,
    fun keyId installed hserving => ?_, fun identity newKeyId graceMs key e herror => ?_⟩
  · exact hf.withKey_eq htimes keyId operation
  · exact run_recorded signer firstIdentity firstKeyId firstMs firstKey ops keyId installed
      (Succession.held_of_serving hserving)
  · rcases rotate_cases signer s identity newKeyId nowMs graceMs key with
      ⟨e', hrotate, hfull⟩ | ⟨expires, -, -, -, -, hrotate⟩
    · rw [hrotate] at herror ⊢
      obtain rfl := Except.error.inj herror
      refine ⟨fun keyId later ρ operation hle => withKey_retain s hle keyId operation, fun he => ?_⟩
      obtain ⟨a, b, hne, ha, hb⟩ := BTreeMap.exists_two_keys (hfull he)
      exact ⟨a, b, hne, hf.inGrace ha, hf.inGrace hb⟩
    · rw [hrotate] at herror
      exact absurd herror (by simp)

end

def samplePrekey (b : UInt8) : SignedPrekey sampleX25519 :=
  ⟨⟨Vector.replicate 32 b, Vector.replicate 32 b, rfl⟩⟩

def sampleDevice : IdentityKey sampleX25519 := ⟨Vector.replicate 32 9, (samplePrekey 9).toKeyPair⟩

/-- A rotation at time 10 with a grace of 5. -/
def sampleRotation : List (SignedPrekeyOp sampleX25519) :=
  [.rotate sampleDevice 2 10 5 (samplePrekey 2)]

/-- The retired key is found at time 14. -/
theorem sample_rotation_honours_grace :
    (after (rotationStep sampleSigner) (.new sampleSigner sampleDevice 1 0 (samplePrekey 1))
      sampleRotation).withKey 1 14 (·.publicKey) = .ok (samplePrekey 1).publicKey := by
  have h := rotation_honours_grace sampleSigner sampleDevice 1 0 (samplePrekey 1) sampleRotation 14
    (by simp [sampleRotation, SignedPrekeyOp.time])
  exact (h.2.1 1 _ (·.publicKey)).trans (by rfl)

end NexaMessenger.Identity
