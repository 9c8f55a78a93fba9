import NexaMessenger.Lib.Machine
import NexaMessenger.Lib.Pool
import NexaMessenger.Identity.Keys

namespace NexaMessenger.Identity

open Lib

/-!
# Identity — the pool of one-time prekeys

The calls on a `OneTimePrekeyStore`: a key is inserted under its id, and taken out by `take`, by
`take_matching`, or by `with_matching` when the operation it is given succeeds.  The lock makes a
call atomic, so a store under any callers is a machine.

`step_cases` says what a call can do: fail and change nothing, put a key in, or take one out.  So
the store is a pool (`Lib.Conserved`): under each id, the keys inserted are those consumed, in
order and by one call each, and the one that is present.
-/

namespace OneTimePrekeyStore

variable {x : X25519}

/-- `OneTimePrekeyStore::new`. -/
def new : OneTimePrekeyStore x := ⟨∅⟩

/-- `OneTimePrekeyStore::insert`. -/
def insert (store : OneTimePrekeyStore x) (key : OneTimePrekey x) :
    Except PreKeyStoreError Unit × OneTimePrekeyStore x :=
  if key.keyId ∈ store.keys then (.error .duplicateKeyId, store)
  else (.ok (), ⟨store.keys.insert key.keyId key⟩)

/-- `OneTimePrekeyStore::take`. -/
def take (store : OneTimePrekeyStore x) (keyId : UInt32) :
    Except PreKeyStoreError (OneTimePrekey x) × OneTimePrekeyStore x :=
  match store.keys[keyId]? with
  | none => (.error .notFound, store)
  | some key => (.ok key, ⟨store.keys.erase keyId⟩)

/-- `OneTimePrekeyStore::take_matching`. -/
def takeMatching (store : OneTimePrekeyStore x) (keyId : UInt32) (expectedPublic : Key32) :
    Except PreKeyStoreError (OneTimePrekey x) × OneTimePrekeyStore x :=
  match store.keys[keyId]? with
  | none => (.error .notFound, store)
  | some key =>
    if key.publicKey ≠ expectedPublic then (.error .publicKeyMismatch, store)
    else (.ok key, ⟨store.keys.erase keyId⟩)

end OneTimePrekeyStore

/-! ### The store as a machine -/

/-- A call on the store; an operation answers `ρ` or fails with `ε`. -/
inductive OneTimePrekeyOp (x : X25519) (ε ρ : Type)
  | insert (key : OneTimePrekey x)
  | take (keyId : UInt32)
  | takeMatching (keyId : UInt32) (expectedPublic : Key32)
  | withMatching (keyId : UInt32) (expectedPublic : Key32)
      (operation : OneTimePrekey x → Except ε ρ)

inductive OneTimePrekeyAnswer (x : X25519) (ε ρ : Type)
  | inserted (result : Except PreKeyStoreError Unit)
  | taken (result : Except PreKeyStoreError (OneTimePrekey x))
  | used (result : Except ε ρ)

section
variable {x : X25519} {ε ρ : Type} (from' : PreKeyStoreError → ε)

/-- The call returned `Ok`. -/
def OneTimePrekeyAnswer.isOk : OneTimePrekeyAnswer x ε ρ → Bool
  | .inserted result => result.isOk
  | .taken result => result.isOk
  | .used result => result.isOk

def oneTimePrekeyStep (s : OneTimePrekeyStore x) :
    OneTimePrekeyOp x ε ρ → OneTimePrekeyAnswer x ε ρ × OneTimePrekeyStore x
  | .insert key => let (r, s') := s.insert key; (.inserted r, s')
  | .take keyId => let (r, s') := s.take keyId; (.taken r, s')
  | .takeMatching keyId expectedPublic =>
    let (r, s') := s.takeMatching keyId expectedPublic; (.taken r, s')
  | .withMatching keyId expectedPublic operation =>
    let (r, s') := s.withMatching keyId expectedPublic from' operation; (.used r, s')

/-- The id of a call. -/
def OneTimePrekeyOp.keyId : OneTimePrekeyOp x ε ρ → UInt32
  | .insert key => key.keyId
  | .take keyId => keyId
  | .takeMatching keyId _ => keyId
  | .withMatching keyId _ _ => keyId

/-- The answer of a call that consumes a key: `take` answers with any key, `take_matching` with one
    that has the public key it expects, and `with_matching` runs its operation on such a key. -/
inductive Consumes : OneTimePrekeyOp x ε ρ → OneTimePrekey x → OneTimePrekeyAnswer x ε ρ → Prop
  | take (keyId : UInt32) (key : OneTimePrekey x) : Consumes (.take keyId) key (.taken (.ok key))
  | takeMatching (keyId : UInt32) (key : OneTimePrekey x) :
    Consumes (.takeMatching keyId key.publicKey) key (.taken (.ok key))
  | withMatching (keyId : UInt32) (key : OneTimePrekey x)
      (operation : OneTimePrekey x → Except ε ρ) (result : ρ) (h : operation key = .ok result) :
    Consumes (.withMatching keyId key.publicKey operation) key (.used (.ok result))

/-- The key a call moves, if it succeeds: the one it inserts, or the one stored under its id. -/
def moved (s : OneTimePrekeyStore x) (op : OneTimePrekeyOp x ε ρ) :
    Option (PoolEvent UInt32 (OneTimePrekey x)) :=
  if (oneTimePrekeyStep from' s op).1.isOk then
    match op with
    | .insert key => some (.put key.keyId key)
    | op => s.keys[op.keyId]?.map (.taken op.keyId)
  else none

/-- What the calls of a run move. -/
def movements : OneTimePrekeyStore x → List (OneTimePrekeyOp x ε ρ) →
    List (PoolEvent UInt32 (OneTimePrekey x))
  | _, [] => []
  | s, op :: ops => (moved from' s op).toList ++ movements (oneTimePrekeyStep from' s op).2 ops

end

/-! ### What a call does -/

section
variable {x : X25519} {ε ρ : Type} (from' : PreKeyStoreError → ε) (s : OneTimePrekeyStore x)

/-- With a failing operation, or without a matching key, nothing changes; otherwise the key goes. -/
theorem withMatching_cases (keyId : UInt32) (expectedPublic : Key32)
    (operation : OneTimePrekey x → Except ε ρ) :
    (∃ e, s.withMatching keyId expectedPublic from' operation = (.error e, s)) ∨
    ∃ key result, s.keys[keyId]? = some key ∧ key.publicKey = expectedPublic ∧
      operation key = .ok result ∧
      s.withMatching keyId expectedPublic from' operation =
        (.ok result, ⟨s.keys.erase keyId⟩) := by
  unfold OneTimePrekeyStore.withMatching
  cases hstored : s.keys[keyId]? with
  | none => exact Or.inl ⟨_, rfl⟩
  | some key =>
    dsimp only
    split
    · exact Or.inl ⟨_, rfl⟩
    rename_i hmatch
    cases hresult : operation key with
    | error e => exact Or.inl ⟨e, rfl⟩
    | ok result => exact Or.inr ⟨key, result, rfl, not_not.mp hmatch, hresult, rfl⟩

/-- **A call** fails and changes nothing, puts a key under a free id, or takes one out. -/
theorem oneTimePrekeyStep_cases (op : OneTimePrekeyOp x ε ρ) :
    ((oneTimePrekeyStep from' s op).1.isOk = false ∧ (oneTimePrekeyStep from' s op).2 = s) ∨
    (∃ key, op = .insert key ∧ s.keys[key.keyId]? = none ∧
      oneTimePrekeyStep from' s op = (.inserted (.ok ()), ⟨s.keys.insert key.keyId key⟩)) ∨
    ∃ key, s.keys[op.keyId]? = some key ∧ (oneTimePrekeyStep from' s op).1.isOk = true ∧
      Consumes op key (oneTimePrekeyStep from' s op).1 ∧
      (oneTimePrekeyStep from' s op).2 = ⟨s.keys.erase op.keyId⟩ := by
  cases op with
  | insert key =>
    by_cases hmem : key.keyId ∈ s.keys
    · left
      simp only [oneTimePrekeyStep, OneTimePrekeyStore.insert, if_pos hmem]
      exact ⟨rfl, trivial⟩
    · right; left
      refine ⟨key, rfl, Std.ExtTreeMap.getElem?_eq_none hmem, ?_⟩
      simp only [oneTimePrekeyStep, OneTimePrekeyStore.insert, if_neg hmem]
  | take keyId =>
    simp only [oneTimePrekeyStep, OneTimePrekeyStore.take, OneTimePrekeyOp.keyId]
    cases hstored : s.keys[keyId]? with
    | none => exact Or.inl ⟨rfl, rfl⟩
    | some key => exact Or.inr (Or.inr ⟨key, rfl, rfl, .take keyId key, rfl⟩)
  | takeMatching keyId expectedPublic =>
    simp only [oneTimePrekeyStep, OneTimePrekeyStore.takeMatching, OneTimePrekeyOp.keyId]
    cases hstored : s.keys[keyId]? with
    | none => exact Or.inl ⟨rfl, rfl⟩
    | some key =>
      dsimp only
      by_cases hmatch : key.publicKey = expectedPublic
      · subst hmatch
        rw [if_neg (not_not.mpr rfl)]
        exact Or.inr (Or.inr ⟨key, rfl, rfl, .takeMatching keyId key, rfl⟩)
      · rw [if_pos hmatch]
        exact Or.inl ⟨rfl, rfl⟩
  | withMatching keyId expectedPublic operation =>
    simp only [oneTimePrekeyStep, OneTimePrekeyOp.keyId]
    rcases withMatching_cases from' s keyId expectedPublic operation with
      ⟨e, hstep⟩ | ⟨key, result, hstored, rfl, hresult, hstep⟩
    · rw [hstep]
      exact Or.inl ⟨rfl, rfl⟩
    · rw [hstep]
      exact Or.inr (Or.inr ⟨key, hstored, rfl, .withMatching keyId key operation result hresult,
        rfl⟩)

variable {from' s}

/-- A call that fails moves nothing. -/
theorem moved_of_error {op : OneTimePrekeyOp x ε ρ}
    (h : (oneTimePrekeyStep from' s op).1.isOk = false) : moved from' s op = none := by
  unfold moved
  rw [h]
  rfl

/-- A call that consumes a key moves the key stored under its id. -/
theorem moved_of_consumes {op : OneTimePrekeyOp x ε ρ} {key : OneTimePrekey x}
    (hstored : s.keys[op.keyId]? = some key)
    (hok : (oneTimePrekeyStep from' s op).1.isOk = true)
    (h : Consumes op key (oneTimePrekeyStep from' s op).1) :
    moved from' s op = some (.taken op.keyId key) := by
  unfold moved
  rw [if_pos hok]
  cases op with
  | insert key => cases h
  | take keyId | takeMatching keyId _ | withMatching keyId _ _ =>
    show s.keys[keyId]?.map _ = _
    rw [show s.keys[keyId]? = some key from hstored]
    rfl

/-- **One call** keeps the account. -/
theorem conserved_step {log : List (PoolEvent UInt32 (OneTimePrekey x))}
    (h : Conserved log fun keyId => s.keys[keyId]?) (op : OneTimePrekeyOp x ε ρ) :
    Conserved (log ++ (moved from' s op).toList)
      fun keyId => (oneTimePrekeyStep from' s op).2.keys[keyId]? := by
  rcases oneTimePrekeyStep_cases from' s op with
    ⟨herror, hsame⟩ | ⟨key, rfl, hfree, hstep⟩ | ⟨key, hstored, hok, hconsumes, herase⟩
  · rw [hsame, moved_of_error herror]
    simpa using h
  · have hmoved : moved from' s (.insert key : OneTimePrekeyOp x ε ρ) =
        some (.put key.keyId key) := by
      unfold moved
      rw [hstep]
      rfl
    rw [hstep, hmoved]
    dsimp only
    rw [funext fun keyId => BTreeMap.get?_insert s.keys key.keyId keyId key]
    exact h.put hfree key
  · rw [moved_of_consumes hstored hok hconsumes, herase]
    dsimp only
    rw [funext fun keyId => BTreeMap.get?_erase s.keys op.keyId keyId]
    exact h.take hstored

/-- **A run** keeps the account. -/
theorem conserved_run {log : List (PoolEvent UInt32 (OneTimePrekey x))}
    (h : Conserved log fun keyId => s.keys[keyId]?) (ops : List (OneTimePrekeyOp x ε ρ)) :
    Conserved (log ++ movements from' s ops)
      fun keyId => (after (oneTimePrekeyStep from') s ops).keys[keyId]? := by
  induction ops generalizing s log with
  | nil => simpa [movements] using h
  | cons op ops ih =>
    rw [movements, ← List.append_assoc]
    exact ih (conserved_step h op)

end

end NexaMessenger.Identity
