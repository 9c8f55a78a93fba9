import NexaMessenger.Storage.Save

namespace NexaMessenger.Storage

open Lib

/-!
# Storage — where a save stands

A save that finds nothing in its way passes through five directories and states, which
`progress` lists.  Any other save fails at its first or second step and leaves the directory as it
was, so these are all there is (`progress_of_iterate`).
-/

section
variable (aead : Aead) (namePrefix : Bytes)

/-- What a save has after its first step: the next generation, and a record sealed for it. -/
structure Listed (base : Dir) (call : SaveCall) (generation : UInt64) (encrypted : Bytes) :
    Prop where
  next : nextGeneration (generations namePrefix base) = some generation
  sealed : sealRecord aead call.key call.nonce (encodeJournal generation call.plaintext) =
    .ok encrypted

/-- The directory and the save after `k` of its steps, if it found `generation` to be the next,
    sealed `encrypted` and finds no temporary file in its way. -/
def progress (base : Dir) (generation : UInt64) (encrypted : Bytes) : Nat → Dir × SaveState
  | 0 => (base, .start)
  | 1 => (base, .listed generation encrypted)
  | 2 => (base.insert (tempPath namePrefix generation) [], .created generation encrypted)
  | 3 => ((base.insert (tempPath namePrefix generation) []).insert
      (tempPath namePrefix generation) encrypted, .written generation)
  | 4 => ((base.insert (tempPath namePrefix generation) []).insert
      (tempPath namePrefix generation) encrypted, .synced generation)
  | _ + 5 => (committed namePrefix base generation encrypted, .done (.ok generation))

/-- Where a save of `call` that started from `base` may stand after `k` of its steps. -/
inductive Progress (base : Dir) (call : SaveCall) : Nat → Dir × SaveState → Prop
  | start : Progress base call 0 (base, .start)
  | failed {k : Nat} (hk : 1 ≤ k) (error : StorageError) :
      Progress base call k (base, .done (.error error))
  | writing {k : Nat} {generation : UInt64} {encrypted : Bytes} (hk : 1 ≤ k)
      (hlisted : Listed aead namePrefix base call generation encrypted)
      (hfree : 2 ≤ k → base.lookup (tempPath namePrefix generation) = none) :
      Progress base call k (progress namePrefix base generation encrypted k)

end

variable {aead : Aead} {namePrefix : Bytes} {base : Dir} {call : SaveCall}
  {generation : UInt64} {encrypted : Bytes}

/-- Directories that differ in a temporary file only have the same generations. -/
theorem mem_generations_of_frame {dir : Dir}
    (hframe : ∀ name, name ≠ tempPath namePrefix generation →
      dir.lookup name = base.lookup name) (g : UInt64) :
    g ∈ generations namePrefix dir ↔ g ∈ generations namePrefix base := by
  rw [mem_generations, mem_generations]
  refine exists_congr fun name => and_congr_left fun hparse => ?_
  rw [hframe]
  rintro rfl
  rw [parseGeneration_tempPath] at hparse
  exact absurd hparse (by simp)

/-- A name that is taken belongs to a generation that is listed. -/
theorem mem_generations_of_lookup {g : UInt64} {bytes : Bytes}
    (h : base.lookup (finalPath namePrefix g) = some bytes) : g ∈ generations namePrefix base :=
  mem_generations.mpr ⟨_, by rw [h]; rfl, parseGeneration_finalPath namePrefix g⟩

theorem finalPath_injective {g h : UInt64}
    (hsame : finalPath namePrefix g = finalPath namePrefix h) : g = h := by
  apply Option.some.inj
  rw [← parseGeneration_finalPath namePrefix g, hsame, parseGeneration_finalPath]

/-- The first step lists the directory and seals the record. -/
theorem saveStep_start (h : Listed aead namePrefix base call generation encrypted) :
    saveStep aead namePrefix call (base, .start) =
      progress namePrefix base generation encrypted 1 := by
  simp only [saveStep, h.next, h.sealed, progress]

/-- A save that starts has listed the directory after its first step, or fails. -/
theorem saveStep_start_cases (aead : Aead) (namePrefix : Bytes) (base : Dir) (call : SaveCall) :
    (∃ generation encrypted, Listed aead namePrefix base call generation encrypted ∧
      saveStep aead namePrefix call (base, .start) = (base, .listed generation encrypted)) ∨
    ∃ e, saveStep aead namePrefix call (base, .start) = (base, .done (.error e)) := by
  cases hnext : nextGeneration (generations namePrefix base) with
  | none => exact .inr ⟨.generationOverflow, by simp only [saveStep, hnext]⟩
  | some generation =>
    cases hseal : sealRecord aead call.key call.nonce
        (encodeJournal generation call.plaintext) with
    | error e => exact .inr ⟨e, by simp only [saveStep, hnext, hseal]⟩
    | ok encrypted =>
      have hlisted : Listed aead namePrefix base call generation encrypted := ⟨hnext, hseal⟩
      exact .inl ⟨generation, encrypted, hlisted, saveStep_start hlisted⟩

/-- The next steps go on while the temporary file is free. -/
theorem saveStep_progress (hfree : base.lookup (tempPath namePrefix generation) = none) {k : Nat}
    (hk : 1 ≤ k) :
    saveStep aead namePrefix call (progress namePrefix base generation encrypted k) =
      progress namePrefix base generation encrypted (k + 1) := by
  match k, hk with
  | 1, _ =>
    simp only [saveStep, progress, createNew, hfree, Option.isSome_none, Bool.false_eq_true,
      if_false]
  | 2, _ => rfl
  | 3, _ => rfl
  | 4, _ =>
    simp only [saveStep, progress, rename, lookup_insert_eq, if_true, Option.map_some, committed]
  | _ + 5, _ => rfl

/-- A save that finds the temporary file free goes on from each of its places to the next. -/
theorem Listed.step (h : Listed aead namePrefix base call generation encrypted)
    (hfree : base.lookup (tempPath namePrefix generation) = none) (k : Nat) :
    saveStep aead namePrefix call (Storage.progress namePrefix base generation encrypted k) =
      Storage.progress namePrefix base generation encrypted (k + 1) := by
  cases k with
  | zero => exact saveStep_start h
  | succ k => exact saveStep_progress hfree (by omega)

theorem Listed.progress (h : Listed aead namePrefix base call generation encrypted)
    (hfree : base.lookup (tempPath namePrefix generation) = none) (k : Nat) :
    Progress aead namePrefix base call k
      (Storage.progress namePrefix base generation encrypted k) := by
  cases k with
  | zero => exact .start
  | succ k => exact .writing (by omega) h fun _ => hfree

/-- A temporary file in the way ends the save. -/
theorem saveStep_taken (htaken : (base.lookup (tempPath namePrefix generation)).isSome) :
    saveStep aead namePrefix call (base, .listed generation encrypted) =
      (base, .done (.error .io)) := by
  simp only [saveStep, createNew, htaken, if_true]

/-- **Step.** -/
theorem Progress.step {k : Nat} {s : Dir × SaveState} (h : Progress aead namePrefix base call k s) :
    Progress aead namePrefix base call (k + 1) (saveStep aead namePrefix call s) := by
  cases h with
  | start =>
    obtain ⟨generation, encrypted, hlisted, hstep⟩ | ⟨e, hstep⟩ :=
      saveStep_start_cases aead namePrefix base call
    · rw [hstep]
      exact .writing (by omega) hlisted fun hk => absurd hk (by omega)
    · rw [hstep]
      exact .failed (by omega) e
  | failed hk error => exact .failed (by omega) error
  | @writing _ generation encrypted hk hlisted hfree =>
    cases htemp : base.lookup (tempPath namePrefix generation) with
    | none =>
      rw [saveStep_progress htemp hk]
      exact .writing (by omega) hlisted fun _ => htemp
    | some bytes =>
      -- then the file was there before the save, which stands at its second step
      have hone : k = 1 := by
        by_contra hne
        rw [hfree (by omega)] at htemp
        exact absurd htemp (by simp)
      subst hone
      have hstep : saveStep aead namePrefix call (progress namePrefix base generation encrypted 1) =
          (base, .done (.error .io)) := saveStep_taken (by rw [htemp]; rfl)
      rw [hstep]
      exact .failed (by omega) _

/-- Any number of steps. -/
theorem progress_of_iterate (aead : Aead) (namePrefix : Bytes) (base : Dir) (call : SaveCall)
    (k : Nat) :
    Progress aead namePrefix base call k ((saveStep aead namePrefix call)^[k] (base, .start)) := by
  induction k with
  | zero => exact .start
  | succ k ih =>
    rw [Function.iterate_succ_apply']
    exact ih.step

/-- Any number of steps of a save that finds the temporary file free. -/
theorem iterate_of_free (h : Listed aead namePrefix base call generation encrypted)
    (hfree : base.lookup (tempPath namePrefix generation) = none) (k : Nat) :
    (saveStep aead namePrefix call)^[k] (base, .start) =
      progress namePrefix base generation encrypted k := by
  induction k with
  | zero => rfl
  | succ k ih =>
    rw [Function.iterate_succ_apply', ih]
    exact h.step hfree k

/-- The generation of a save whose rename took effect. -/
def SaveState.renamed : SaveState → Option UInt64
  | .done (.ok generation) => some generation
  | _ => none

theorem renamed_progress {k : Nat} (hk : k ≤ 4) :
    (progress namePrefix base generation encrypted k).2.renamed = none := by
  match k, hk with
  | 0, _ | 1, _ | 2, _ | 3, _ | 4, _ => rfl

/-- The temporary file is there from its creation to the rename. -/
theorem lookup_temp_progress {k : Nat} (htwo : 2 ≤ k) (hfour : k ≤ 4) :
    ((progress namePrefix base generation encrypted k).1.lookup
      (tempPath namePrefix generation)).isSome := by
  match k, htwo, hfour with
  | 2, _, _ | 3, _, _ | 4, _, _ => simp [progress]

/-- **What the first steps of a save have done**: it committed the next generation, or its rename
    has not taken effect and at most one temporary file is changed. -/
theorem Progress.effect {k : Nat} {s : Dir × SaveState}
    (h : Progress aead namePrefix base call k s) :
    (∃ generation encrypted, s.2.renamed = some generation ∧
      Listed aead namePrefix base call generation encrypted ∧
      s.1 = committed namePrefix base generation encrypted) ∨
    (s.2.renamed = none ∧ ∃ generation, ∀ name, name ≠ tempPath namePrefix generation →
      s.1.lookup name = base.lookup name) := by
  cases h with
  | start => exact .inr ⟨rfl, 0, fun _ _ => rfl⟩
  | failed hk error => exact .inr ⟨rfl, 0, fun _ _ => rfl⟩
  | @writing _ generation encrypted hk hlisted hfree =>
    match k, hk with
    | 1, _ => exact .inr ⟨rfl, 0, fun _ _ => rfl⟩
    | 2, _ =>
      refine .inr ⟨rfl, generation, fun name hname => ?_⟩
      simp only [progress, lookup_insert_eq, hname, if_false]
    | 3, _ | 4, _ =>
      refine .inr ⟨rfl, generation, fun name hname => ?_⟩
      simp only [progress, lookup_insert_eq, hname, if_false]
    | _ + 5, _ => exact .inl ⟨generation, encrypted, rfl, hlisted, rfl⟩

/-- Without a rename the generations are as they were. -/
theorem Progress.generations_eq {k : Nat} {s : Dir × SaveState}
    (h : Progress aead namePrefix base call k s) (hrenamed : s.2.renamed = none) :
    nextGeneration (generations namePrefix s.1) = nextGeneration (generations namePrefix base) := by
  obtain ⟨generation, encrypted, hsome, -⟩ | ⟨-, generation, hframe⟩ := h.effect
  · rw [hsome] at hrenamed
    exact absurd hrenamed (by simp)
  · exact nextGeneration_congr (mem_generations_of_frame hframe)

end NexaMessenger.Storage
