import NexaMessenger.Storage.Steps

namespace NexaMessenger.Storage

open Lib

/-!
# Storage — saving after a crash

A history of saves, each of which ran to its end or was cut off after some of its steps.  The
next save then works, and the next load returns it, if and only if no save of the history
left its temporary file behind (`next_save_recovers_iff`).

The name of the temporary file is that of the next generation, which counts committed files
only: after a save that created it and was cut off before the rename, every later save finds
the same name taken (`Blocked`) and fails.
-/

/-- A save that is cut off, by a crash or an I/O error, after `steps` of its steps; from
    `saveSteps` on it is complete. -/
structure Attempt where
  call : SaveCall
  steps : Nat
deriving DecidableEq

/-- The save is cut off between creating its temporary file and renaming it. -/
def Attempt.LeavesTemp (a : Attempt) : Prop := 2 ≤ a.steps ∧ a.steps < saveSteps

instance (a : Attempt) : Decidable a.LeavesTemp := inferInstanceAs (Decidable (_ ∧ _))

/-- What the journal relies on in the cipher to save at all: it seals what it is given, and opens
    what it sealed. -/
structure WorkingCipher (aead : Aead) : Prop extends OpensSealed aead where
  seals : ∀ key nonce msg, (aead.encrypt key nonce msg []).isSome

section
variable (aead : Aead) (namePrefix : Bytes)

/-- The directory an attempt leaves. -/
def attempt (dir : Dir) (a : Attempt) : Dir :=
  ((saveStep aead namePrefix a.call)^[a.steps] (dir, .start)).1

/-- The directory a history of attempts leaves. -/
def afterAttempts (dir : Dir) (history : List Attempt) : Dir :=
  history.foldl (attempt aead namePrefix) dir

/-- There is no temporary file of this journal. -/
def Clear (dir : Dir) : Prop := ∀ generation, dir.lookup (tempPath namePrefix generation) = none

/-- There is a temporary file under the name the next save will use. -/
def Blocked (dir : Dir) : Prop :=
  ∃ generation, nextGeneration (generations namePrefix dir) = some generation ∧
    (dir.lookup (tempPath namePrefix generation)).isSome

/-- The next save works: it returns a generation not in use, and a load with its key then returns
    that generation and the plaintext. -/
def Recovers (dir : Dir) (call : SaveCall) : Prop :=
  ∃ generation dir', save aead namePrefix dir call = (.ok generation, dir') ∧
    generation ∉ generations namePrefix dir ∧
    load aead namePrefix dir' call.key = .ok (generation, call.plaintext)

end

section

variable {aead : Aead} {namePrefix : Bytes} {dir : Dir} {a : Attempt} {generation : UInt64}

theorem WorkingCipher.sealRecord_ok (h : WorkingCipher aead) (key : Key32) (nonce : U8Array 12)
    (plaintext : Bytes) : ∃ encrypted, sealRecord aead key nonce plaintext = .ok encrypted := by
  obtain ⟨body, hbody⟩ := Option.isSome_iff_exists.mp (h.seals key nonce plaintext)
  exact ⟨_, by rw [sealRecord, hbody]⟩

theorem WorkingCipher.listed (h : WorkingCipher aead) (call : SaveCall)
    (hnext : nextGeneration (generations namePrefix dir) = some generation) :
    ∃ encrypted, Listed aead namePrefix dir call generation encrypted := by
  obtain ⟨encrypted, hseal⟩ := h.sealRecord_ok call.key call.nonce
    (encodeJournal generation call.plaintext)
  exact ⟨encrypted, hnext, hseal⟩

/-! ### One attempt -/

/-- No attempt takes a generation away. -/
theorem generations_attempt (aead : Aead) (a : Attempt) {g : UInt64}
    (hg : g ∈ generations namePrefix dir) :
    g ∈ generations namePrefix (attempt aead namePrefix dir a) := by
  obtain ⟨generation, encrypted, -, -, hdir⟩ | ⟨-, generation, hframe⟩ :=
    (progress_of_iterate aead namePrefix dir a.call a.steps).effect
  · rw [attempt, hdir]
    exact mem_generations_committed.mpr (.inr hg)
  · exact (mem_generations_of_frame hframe g).mpr hg

/-- An attempt that leaves no temporary file keeps the directory clear. -/
theorem Clear.attempt (hclear : Clear namePrefix dir) (ha : ¬ a.LeavesTemp) :
    Clear namePrefix (attempt aead namePrefix dir a) := by
  have hprogress := progress_of_iterate aead namePrefix dir a.call a.steps
  unfold Storage.attempt
  generalize (saveStep aead namePrefix a.call)^[a.steps] (dir, .start) = s at hprogress ⊢
  unfold Attempt.LeavesTemp saveSteps at ha
  generalize a.steps = k at hprogress ha
  cases hprogress with
  | start => exact hclear
  | failed hk error => exact hclear
  | @writing _ generation encrypted hk hlisted hfree =>
    match k, hk with
    | 1, _ => exact hclear
    | 2, _ | 3, _ | 4, _ => exact absurd ⟨by omega, by omega⟩ ha
    | _ + 5, _ =>
      intro g
      -- the rename took the temporary file away
      show (committed namePrefix dir generation encrypted).lookup _ = none
      rw [lookup_committed, if_neg (finalPath_ne_tempPath _ _ _).symm]
      split
      · rfl
      · exact hclear g

/-- An attempt that leaves its temporary file blocks the journal. -/
theorem Clear.blocked (h : WorkingCipher aead) (hclear : Clear namePrefix dir)
    (ha : a.LeavesTemp)
    (hnext : nextGeneration (generations namePrefix dir) = some generation) :
    Blocked namePrefix (Storage.attempt aead namePrefix dir a) := by
  obtain ⟨encrypted, hlisted⟩ := h.listed a.call hnext
  have hsteps := iterate_of_free hlisted (hclear generation) a.steps
  obtain ⟨htwo, hfive⟩ := ha
  have hfour : a.steps ≤ 4 := Nat.le_of_lt_succ hfive
  refine ⟨generation, ?_, ?_⟩
  · rw [← hnext, Storage.attempt, hsteps]
    exact (hlisted.progress (hclear generation) _).generations_eq (renamed_progress hfour)
  · rw [Storage.attempt, hsteps]
    exact lookup_temp_progress htwo hfour

/-- Nothing changes a blocked directory. -/
theorem Blocked.attempt (h : Blocked namePrefix dir) (a : Attempt) :
    attempt aead namePrefix dir a = dir := by
  obtain ⟨generation, hnext, htaken⟩ := h
  have hprogress := progress_of_iterate aead namePrefix dir a.call a.steps
  unfold Storage.attempt
  generalize (saveStep aead namePrefix a.call)^[a.steps] (dir, .start) = s at hprogress ⊢
  generalize a.steps = k at hprogress
  cases hprogress with
  | start => rfl
  | failed hk error => rfl
  | @writing _ generation' encrypted hk hlisted hfree =>
    -- the file in the way stops the save at its second step
    obtain rfl : generation' = generation := by
      apply Option.some.inj
      rw [← hlisted.next, hnext]
    have hone : k = 1 := by
      by_contra hne
      rw [hfree (by omega)] at htaken
      exact absurd htaken (by simp)
    subst hone
    rfl

theorem Blocked.afterAttempts (h : Blocked namePrefix dir) (history : List Attempt) :
    afterAttempts aead namePrefix dir history = dir := by
  induction history with
  | nil => rfl
  | cons a history ih =>
    rw [Storage.afterAttempts, List.foldl_cons, h.attempt a]
    exact ih

theorem generations_afterAttempts (aead : Aead) (history : List Attempt) {g : UInt64}
    (hg : g ∈ generations namePrefix dir) :
    g ∈ generations namePrefix (afterAttempts aead namePrefix dir history) := by
  induction history generalizing dir with
  | nil => exact hg
  | cons a history ih => exact ih (generations_attempt aead a hg)

/-! ### A history of attempts -/

/-- Without leftovers the directory stays clear. -/
theorem Clear.afterAttempts (hclear : Clear namePrefix dir) {history : List Attempt}
    (hnone : ∀ a ∈ history, ¬ a.LeavesTemp) :
    Clear namePrefix (Storage.afterAttempts aead namePrefix dir history) := by
  induction history generalizing dir with
  | nil => exact hclear
  | cons a history ih =>
    exact ih (hclear.attempt (hnone a List.mem_cons_self))
      fun b hb => hnone b (List.mem_cons_of_mem _ hb)

/-- One leftover, at any place of the history, blocks the journal for good. -/
theorem Clear.blocked_of_history (h : WorkingCipher aead) (hclear : Clear namePrefix dir)
    {history : List Attempt} (hsome : ∃ a ∈ history, a.LeavesTemp)
    (hroom : ∀ g ∈ generations namePrefix (Storage.afterAttempts aead namePrefix dir history),
      g.toNat + 1 < 2 ^ 64) :
    Blocked namePrefix (Storage.afterAttempts aead namePrefix dir history) := by
  induction history generalizing dir with
  | nil => exact absurd hsome (by simp)
  | cons a history ih =>
    by_cases ha : a.LeavesTemp
    · -- the first leftover blocks, and nothing changes after it
      obtain ⟨generation, hnext⟩ := nextGeneration_of_ne_max
        (fun g hg => hroom g (generations_afterAttempts aead (a :: history) hg))
      have hblocked := hclear.blocked h ha hnext
      have hsame : Storage.afterAttempts aead namePrefix dir (a :: history) =
          Storage.attempt aead namePrefix dir a := hblocked.afterAttempts history
      rw [hsame]
      exact hblocked
    · have hlater : ∃ b ∈ history, b.LeavesTemp := by
        obtain ⟨b, hb, hleaves⟩ := hsome
        rcases List.mem_cons.mp hb with rfl | hb
        · exact absurd hleaves ha
        · exact ⟨b, hb, hleaves⟩
      exact ih (hclear.attempt ha) hlater hroom

/-- **Recovery, exactly.**  Start from a directory without temporary files of this journal, let
    any saves run, each to its end or cut off at any point, and let all generations so far be
    below the largest.  Then the next save works and loads back if and only if none of them was
    cut off between creating its temporary file and renaming it. -/
theorem next_save_recovers_iff (h : WorkingCipher aead) (hclear : Clear namePrefix dir)
    (history : List Attempt) (call : SaveCall)
    (hroom : ∀ g ∈ generations namePrefix (Storage.afterAttempts aead namePrefix dir history),
      g.toNat + 1 < 2 ^ 64) :
    Recovers aead namePrefix (Storage.afterAttempts aead namePrefix dir history) call ↔
      ∀ a ∈ history, ¬ a.LeavesTemp := by
  constructor
  · rintro ⟨generation, dir', hsave, -, -⟩ a ha hleaves
    -- a leftover has the name that the next save needs
    obtain ⟨generation', hnext, htaken⟩ := hclear.blocked_of_history h ⟨a, ha, hleaves⟩ hroom
    obtain ⟨e, hfail⟩ : ∃ e, save aead namePrefix _ call = (.error e, _) :=
      save_blocked hnext htaken
    rw [hfail] at hsave
    exact absurd (Prod.mk.inj hsave).1 (by simp)
  · intro hnone
    have hfree : Clear namePrefix (Storage.afterAttempts aead namePrefix dir history) :=
      hclear.afterAttempts hnone
    obtain ⟨generation, hnext⟩ := nextGeneration_of_ne_max hroom
    obtain ⟨encrypted, hseal⟩ := h.sealRecord_ok call.key call.nonce
      (encodeJournal generation call.plaintext)
    refine ⟨generation, _, save_ok hnext hseal (hfree generation), fun hmem => ?_,
      load_committed h.toOpensSealed hnext hseal⟩
    have := nextGeneration_fresh hnext generation hmem
    rw [word_lt_iff] at this
    omega

/-! ### Runs with the sample cipher -/

theorem sampleAead_works : WorkingCipher sampleAead where
  opens := fun h => sampleAead_decrypt_iff.mpr h
  tag := by
    intro key nonce msg body h
    rw [← Option.some.inj h, List.length_append, Vector.length_toList]
    exact Nat.le_add_right_of_le (by decide)
  seals := fun _ _ _ => rfl

/-- A save with the key of zeros. -/
def sampleSave (plaintext : Bytes) : SaveCall := ⟨zeros 32, zeros 12, plaintext⟩

theorem clear_empty (namePrefix : Bytes) : Clear namePrefix ∅ := fun _ => lookup_empty_eq _

/-- A complete save and one that was cut off early do not stop the next. -/
theorem sample_recovers :
    Recovers sampleAead (ascii "ratchet")
      (afterAttempts sampleAead (ascii "ratchet") ∅ [⟨sampleSave [1], 5⟩, ⟨sampleSave [2], 1⟩])
      (sampleSave [3]) := by
  have hone : generations (ascii "ratchet") (afterAttempts sampleAead (ascii "ratchet") ∅
    [⟨sampleSave [1], 5⟩, ⟨sampleSave [2], 1⟩]) = [0] := by decide
  refine (next_save_recovers_iff sampleAead_works (clear_empty _) _ _ ?_).mpr (by decide)
  intro g hg
  rw [hone] at hg
  rw [List.mem_singleton.mp hg]
  decide

/-- **The failing history.**  One save in an empty directory, cut off right after it created its
    temporary file: the next save fails, although the file system works. -/
theorem save_after_cut_off_fails :
    let dir := afterAttempts sampleAead (ascii "ratchet") ∅ [⟨sampleSave [1], 2⟩]
    (save sampleAead (ascii "ratchet") dir (sampleSave [3])).1 = .error .io ∧
    ¬ Recovers sampleAead (ascii "ratchet") dir (sampleSave [3]) := by
  have hfails : (save sampleAead (ascii "ratchet")
      (afterAttempts sampleAead (ascii "ratchet") ∅ [⟨sampleSave [1], 2⟩])
      (sampleSave [3])).1 = .error .io := by rfl
  refine ⟨hfails, ?_⟩
  rintro ⟨generation, dir', hsave, -, -⟩
  rw [hsave] at hfails
  exact absurd hfails (by simp)

end

end NexaMessenger.Storage
