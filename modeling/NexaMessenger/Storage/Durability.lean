import NexaMessenger.Lib.Machine
import NexaMessenger.Storage.Recovery
import NexaMessenger.Storage.Steps

namespace NexaMessenger.Storage

open Lib

/-!
# Storage — the journal over its whole life

A history of saves and loads.  A save runs to its end, or is stopped between two of its steps or
in the middle of its write: by a crash, or because a step on the file system fails and `save`
returns.  Whatever has happened, a load returns the record of the last save whose rename took
effect (`journal_durable`).

The invariant is `Durable`: the generations in the directory are those of the renames so far, in
increasing order, and each still has its record.
-/

inductive JournalOp
  /-- a save that runs to its end -/
  | save (call : SaveCall)
  /-- a save that is stopped after `steps` of its steps -/
  | stop (call : SaveCall) (steps : Nat)
  /-- a save that is stopped when it has written the first `written` bytes of its file -/
  | tear (call : SaveCall) (written : Nat)
  | load (key : Key32)
deriving DecidableEq

inductive JournalAnswer
  | saved (result : Except StorageError UInt64)
  /-- nothing is returned; `renamed` says whether the rename took effect, and for which
      generation -/
  | stopped (renamed : Option UInt64)
  | loaded (result : Except StorageError (UInt64 × Bytes))

section
variable (aead : Aead) (namePrefix : Bytes)

/-- The journal as a machine whose state is its directory. -/
def journalStep (dir : Dir) : JournalOp → JournalAnswer × Dir
  | .save call =>
    let (result, dir) := save aead namePrefix dir call
    (.saved result, dir)
  | .stop call steps =>
    let (dir, state) := (saveStep aead namePrefix call)^[steps] (dir, .start)
    (.stopped state.renamed, dir)
  | .tear call written =>
    -- the file is created by the second step
    match (saveStep aead namePrefix call)^[2] (dir, .start) with
    | (dir, .created generation encrypted) =>
      (.stopped none, dir.insert (tempPath namePrefix generation) (encrypted.take written))
    | (dir, _) => (.stopped none, dir)
  | .load key => (.loaded (load aead namePrefix dir key), dir)

end

/-- The save whose rename took effect, with its generation. -/
def committedBy : JournalOp × JournalAnswer → Option (UInt64 × SaveCall)
  | (.save call, .saved (.ok generation)) => some (generation, call)
  | (.stop call _, .stopped (some generation)) => some (generation, call)
  | _ => none

/-- The renames of a history, in their order. -/
def commits (log : List (JournalOp × JournalAnswer)) : List (UInt64 × SaveCall) :=
  log.filterMap committedBy

/-- The generation that a save returned. -/
def returnedBy : JournalOp × JournalAnswer → Option UInt64
  | (.save _, .saved (.ok generation)) => some generation
  | _ => none

/-- The generations that the saves of a history returned, in their order. -/
def returned (log : List (JournalOp × JournalAnswer)) : List UInt64 := log.filterMap returnedBy

/-- The record of a rename: `encrypted` is what its save sealed. -/
def Sealed (aead : Aead) (commit : UInt64 × SaveCall) (encrypted : Bytes) : Prop :=
  sealRecord aead commit.2.key commit.2.nonce (encodeJournal commit.1 commit.2.plaintext) =
    .ok encrypted

/-- The directory holds the records of all renames so far, and no other. -/
structure Durable (aead : Aead) (namePrefix : Bytes) (log : List (JournalOp × JournalAnswer))
    (dir : Dir) : Prop where
  listed : ∀ g, g ∈ generations namePrefix dir ↔ g ∈ (commits log).map Prod.fst
  increasing : (commits log).Pairwise fun a b => a.1 < b.1
  stored : ∀ c ∈ commits log, ∃ encrypted, Sealed aead c encrypted ∧
    dir.lookup (finalPath namePrefix c.1) = some encrypted

variable {aead : Aead} {namePrefix : Bytes} {dir : Dir}
  {log : List (JournalOp × JournalAnswer)}

/-! ### One operation -/

/-- **What an operation can do**: commit the next generation, or change one temporary file. -/
theorem journalStep_cases (aead : Aead) (namePrefix : Bytes) (dir : Dir) (op : JournalOp) :
    (∃ commit encrypted,
      committedBy (op, (journalStep aead namePrefix dir op).1) = some commit ∧
      nextGeneration (generations namePrefix dir) = some commit.1 ∧ Sealed aead commit encrypted ∧
      (journalStep aead namePrefix dir op).2 = committed namePrefix dir commit.1 encrypted) ∨
    (committedBy (op, (journalStep aead namePrefix dir op).1) = none ∧
      ∃ generation, ∀ name, name ≠ tempPath namePrefix generation →
        (journalStep aead namePrefix dir op).2.lookup name = dir.lookup name) := by
  cases op with
  | save call =>
    rw [journalStep]
    obtain ⟨generation, encrypted, hnext, hseal, hsave⟩ | ⟨e, hsave⟩ :=
      save_cases aead namePrefix dir call
    · rw [hsave]
      exact .inl ⟨(generation, call), encrypted, rfl, hnext, hseal, rfl⟩
    · rw [hsave]
      exact .inr ⟨rfl, 0, fun _ _ => rfl⟩
  | stop call steps =>
    rw [journalStep]
    -- where the save stands after its steps says whether it committed
    obtain ⟨generation, encrypted, hrenamed, hlisted, hdir⟩ |
      ⟨hrenamed, generation, hframe⟩ := (progress_of_iterate aead namePrefix dir call steps).effect
    · dsimp only
      rw [hrenamed, hdir]
      exact .inl ⟨(generation, call), encrypted, rfl, hlisted.next, hlisted.sealed, rfl⟩
    · dsimp only
      rw [hrenamed]
      exact .inr ⟨rfl, generation, hframe⟩
  | tear call written =>
    rw [journalStep]
    -- after two steps there is an empty file, or the save has failed
    have hsteps := progress_of_iterate aead namePrefix dir call 2
    generalize (saveStep aead namePrefix call)^[2] (dir, .start) = s at hsteps ⊢
    cases hsteps with
    | failed hk error => exact .inr ⟨rfl, 0, fun _ _ => rfl⟩
    | @writing _ generation encrypted hk hlisted hfree =>
      refine .inr ⟨rfl, generation, fun name hname => ?_⟩
      simp only [progress, lookup_insert_eq, hname, if_false]
  | load key => exact .inr ⟨rfl, 0, fun _ _ => rfl⟩

/-- **Nothing is overwritten.**  A file under a final name stays as it is. -/
theorem journalStep_keeps {g : UInt64} {bytes : Bytes}
    (h : dir.lookup (finalPath namePrefix g) = some bytes) (op : JournalOp) :
    (journalStep aead namePrefix dir op).2.lookup (finalPath namePrefix g) = some bytes := by
  obtain ⟨commit, encrypted, -, hnext, -, hdir⟩ | ⟨-, generation, hframe⟩ :=
    journalStep_cases aead namePrefix dir op
  · -- the name of the next generation is free
    have hlt := nextGeneration_fresh hnext g (mem_generations_of_lookup h)
    rw [hdir, lookup_committed, if_neg, if_neg (finalPath_ne_tempPath _ _ _), h]
    intro hsame
    rw [finalPath_injective hsame] at hlt
    exact absurd hlt (UInt64.lt_irrefl _)
  · rw [hframe _ (finalPath_ne_tempPath _ _ _), h]

/-- **Step.** -/
theorem Durable.step (h : Durable aead namePrefix log dir) (op : JournalOp) :
    Durable aead namePrefix (log ++ [(op, (journalStep aead namePrefix dir op).1)])
      (journalStep aead namePrefix dir op).2 := by
  have hcommits (o : JournalAnswer) :
      commits (log ++ [(op, o)]) = commits log ++ (committedBy (op, o)).toList := by
    rw [commits, commits, List.filterMap_append]
    cases hop : committedBy (op, o) with
    | none => simp [hop]
    | some commit => simp [hop]
  obtain ⟨commit, encrypted, hop, hnext, hseal, hdir⟩ | ⟨hop, generation, hframe⟩ :=
    journalStep_cases aead namePrefix dir op
  · -- a commit: its generation is above all that were there
    have hlater : ∀ c ∈ commits log, c.1 < commit.1 := fun c hc =>
      nextGeneration_fresh hnext c.1 ((h.listed c.1).mpr (List.mem_map_of_mem hc))
    constructor
    · intro g
      rw [hcommits, hop, hdir, mem_generations_committed, h.listed]
      simp [or_comm]
    · rw [hcommits, hop]
      refine List.pairwise_append.mpr ⟨h.increasing, List.pairwise_singleton _ _, ?_⟩
      intro c hc c' hc'
      rw [List.mem_singleton.mp hc']
      exact hlater c hc
    · intro c hc
      rw [hcommits, hop] at hc
      rcases List.mem_append.mp hc with hold | hnew
      · obtain ⟨record, hrecord, hstored⟩ := h.stored c hold
        exact ⟨record, hrecord, journalStep_keeps hstored op⟩
      · rw [List.mem_singleton.mp hnew, hdir]
        exact ⟨encrypted, hseal, by rw [lookup_committed, if_pos rfl]⟩
  · constructor
    · intro g
      rw [hcommits, hop, mem_generations_of_frame hframe, h.listed]
      simp
    · rw [hcommits, hop]
      simpa using h.increasing
    · intro c hc
      rw [hcommits, hop] at hc
      obtain ⟨record, hrecord, hstored⟩ := h.stored c (by simpa using hc)
      exact ⟨record, hrecord, journalStep_keeps hstored op⟩

theorem run_durable (aead : Aead) (hempty : generations namePrefix dir = [])
    (ops : List JournalOp) :
    Durable aead namePrefix (trace (journalStep aead namePrefix) dir ops)
      (after (journalStep aead namePrefix) dir ops) := by
  apply history_invariant_of_step
  · exact ⟨fun g => by simp [hempty, commits], List.Pairwise.nil,
      fun c hc => absurd hc List.not_mem_nil⟩
  · exact fun hist s op h => h.step op

/-- What is kept by a step is kept by a run. -/
theorem run_keeps_record (aead : Aead) {g : UInt64} {bytes : Bytes}
    (h : dir.lookup (finalPath namePrefix g) = some bytes) (ops : List JournalOp) :
    (after (journalStep aead namePrefix) dir ops).lookup (finalPath namePrefix g) = some bytes :=
  after_invariant (P := fun (dir : Dir) => dir.lookup (finalPath namePrefix g) = some bytes)
    (fun _ op hdir => journalStep_keeps hdir op) h ops

/-! ### What a load returns -/

theorem Durable.load_none (h : Durable aead namePrefix log dir) (hnone : commits log = [])
    (key : Key32) : load aead namePrefix dir key = .error .noValidRecord := by
  have hgenerations : generations namePrefix dir = [] := by
    apply List.eq_nil_iff_forall_not_mem.mpr
    intro g hg
    rw [h.listed, hnone] at hg
    exact absurd hg List.not_mem_nil
  rw [load, hgenerations]
  rfl

/-- The last rename has the highest generation. -/
theorem Durable.load_last (h : Durable aead namePrefix log dir) (haead : OpensSealed aead)
    {earlier : List (UInt64 × SaveCall)} {generation : UInt64} {call : SaveCall}
    (hlast : commits log = earlier ++ [(generation, call)]) :
    load aead namePrefix dir call.key = .ok (generation, call.plaintext) := by
  have hmem : (generation, call) ∈ commits log := by rw [hlast]; simp
  -- every generation in the directory is that of a rename, and this was the last
  have hmax : ∀ g ∈ generations namePrefix dir, g ≤ generation := by
    intro g hg
    rw [h.listed, hlast] at hg
    have hincreasing := h.increasing
    rw [hlast, List.pairwise_append] at hincreasing
    obtain ⟨c, hc, rfl⟩ := List.mem_map.mp hg
    rcases List.mem_append.mp hc with hold | hnew
    · exact UInt64.le_of_lt (hincreasing.2.2 c hold _ (List.mem_singleton.mpr rfl))
    · rw [List.mem_singleton.mp hnew]
      exact UInt64.le_refl _
  obtain ⟨record, hseal, hstored⟩ := h.stored _ hmem
  obtain ⟨older, hrev⟩ :=
    generations_reverse ((h.listed generation).mpr (List.mem_map_of_mem hmem)) hmax
  -- so `load` reads this record first, and it opens
  rw [load, hrev, loadLoop, hstored]
  dsimp only
  rw [openRecord_sealRecord haead hseal]
  dsimp only
  rw [decodeJournal_encodeJournal]

/-- Saves return the generations of their renames. -/
theorem returned_sublist (log : List (JournalOp × JournalAnswer)) :
    (returned log).Sublist ((commits log).map Prod.fst) := by
  induction log with
  | nil => exact List.Sublist.refl _
  | cons entry log ih =>
    cases hreturned : returnedBy entry with
    | none =>
      rw [returned, List.filterMap_cons_none hreturned]
      apply ih.trans
      cases hcommitted : committedBy entry with
      | none => rw [commits, commits, List.filterMap_cons_none hcommitted]
      | some commit =>
        rw [commits, commits, List.filterMap_cons_some hcommitted]
        exact List.sublist_cons_self _ _
    | some g =>
      -- a save that returns a generation has renamed
      obtain ⟨call, hcommitted⟩ : ∃ call, committedBy entry = some (g, call) := by
        unfold returnedBy at hreturned
        split at hreturned
        · obtain rfl := Option.some.inj hreturned
          exact ⟨_, rfl⟩
        · exact absurd hreturned (by simp)
      rw [returned, List.filterMap_cons_some hreturned, commits,
        List.filterMap_cons_some hcommitted]
      exact ih.cons_cons g

/-- **Crash durability.**  Start from a directory without records of the journal, let any saves
    run, each to its end or stopped anywhere, with loads in between.  Then a load with the key of
    the last save whose rename took effect returns its generation and its plaintext, and fails
    with `NoValidRecord` if there was none; the generations of the renames, and of the saves that
    returned one, are strictly increasing; and every record that was committed stays in its file
    as it was sealed, whatever happens later. -/
theorem journal_durable (haead : OpensSealed aead) (hempty : generations namePrefix dir = [])
    (ops : List JournalOp) :
    let log := trace (journalStep aead namePrefix) dir ops
    let reached := after (journalStep aead namePrefix) dir ops
    (commits log = [] → ∀ key, load aead namePrefix reached key = .error .noValidRecord) ∧
    (∀ earlier generation call, commits log = earlier ++ [(generation, call)] →
      load aead namePrefix reached call.key = .ok (generation, call.plaintext)) ∧
    (commits log).Pairwise (fun a b => a.1 < b.1) ∧ (returned log).Pairwise (· < ·) ∧
    (∀ commit ∈ commits log, ∃ record, Sealed aead commit record ∧
      ∀ later, (after (journalStep aead namePrefix) reached later).lookup
        (finalPath namePrefix commit.1) = some record) := by
  intro log reached
  have hdurable : Durable aead namePrefix log reached := run_durable aead hempty ops
  refine ⟨hdurable.load_none, fun earlier generation call => hdurable.load_last haead,
    hdurable.increasing, ?_, fun commit hcommit => ?_⟩
  · exact (List.pairwise_map.mpr hdurable.increasing).sublist (returned_sublist log)
  · obtain ⟨record, hseal, hstored⟩ := hdurable.stored commit hcommit
    exact ⟨record, hseal, run_keeps_record aead hstored⟩

/-- A save that runs to its end, one that is torn in its write, and a load. -/
theorem sample_durable :
    let ops : List JournalOp :=
      [.save (sampleSave [1]), .tear (sampleSave [2]) 7, .load (zeros 32)]
    load sampleAead (ascii "ratchet") (after (journalStep sampleAead (ascii "ratchet")) ∅ ops)
      (zeros 32) = .ok (0, [1]) := by
  intro ops
  have hcommits : commits (trace (journalStep sampleAead (ascii "ratchet")) ∅ ops) =
      [] ++ [(0, sampleSave [1])] := by decide +kernel
  exact (journal_durable sampleAead_works.toOpensSealed (by rfl) ops).2.1 [] 0 (sampleSave [1])
    hcommits

end NexaMessenger.Storage
