import NexaMessenger.Lib.Isolation
import NexaMessenger.Storage.Durability

namespace NexaMessenger.Storage

open Lib

/-!
# Storage — journals that share a directory

Several journals keep their files in one directory, under names that start with their prefixes.
The prefixes may extend one another, or have dashes and digits in them.  What comes after the
last dash of a name tells them apart: a number has no dash, whether it is one that `format!`
writes or one that `parse` accepts.  So a name of one journal is not a name of another
(`not_owns_of_ne`).

What a journal does depends on its own names only (`journalStep_congr`) and touches no others
(`journalStep_frame`); therefore each journal works as if it were alone (`journals_isolated`).
-/

/-- The prefixes that `EncryptedJournal::new` accepts. -/
def acceptedPrefix (namePrefix : Bytes) : Bool :=
  !(namePrefix.isEmpty || 47 ∈ namePrefix || 92 ∈ namePrefix || ascii ".." <:+: namePrefix)

/-- `EncryptedJournal`; the directory is a state of its own. -/
structure EncryptedJournal where
  namePrefix : Bytes
  accepted : acceptedPrefix namePrefix = true

/-- `EncryptedJournal::new`, for a directory that exists. -/
def EncryptedJournal.new (namePrefix : Bytes) : Except StorageError EncryptedJournal :=
  if h : acceptedPrefix namePrefix then .ok ⟨namePrefix, h⟩ else .error .invalidJournalRecord

/-- What can be seen of an operation on a journal: the generations it lists, the one a save uses
    next, and the answer. -/
structure SharedAnswer where
  listed : List UInt64
  chosen : Option UInt64
  answer : JournalAnswer

/-- The journals of a directory as one machine. -/
def sharedStep (aead : Aead) (dir : Dir) (op : EncryptedJournal × JournalOp) :
    SharedAnswer × Dir :=
  let listed := generations op.1.namePrefix dir
  let (answer, dir) := journalStep aead op.1.namePrefix dir op.2
  (⟨listed, nextGeneration listed, answer⟩, dir)

/-! ### Whose name it is -/

/-- The names that a journal writes or lists. -/
def Owns (namePrefix name : Bytes) : Prop :=
  (∃ g, name = tempPath namePrefix g) ∨ (parseGeneration namePrefix name).isSome

theorem owns_tempPath (namePrefix : Bytes) (g : UInt64) :
    Owns namePrefix (tempPath namePrefix g) := .inl ⟨g, rfl⟩

theorem owns_finalPath (namePrefix : Bytes) (g : UInt64) :
    Owns namePrefix (finalPath namePrefix g) := .inr (by rw [parseGeneration_finalPath]; rfl)

/-- What comes before the last `c` of a list. -/
theorem eq_of_append_cons {α : Type} {c : α} {a b u v : List α} (hu : c ∉ u) (hv : c ∉ v)
    (h : a ++ c :: u = b ++ c :: v) : a = b := by
  rcases List.append_eq_append_iff.mp h with ⟨w, rfl, hw⟩ | ⟨w, rfl, hw⟩
  · cases w with
    | nil => simp
    | cons d w =>
      -- then the second `c` lies within `u`
      obtain ⟨-, rfl⟩ := List.cons.inj hw
      exact absurd (by simp) hu
  · cases w with
    | nil => simp
    | cons d w =>
      obtain ⟨-, rfl⟩ := List.cons.inj hw
      exact absurd (by simp) hv

/-- The dash of a name. -/
def dash : UInt8 := 45

theorem dash_not_mem {text : Bytes} {x : UInt64} (h : parseU64 text = some x) : dash ∉ text := by
  intro hmem
  have hbyte := number_byte_of_parseU64 h dash hmem
  exact absurd hbyte (by decide)

/-- **Prefixes are told apart**, with any two numbers after them. -/
theorem prefix_eq_of_names {p q u v ending : Bytes} {x y : UInt64} (hu : parseU64 u = some x)
    (hv : parseU64 v = some y)
    (h : p ++ ascii "-" ++ u ++ ending = q ++ ascii "-" ++ v ++ ending) : p = q := by
  have hcut := List.append_cancel_right h
  rw [List.append_assoc, List.append_assoc] at hcut
  exact eq_of_append_cons (dash_not_mem hu) (dash_not_mem hv) hcut

/-- A name that is listed has a number between the prefix and its ending. -/
theorem exists_of_parseGeneration {namePrefix name : Bytes} {g : UInt64}
    (h : parseGeneration namePrefix name = some g) :
    ∃ stem, parseU64 stem = some g ∧ name = namePrefix ++ ascii "-" ++ stem ++ ascii ".bin" := by
  unfold parseGeneration at h
  split at h
  · exact absurd h (by simp)
  · rename_i rest hrest
    split at h
    · exact absurd h (by simp)
    · rename_i stem hstem
      refine ⟨stem, h, ?_⟩
      rw [← List.isPrefixOf?_eq_some_iff_append_eq.mp hrest,
        ← List.isSuffixOf?_eq_some_iff_append_eq.mp hstem, List.append_assoc _ stem]

/-- **Names of different journals are different.** -/
theorem not_owns_of_ne {p q : Bytes} (hne : p ≠ q) (g : UInt64) :
    ¬ Owns p (tempPath q g) ∧ ¬ Owns p (finalPath q g) := by
  constructor
  · rintro (⟨g', htemp⟩ | hlisted)
    · exact hne (prefix_eq_of_names (parseU64_decimal g') (parseU64_decimal g) htemp.symm)
    · obtain ⟨g', hg'⟩ := Option.isSome_iff_exists.mp hlisted
      obtain ⟨stem, -, hname⟩ := exists_of_parseGeneration hg'
      exact ne_of_endings _ _ hname.symm
  · rintro (⟨g', htemp⟩ | hlisted)
    · exact ne_of_endings _ _ htemp
    · obtain ⟨g', hg'⟩ := Option.isSome_iff_exists.mp hlisted
      obtain ⟨stem, hstem, hname⟩ := exists_of_parseGeneration hg'
      exact hne (prefix_eq_of_names hstem (parseU64_decimal g) hname.symm)

/-! ### What an operation touches -/

variable {aead : Aead} {p : Bytes} {dir dir' : Dir}

/-- An operation on a journal leaves every file alone that is not its own. -/
theorem journalStep_frame {q : Bytes} (hne : p ≠ q) (op : JournalOp) {name : Bytes}
    (hname : Owns p name) : (journalStep aead q dir op).2.lookup name = dir.lookup name := by
  have hother (g : UInt64) : name ≠ tempPath q g ∧ name ≠ finalPath q g := by
    constructor
    · rintro rfl
      exact (not_owns_of_ne hne g).1 hname
    · rintro rfl
      exact (not_owns_of_ne hne g).2 hname
  obtain ⟨commit, encrypted, -, -, -, hdir⟩ | ⟨-, generation, hframe⟩ :=
    journalStep_cases aead q dir op
  · rw [hdir, lookup_committed, if_neg (hother _).2, if_neg (hother _).1]
  · exact hframe name (hother generation).1

/-! ### What an operation depends on -/

/-- Two directories with the same files of a journal. -/
def SameFiles (namePrefix : Bytes) (dir dir' : Dir) : Prop :=
  ∀ name, Owns namePrefix name → dir.lookup name = dir'.lookup name

/-- A file of the journal is written in both. -/
theorem SameFiles.insert (h : SameFiles p dir dir') (name bytes : Bytes) :
    SameFiles p (dir.insert name bytes) (dir'.insert name bytes) := by
  intro other hother
  rw [lookup_insert_eq, lookup_insert_eq, h other hother]

/-- A file of the journal is removed from both. -/
theorem SameFiles.erase (h : SameFiles p dir dir') (name : Bytes) :
    SameFiles p (dir.erase name) (dir'.erase name) := by
  intro other hother
  rw [lookup_erase_eq, lookup_erase_eq, h other hother]

/-- The same generations are listed, as often. -/
theorem SameFiles.generations_eq (h : SameFiles p dir dir') :
    generations p dir = generations p dir' := by
  -- the names that count are the same ones
  have hlisted (d : Dir) : d.keys.filterMap (parseGeneration p) =
      (d.keys.filter fun name => (parseGeneration p name).isSome).filterMap
        (parseGeneration p) := by
    rw [List.filterMap_filter]
    congr 1
    funext name
    cases parseGeneration p name <;> rfl
  have hnames : (dir.keys.filter fun name => (parseGeneration p name).isSome).Perm
      (dir'.keys.filter fun name => (parseGeneration p name).isSome) := by
    rw [List.perm_ext_iff_of_nodup (dir.keys_nodup.filter _) (dir'.keys_nodup.filter _)]
    intro name
    rw [List.mem_filter, List.mem_filter]
    refine and_congr_left fun hparse => ?_
    rw [← AList.mem_keys, ← AList.mem_keys, ← AList.lookup_isSome, ← AList.lookup_isSome,
      h name (.inr hparse)]
  have hperm : (generations p dir).Perm (generations p dir') := by
    rw [generations, generations, hlisted dir, hlisted dir']
    exact (List.perm_insertionSort _ _).trans
      ((hnames.filterMap _).trans (List.perm_insertionSort _ _).symm)
  exact hperm.eq_of_pairwise' (List.pairwise_insertionSort _ _) (List.pairwise_insertionSort _ _)

/-- **A step of a save** does the same in both directories. -/
theorem saveStep_congr (h : SameFiles p dir dir') (call : SaveCall) (state : SaveState) :
    (saveStep aead p call (dir, state)).2 = (saveStep aead p call (dir', state)).2 ∧
      SameFiles p (saveStep aead p call (dir, state)).1 (saveStep aead p call (dir', state)).1 := by
  cases state with
  | start =>
    simp only [saveStep, h.generations_eq]
    split
    · exact ⟨rfl, h⟩
    · split
      · exact ⟨rfl, h⟩
      · exact ⟨rfl, h⟩
  | listed generation encrypted =>
    simp only [saveStep, createNew, h _ (owns_tempPath p generation)]
    cases dir'.lookup (tempPath p generation) with
    | none => exact ⟨rfl, h.insert _ _⟩
    | some bytes => exact ⟨rfl, h⟩
  | created generation encrypted => exact ⟨rfl, h.insert _ _⟩
  | written generation => exact ⟨rfl, h⟩
  | synced generation =>
    simp only [saveStep, rename, h _ (owns_tempPath p generation)]
    cases dir'.lookup (tempPath p generation) with
    | none => exact ⟨rfl, h⟩
    | some bytes => exact ⟨rfl, (h.erase _).insert _ _⟩
  | done result => exact ⟨rfl, h⟩

/-- So do any number of steps. -/
theorem iterate_congr (h : SameFiles p dir dir') (call : SaveCall) (k : Nat) :
    ((saveStep aead p call)^[k] (dir, .start)).2 =
        ((saveStep aead p call)^[k] (dir', .start)).2 ∧
      SameFiles p ((saveStep aead p call)^[k] (dir, .start)).1
        ((saveStep aead p call)^[k] (dir', .start)).1 := by
  induction k with
  | zero => exact ⟨rfl, h⟩
  | succ k ih =>
    rw [Function.iterate_succ_apply', Function.iterate_succ_apply']
    generalize (saveStep aead p call)^[k] (dir, .start) = s at ih ⊢
    generalize (saveStep aead p call)^[k] (dir', .start) = s' at ih ⊢
    obtain ⟨hstate, hfiles⟩ := ih
    obtain ⟨d, state⟩ := s
    obtain ⟨d', state'⟩ := s'
    obtain rfl : state = state' := hstate
    exact saveStep_congr hfiles call state

theorem load_congr (h : SameFiles p dir dir') (key : Key32) :
    load aead p dir key = load aead p dir' key := by
  rw [load, load, h.generations_eq]
  induction (generations p dir').reverse with
  | nil => rfl
  | cons generation older ih =>
    rw [loadLoop, loadLoop, h _ (owns_finalPath p generation), ih]

/-- **An operation** is answered alike in both directories and does the same in both. -/
theorem journalStep_congr (h : SameFiles p dir dir') (op : JournalOp) :
    (journalStep aead p dir op).1 = (journalStep aead p dir' op).1 ∧
      SameFiles p (journalStep aead p dir op).2 (journalStep aead p dir' op).2 := by
  cases op with
  | save call =>
    have hsteps := @iterate_congr aead p dir dir' h call saveSteps
    rw [saveStep_iterate, saveStep_iterate] at hsteps
    obtain ⟨hresult, hfiles⟩ := hsteps
    exact ⟨congrArg JournalAnswer.saved (SaveState.done.inj hresult), hfiles⟩
  | stop call steps =>
    obtain ⟨hstate, hfiles⟩ := @iterate_congr aead p dir dir' h call steps
    exact ⟨congrArg (fun state : SaveState => JournalAnswer.stopped state.renamed) hstate, hfiles⟩
  | tear call written =>
    have hsteps := @iterate_congr aead p dir dir' h call 2
    rw [journalStep, journalStep]
    generalize (saveStep aead p call)^[2] (dir, .start) = s at hsteps ⊢
    generalize (saveStep aead p call)^[2] (dir', .start) = s' at hsteps ⊢
    obtain ⟨hstate, hfiles⟩ := hsteps
    obtain ⟨d, state⟩ := s
    obtain ⟨d', state'⟩ := s'
    obtain rfl : state = state' := hstate
    cases state with
    | created generation encrypted => exact ⟨rfl, hfiles.insert _ _⟩
    | start => exact ⟨rfl, hfiles⟩
    | listed generation encrypted => exact ⟨rfl, hfiles⟩
    | written generation => exact ⟨rfl, hfiles⟩
    | synced generation => exact ⟨rfl, hfiles⟩
    | done result => exact ⟨rfl, hfiles⟩
  | load key => exact ⟨congrArg JournalAnswer.loaded (load_congr h key), h⟩

/-! ### Journals do not interfere -/

/-- **Step.** A journal looks only at its own files. -/
theorem sharedStep_unwinding (aead : Aead) (p : EncryptedJournal) :
    Unwinding (sharedStep aead) (fun op => op.1.namePrefix = p.namePrefix)
      (SameFiles p.namePrefix) where
  kept := by
    intro dir dir' op h hkeep
    have hname : op.1.namePrefix = p.namePrefix := of_decide_eq_true hkeep
    rw [← hname] at h ⊢
    obtain ⟨hanswer, hfiles⟩ := @journalStep_congr aead _ _ _ h op.2
    refine ⟨?_, hfiles⟩
    show SharedAnswer.mk _ _ (journalStep aead _ dir _).1 =
      SharedAnswer.mk _ _ (journalStep aead _ dir' _).1
    rw [h.generations_eq, hanswer]
  dropped := by
    intro dir dir' op h hkeep name hname
    have hne : p.namePrefix ≠ op.1.namePrefix := fun heq =>
      of_decide_eq_false hkeep heq.symm
    show (journalStep aead op.1.namePrefix dir op.2).2.lookup name = dir'.lookup name
    rw [journalStep_frame hne op.2 hname, h name hname]

/-- **Journals that share a directory do not interfere.**  In any run of saves and loads of any
    journals on one directory, each save run to its end or stopped anywhere, the operations of a
    journal list, choose and return the same generations and load the same plaintexts as if the
    other journals had done nothing. -/
theorem journals_isolated (aead : Aead) (p : EncryptedJournal) (dir : Dir)
    (ops : List (EncryptedJournal × JournalOp)) :
    (trace (sharedStep aead) dir ops).filter
        (fun entry => entry.1.1.namePrefix = p.namePrefix) =
      trace (sharedStep aead) dir (ops.filter fun op => op.1.namePrefix = p.namePrefix) :=
  (sharedStep_unwinding aead p).trace_filter (fun _ _ => rfl) ops

end NexaMessenger.Storage
