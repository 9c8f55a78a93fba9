import NexaMessenger.Storage.Durability

namespace NexaMessenger.Storage

open Lib

/-!
# Storage — loading from a directory that was tampered with

Between the saves of a journal, and after them, anybody may delete, rename, copy and truncate the
files of its directory, or write any others: that leaves an arbitrary directory.  What nobody can
do without the key is to write something that opens under it (`Unforged`).

`load` reads the generations from the highest down and returns the first that opens and says its
own number.  So it returns the newest record that lies where its save would have put it
(`load_newest_authentic`): a record under the name of another generation does not count, and
neither does a file whose name only reads as a number, such as one with leading zeros, for the
record of a generation is looked up under the name that `save` writes.
-/

/-- What happens to the directory of a journal: an operation of the journal, or somebody leaves
    other files in it. -/
inductive DirEvent
  | op (op : JournalOp)
  | tamper (left : Dir)
deriving DecidableEq

section
variable (aead : Aead) (namePrefix : Bytes)

/-- The save for which an operation seals a record, with the generation it seals. -/
def sealedBy (dir : Dir) : JournalOp → Option (UInt64 × SaveCall)
  | .save call => (nextGeneration (generations namePrefix dir)).map fun g => (g, call)
  | .stop call steps =>
    -- listing and sealing are the first step
    if steps = 0 then none
    else (nextGeneration (generations namePrefix dir)).map fun g => (g, call)
  | .tear call _ => (nextGeneration (generations namePrefix dir)).map fun g => (g, call)
  | .load _ => none

/-- A directory with its journal and somebody who tampers with it, as a machine that tells what
    was sealed. -/
def eventStep (dir : Dir) : DirEvent → Option (UInt64 × SaveCall) × Dir
  | .op op => (sealedBy namePrefix dir op, (journalStep aead namePrefix dir op).2)
  | .tamper left => (none, left)

/-- The saves of a history for which a record was sealed, with their generations. -/
def sealedSaves (log : List (DirEvent × Option (UInt64 × SaveCall))) : List (UInt64 × SaveCall) :=
  log.filterMap (·.2)

/-- Nothing in the directory opens under the key but the bodies that were sealed under it, with
    the nonces they were sealed with. -/
def Unforged (key : Key32) (saves : List (UInt64 × SaveCall)) (dir : Dir) : Prop :=
  ∀ name bytes nonce body, dir.lookup name = some bytes →
    bytes.drop recordHeaderLen = nonce.toList ++ body →
    (aead.decrypt key nonce body []).isSome →
    ∃ c ∈ saves, c.2.key = key ∧ c.2.nonce = nonce ∧
      aead.encrypt key nonce (encodeJournal c.1 c.2.plaintext) [] = some body

/-- The file of the generation holds the record that a save has sealed for it, under the key. -/
def HoldsRecord (key : Key32) (saves : List (UInt64 × SaveCall)) (dir : Dir) (g : UInt64)
    (plaintext : Bytes) : Prop :=
  ∃ c ∈ saves, c.1 = g ∧ c.2.key = key ∧ c.2.plaintext = plaintext ∧
    ∃ record, Sealed aead c record ∧ dir.lookup (finalPath namePrefix g) = some record

/-! ### What `load` reads -/

/-- What `load` finds at one generation. -/
def readRecord (dir : Dir) (key : Key32) (g : UInt64) : Option Bytes := do
  let bytes ← dir.lookup (finalPath namePrefix g)
  let plaintext ← (openRecord aead key bytes).toOption
  (decodeJournal plaintext g).toOption

end

variable {aead : Aead} {namePrefix : Bytes} {dir : Dir} {key : Key32}

theorem readRecord_eq_some {g : UInt64} {plaintext : Bytes} :
    readRecord aead namePrefix dir key g = some plaintext ↔
      ∃ bytes message, dir.lookup (finalPath namePrefix g) = some bytes ∧
        openRecord aead key bytes = .ok message ∧ decodeJournal message g = .ok plaintext := by
  have htoOption {α : Type} {e : Except StorageError α} {a : α} :
      e.toOption = some a ↔ e = .ok a := by
    cases e <;> simp [Except.toOption]
  simp only [readRecord, Option.bind_eq_bind, Option.bind_eq_some_iff, htoOption]
  constructor
  · rintro ⟨bytes, hlookup, message, hopen, hdecode⟩
    exact ⟨bytes, message, hlookup, hopen, hdecode⟩
  · rintro ⟨bytes, message, hlookup, hopen, hdecode⟩
    exact ⟨bytes, hlookup, message, hopen, hdecode⟩

/-- The loop of `load` returns the first generation at which it finds a record. -/
theorem loadLoop_eq (gs : List UInt64) :
    loadLoop aead namePrefix dir key gs =
      match gs.findSome? fun g => (readRecord aead namePrefix dir key g).map fun pt => (g, pt) with
      | some result => .ok result
      | none => .error .noValidRecord := by
  induction gs with
  | nil => rfl
  | cons g older ih =>
    rw [loadLoop, List.findSome?_cons, readRecord]
    cases dir.lookup (finalPath namePrefix g) with
    | none => exact ih
    | some bytes =>
      dsimp only [Option.bind_eq_bind, Option.bind_some]
      cases openRecord aead key bytes with
      | error e => exact ih
      | ok plaintext =>
        dsimp only [Except.toOption, Option.bind_some]
        cases decodeJournal plaintext g with
        | error e => exact ih
        | ok state => rfl

/-- A record that can be read has its generation listed. -/
theorem mem_generations_of_readRecord {g : UInt64} {plaintext : Bytes}
    (h : readRecord aead namePrefix dir key g = some plaintext) :
    g ∈ generations namePrefix dir := by
  obtain ⟨bytes, message, hlookup, -, -⟩ := readRecord_eq_some.mp h
  exact mem_generations_of_lookup hlookup

/-- What is returned was read, and what was read before it, at higher generations, was nothing. -/
theorem newest_of_load {g : UInt64} {plaintext : Bytes}
    (h : load aead namePrefix dir key = .ok (g, plaintext)) :
    readRecord aead namePrefix dir key g = some plaintext ∧
      ∀ g' pt, readRecord aead namePrefix dir key g' = some pt → g' ≤ g := by
  rw [load, loadLoop_eq] at h
  split at h
  · rename_i result hfind
    obtain rfl := Except.ok.inj h
    obtain ⟨newer, first, older, hsplit, hread, hnone⟩ := List.findSome?_eq_some_iff.mp hfind
    obtain ⟨pt, hpt, hpair⟩ := Option.map_eq_some_iff.mp hread
    obtain ⟨rfl, rfl⟩ := Prod.mk.inj hpair
    refine ⟨hpt, fun g' pt' hread' => ?_⟩
    have hmem : g' ∈ newer ++ first :: older := by
      rw [← hsplit]
      exact List.mem_reverse.mpr (mem_generations_of_readRecord hread')
    have hsorted : (newer ++ first :: older).Pairwise fun a b => b ≤ a := by
      rw [← hsplit]
      exact List.pairwise_reverse.mpr (List.pairwise_insertionSort _ _)
    rcases List.mem_append.mp hmem with hnewer | hrest
    · have := hnone g' hnewer
      rw [hread'] at this
      exact absurd this (by simp)
    · rcases List.mem_cons.mp hrest with rfl | holder
      · exact UInt64.le_refl _
      · exact (List.pairwise_cons.mp (List.pairwise_append.mp hsorted).2.1).1 g' holder
  · exact absurd h (by simp)

/-- `load` fails in one way, when there is nothing to read. -/
theorem none_of_load {e : StorageError} (h : load aead namePrefix dir key = .error e) :
    e = .noValidRecord ∧ ∀ g, readRecord aead namePrefix dir key g = none := by
  rw [load, loadLoop_eq] at h
  split at h
  · exact absurd h (by simp)
  · rename_i hfind
    refine ⟨(Except.error.inj h).symm, fun g => ?_⟩
    cases hread : readRecord aead namePrefix dir key g with
    | none => rfl
    | some pt =>
      have hnone := List.findSome?_eq_none_iff.mp hfind g
        (List.mem_reverse.mpr (mem_generations_of_readRecord hread))
      rw [hread] at hnone
      exact absurd hnone (by simp)

/-- **What `load` returns**: what is read at the highest generation with a record to read. -/
theorem load_ok_iff {g : UInt64} {plaintext : Bytes} :
    load aead namePrefix dir key = .ok (g, plaintext) ↔
      readRecord aead namePrefix dir key g = some plaintext ∧
        ∀ g' pt, readRecord aead namePrefix dir key g' = some pt → g' ≤ g := by
  refine ⟨newest_of_load, fun ⟨hread, hnewest⟩ => ?_⟩
  cases hload : load aead namePrefix dir key with
  | error e =>
    rw [(none_of_load hload).2 g] at hread
    exact absurd hread (by simp)
  | ok result =>
    -- two records at the highest generation are one
    obtain ⟨g', pt⟩ := result
    obtain ⟨hread', hnewest'⟩ := newest_of_load hload
    obtain rfl : g' = g :=
      UInt64.le_antisymm (hnewest g' pt hread') (hnewest' g plaintext hread)
    rw [hread'] at hread
    rw [Option.some.inj hread]

/-! ### What can be read was sealed -/

/-- A record that opens has the version, a nonce and a body that opens. -/
theorem exists_of_openRecord {bytes message : Bytes}
    (h : openRecord aead key bytes = .ok message) :
    ∃ (nonce : U8Array 12) (body : Bytes),
      bytes = toBe 2 storageFormatVersion.toNat ++ nonce.toList ++ body ∧
        aead.decrypt key nonce body [] = some message := by
  unfold openRecord at h
  split at h
  · exact absurd h (by simp)
  rename_i hlen
  split at h
  · exact absurd h (by simp)
  rename_i hversion
  dsimp only at h
  split at h
  · exact absurd h (by simp)
  rename_i plaintext hdecrypt
  obtain rfl := Except.ok.inj h
  refine ⟨_, _, ?_, hdecrypt⟩
  have hlen : 30 ≤ bytes.length := Nat.not_lt.mp hlen
  have hhead : toBe 2 storageFormatVersion.toNat = slice bytes 0 2 := by
    rw [← not_not.mp hversion, toBe_ofBe16 (length_slice bytes 0 2 (by omega))]
  have hnonce : (arrayOf 12 (slice bytes 2 14)).toList = slice bytes 2 14 :=
    toList_arrayOf (length_slice bytes 2 14 (by omega))
  calc bytes = slice bytes 0 14 ++ bytes.drop 14 := (List.take_append_drop 14 bytes).symm
    _ = slice bytes 0 2 ++ slice bytes 2 14 ++ bytes.drop 14 := by
      rw [slice_append_slice bytes (by decide) (by decide)]
    _ = _ := by rw [hhead, ← hnonce]; rfl

/-- A message that was encoded for a generation decodes for it, and for no other. -/
theorem decodeJournal_encodeJournal_iff {generation g : UInt64} {plaintext pt : Bytes} :
    decodeJournal (encodeJournal generation plaintext) g = .ok pt ↔
      generation = g ∧ plaintext = pt := by
  constructor
  · intro h
    have hdecode := decodeJournal_encodeJournal generation plaintext
    by_cases hg : generation = g
    · subst hg
      rw [hdecode] at h
      exact ⟨rfl, Except.ok.inj h⟩
    · exfalso
      unfold decodeJournal at h hdecode
      split at h
      · exact absurd h (by simp)
      split at h
      · exact absurd h (by simp)
      rename_i hlen hmagic
      rw [if_neg hlen, if_neg hmagic] at hdecode
      split at h
      · exact absurd h (by simp)
      · rename_i hsame
        split at hdecode
        · exact absurd hdecode (by simp)
        · rename_i hown
          exact hg ((not_not.mp hown).symm.trans (not_not.mp hsame))
  · rintro ⟨rfl, rfl⟩
    exact decodeJournal_encodeJournal _ _

/-- **Authenticity.** In a directory without forgeries, what can be read at a generation is the
    record that a save sealed for it. -/
theorem readRecord_iff_holdsRecord (haead : OpensSealed aead) {saves : List (UInt64 × SaveCall)}
    (hunforged : Unforged aead key saves dir) (g : UInt64) (plaintext : Bytes) :
    readRecord aead namePrefix dir key g = some plaintext ↔
      HoldsRecord aead namePrefix key saves dir g plaintext := by
  rw [readRecord_eq_some]
  constructor
  · rintro ⟨bytes, message, hlookup, hopen, hdecode⟩
    obtain ⟨nonce, body, hbytes, hdecrypt⟩ := exists_of_openRecord hopen
    have hbody : bytes.drop recordHeaderLen = nonce.toList ++ body := by
      rw [hbytes, List.append_assoc]
      exact List.drop_left' (length_toBe 2 _)
    obtain ⟨c, hc, hkey, hnonce, hencrypt⟩ :=
      hunforged _ bytes nonce body hlookup hbody (by rw [hdecrypt]; rfl)
    -- what opened is what the save had encoded
    obtain rfl : message = encodeJournal c.1 c.2.plaintext :=
      Option.some.inj (hdecrypt.symm.trans (haead.opens hencrypt))
    obtain ⟨hgeneration, hplaintext⟩ := decodeJournal_encodeJournal_iff.mp hdecode
    refine ⟨c, hc, hgeneration, hkey, hplaintext, bytes, ?_, hlookup⟩
    rw [Sealed, sealRecord, hkey, hnonce, hencrypt, hbytes]
  · rintro ⟨c, -, rfl, rfl, rfl, record, hsealed, hlookup⟩
    exact ⟨record, _, hlookup, openRecord_sealRecord haead hsealed,
      decodeJournal_encodeJournal _ _⟩

/-- **`load` picks the newest authentic record, and relocation is useless.**  Whatever was done to
    the directory between the saves of a journal and after them, if nothing was forged then `load`
    returns a generation and a plaintext exactly when the file of the generation holds the record
    of that plaintext that a save sealed for it, and no file of a higher generation holds such a
    record; and it fails with `NoValidRecord` exactly when no file does. -/
theorem load_newest_authentic (haead : OpensSealed aead) (namePrefix : Bytes) (dir : Dir)
    (events : List DirEvent) (key : Key32) :
    let saves := sealedSaves (trace (eventStep aead namePrefix) dir events)
    let reached := after (eventStep aead namePrefix) dir events
    Unforged aead key saves reached →
    (∀ g plaintext, load aead namePrefix reached key = .ok (g, plaintext) ↔
      HoldsRecord aead namePrefix key saves reached g plaintext ∧
        ∀ g' pt, HoldsRecord aead namePrefix key saves reached g' pt → g' ≤ g) ∧
    (∀ e, load aead namePrefix reached key = .error e ↔
      e = .noValidRecord ∧
        ∀ g plaintext, ¬ HoldsRecord aead namePrefix key saves reached g plaintext) := by
  intro saves reached hunforged
  have hread := @readRecord_iff_holdsRecord aead namePrefix reached key haead saves hunforged
  constructor
  · intro g plaintext
    rw [load_ok_iff, hread]
    simp only [hread]
  · intro e
    constructor
    · intro hload
      obtain ⟨he, hnone⟩ := none_of_load hload
      refine ⟨he, fun g plaintext hholds => ?_⟩
      rw [← hread, hnone g] at hholds
      exact absurd hholds (by simp)
    · rintro ⟨rfl, hnone⟩
      cases hload : load aead namePrefix reached key with
      | error e => rw [(none_of_load hload).1]
      | ok result =>
        exact absurd ((hread _ _).mp (newest_of_load hload).1) (hnone result.1 result.2)

/-- The record of the first sample save. -/
def sampleRecord : Bytes :=
  toBe 2 1 ++ (zeros 12).toList ++ ((zeros 32).toList ++ (beBytes 0 ++ encodeJournal 0 [1]))

/-- A directory with the record under its own name and under that of a higher generation. -/
def sampleLeft : Dir :=
  ((∅ : Dir).insert (ascii "ratchet-0.bin") sampleRecord).insert (ascii "ratchet-7.bin")
    sampleRecord

theorem sampleLeft_unforged :
    Unforged sampleAead (zeros 32) [(0, sampleSave [1]), (1, sampleSave [2])] sampleLeft := by
  intro name bytes nonce body hlookup hbody _
  have hbytes : bytes = sampleRecord := by
    rw [sampleLeft, lookup_insert_eq, lookup_insert_eq, lookup_empty_eq] at hlookup
    split at hlookup
    · exact (Option.some.inj hlookup).symm
    · split at hlookup
      · exact (Option.some.inj hlookup).symm
      · exact absurd hlookup (by simp)
  rw [hbytes] at hbody
  have hrecord : sampleRecord.drop recordHeaderLen =
      (zeros 12).toList ++ ((zeros 32).toList ++ (beBytes 0 ++ encodeJournal 0 [1])) := rfl
  rw [hrecord] at hbody
  obtain ⟨hnonce, hbody⟩ := List.append_inj hbody (by rw [Vector.length_toList,
    Vector.length_toList])
  refine ⟨(0, sampleSave [1]), List.mem_cons_self, rfl, Vector.toList_inj.mp hnonce, ?_⟩
  rw [← hbody]
  rfl

/-- After two saves somebody removes the newer record and copies the older one to a higher
    generation.  The copy does not load; the record does, under its own name. -/
theorem sample_tampered :
    load sampleAead (ascii "ratchet")
      (after (eventStep sampleAead (ascii "ratchet")) ∅
        [.op (.save (sampleSave [1])), .op (.save (sampleSave [2])), .tamper sampleLeft])
      (zeros 32) = .ok (0, [1]) := by
  have hsaves : sealedSaves (trace (eventStep sampleAead (ascii "ratchet")) ∅
      [.op (.save (sampleSave [1])), .op (.save (sampleSave [2])), .tamper sampleLeft]) =
      [(0, sampleSave [1]), (1, sampleSave [2])] := by decide +kernel
  have hmain := load_newest_authentic sampleAead_works.toOpensSealed (ascii "ratchet") ∅
    [.op (.save (sampleSave [1])), .op (.save (sampleSave [2])), .tamper sampleLeft] (zeros 32)
  dsimp only at hmain
  rw [hsaves] at hmain
  refine ((hmain sampleLeft_unforged).1 0 [1]).mpr ⟨?_, ?_⟩
  · exact ⟨(0, sampleSave [1]), List.mem_cons_self, rfl, rfl, rfl, sampleRecord, by rfl, by rfl⟩
  · rintro g pt ⟨c, hc, rfl, -, -, record, -, hlookup⟩
    rcases List.mem_pair.mp hc with rfl | rfl
    · exact UInt64.le_refl _
    · -- the newer record is gone
      have hgone : sampleLeft.lookup (finalPath (ascii "ratchet") 1) = none := by decide
      rw [show after (eventStep sampleAead (ascii "ratchet")) ∅ _ = sampleLeft from rfl,
        hgone] at hlookup
      exact absurd hlookup (by simp)

end NexaMessenger.Storage
