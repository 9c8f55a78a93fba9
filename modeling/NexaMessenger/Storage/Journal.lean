import NexaMessenger.Lib.Decimal
import NexaMessenger.Lib.HashMap
import NexaMessenger.Lib.Word
import NexaMessenger.Crypto
import Mathlib.Data.List.Sort
import Mathlib.Logic.Function.Iterate

namespace NexaMessenger.Storage

open Lib

/-!
# Storage — the encrypted journal

A journal keeps its records in the files of one directory, one file a generation.  `save`
seals the next generation into a temporary file and renames it to its final name; `load`
opens the newest record that authenticates.

The directory is a map from file names to bytes, and names are byte strings.  `saveStep` takes
`save` apart into its steps on the file system; a save cut off after some of them leaves the
directory as it then is.
-/

/-- `STORAGE_FORMAT_VERSION`. -/
def storageFormatVersion : UInt16 := 1

/-- `RECORD_HEADER_LEN`. -/
def recordHeaderLen : Nat := 2

/-- `NONCE_LEN`. -/
def nonceLen : Nat := 12

/-- `AEAD_TAG_LEN`. -/
def aeadTagLen : Nat := 16

/-- `JOURNAL_MAGIC`. -/
def journalMagic : Bytes := ascii "MJR1"

/-- `JOURNAL_HEADER_LEN`. -/
def journalHeaderLen : Nat := 4 + 8

inductive CryptoError
  | encryptionFailed | decryptionFailed
deriving DecidableEq, Repr

inductive StorageError
  | invalidVersion | truncated | invalidCiphertext | invalidJournalRecord | noValidRecord
  | generationOverflow | io | crypto (error : CryptoError)
deriving DecidableEq, Repr

/-- A directory: the bytes of each file. -/
abbrev Dir := HashMap Bytes Bytes

/-! ### Records -/

section
variable (aead : Aead)

/-- `seal_record`; the nonce that `seal` draws is an argument. -/
def sealRecord (key : Key32) (nonce : U8Array 12) (plaintext : Bytes) :
    Except StorageError Bytes :=
  match aead.encrypt key nonce plaintext [] with
  | none => .error (.crypto .encryptionFailed)
  | some body => .ok (toBe 2 storageFormatVersion.toNat ++ nonce.toList ++ body)

/-- `open_record`. -/
def openRecord (key : Key32) (record : Bytes) : Except StorageError Bytes :=
  if record.length < recordHeaderLen + nonceLen + aeadTagLen then .error .truncated
  else if UInt16.ofNat (ofBe (slice record 0 2)) ≠ storageFormatVersion then .error .invalidVersion
  else
    let nonce := arrayOf 12 (slice record recordHeaderLen (recordHeaderLen + nonceLen))
    match aead.decrypt key nonce (record.drop (recordHeaderLen + nonceLen)) [] with
    | none => .error (.crypto .decryptionFailed)
    | some plaintext => .ok plaintext

end

/-- `EncryptedJournal::encode_journal`. -/
def encodeJournal (generation : UInt64) (plaintext : Bytes) : Bytes :=
  journalMagic ++ beBytes generation ++ plaintext

/-- `EncryptedJournal::decode_journal`. -/
def decodeJournal (record : Bytes) (expectedGeneration : UInt64) : Except StorageError Bytes :=
  if record.length < journalHeaderLen then .error .truncated
  else if slice record 0 4 ≠ journalMagic then .error .invalidJournalRecord
  else if ofBeBytes (slice record 4 12) ≠ expectedGeneration then .error .invalidJournalRecord
  else .ok (record.drop journalHeaderLen)

/-! ### Names and generations -/

/-- `EncryptedJournal::final_path`. -/
def finalPath (namePrefix : Bytes) (generation : UInt64) : Bytes :=
  namePrefix ++ ascii "-" ++ decimal generation.toNat ++ ascii ".bin"

/-- `EncryptedJournal::temp_path`. -/
def tempPath (namePrefix : Bytes) (generation : UInt64) : Bytes :=
  namePrefix ++ ascii "-" ++ decimal generation.toNat ++ ascii ".tmp"

/-- `EncryptedJournal::parse_generation`.  A name that passes is UTF-8 because the prefix is, so
    the conversion to a string needs no check of its own. -/
def parseGeneration (namePrefix name : Bytes) : Option UInt64 :=
  match (namePrefix ++ ascii "-").isPrefixOf? name with
  | none => none
  | some rest =>
    match (ascii ".bin").isSuffixOf? rest with
    | none => none
    | some stem => parseU64 stem

/-- `EncryptedJournal::generations`, in increasing order. -/
def generations (namePrefix : Bytes) (dir : Dir) : List UInt64 :=
  (dir.keys.filterMap (parseGeneration namePrefix)).insertionSort (· ≤ ·)

/-- The generation `save` uses: one above the highest there is; `none` when that overflows. -/
def nextGeneration (generations : List UInt64) : Option UInt64 :=
  match generations.max? with
  | some current => checkedAdd current 1
  | none => some 0

/-! ### Saving -/

/-- `create_new(true)`: fails when the file exists. -/
def createNew (dir : Dir) (path : Bytes) : Option Dir :=
  if (dir.lookup path).isSome then none else some (dir.insert path [])

/-- `fs::rename`. -/
def rename (dir : Dir) (source target : Bytes) : Option Dir :=
  (dir.lookup source).map fun bytes => (dir.erase source).insert target bytes

/-- The arguments of `save`, with the nonce it draws. -/
structure SaveCall where
  key : Key32
  nonce : U8Array 12
  plaintext : Bytes
deriving DecidableEq

section
variable (aead : Aead) (namePrefix : Bytes)

/-- `EncryptedJournal::save`. -/
def save (dir : Dir) (call : SaveCall) : Except StorageError UInt64 × Dir :=
  match nextGeneration (generations namePrefix dir) with
  | none => (.error .generationOverflow, dir)
  | some generation =>
    match sealRecord aead call.key call.nonce (encodeJournal generation call.plaintext) with
    | .error e => (.error e, dir)
    | .ok encrypted =>
      let temp := tempPath namePrefix generation
      match createNew dir temp with
      | none => (.error .io, dir)
      | some created =>
        let written := created.insert temp encrypted
        match rename written temp (finalPath namePrefix generation) with
        | none => (.error .io, written)
        | some renamed => (.ok generation, renamed)

/-- Where a save stands between two steps on the file system. -/
inductive SaveState
  | start
  | listed (generation : UInt64) (encrypted : Bytes)
  | created (generation : UInt64) (encrypted : Bytes)
  | written (generation : UInt64)
  | synced (generation : UInt64)
  | done (result : Except StorageError UInt64)

/-- One step of `save`: list the directory (and seal the record), create the temporary file, write
    it, sync it, rename it. -/
def saveStep (call : SaveCall) : Dir × SaveState → Dir × SaveState
  | (dir, .start) =>
    match nextGeneration (generations namePrefix dir) with
    | none => (dir, .done (.error .generationOverflow))
    | some generation =>
      match sealRecord aead call.key call.nonce (encodeJournal generation call.plaintext) with
      | .error e => (dir, .done (.error e))
      | .ok encrypted => (dir, .listed generation encrypted)
  | (dir, .listed generation encrypted) =>
    match createNew dir (tempPath namePrefix generation) with
    | none => (dir, .done (.error .io))
    | some dir => (dir, .created generation encrypted)
  | (dir, .created generation encrypted) =>
    (dir.insert (tempPath namePrefix generation) encrypted, .written generation)
  | (dir, .written generation) => (dir, .synced generation)
  | (dir, .synced generation) =>
    match rename dir (tempPath namePrefix generation) (finalPath namePrefix generation) with
    | none => (dir, .done (.error .io))
    | some dir => (dir, .done (.ok generation))
  | (dir, .done result) => (dir, .done result)

/-- The number of steps. -/
def saveSteps : Nat := 5

/-- `save` is its steps, one after the other. -/
theorem saveStep_iterate (dir : Dir) (call : SaveCall) :
    (saveStep aead namePrefix call)^[saveSteps] (dir, .start) =
      ((save aead namePrefix dir call).2, .done (save aead namePrefix dir call).1) := by
  simp only [saveSteps, Function.iterate_succ, Function.iterate_zero, Function.comp, id]
  unfold save
  cases hgen : nextGeneration (generations namePrefix dir) with
  | none => simp only [saveStep, hgen]
  | some generation =>
    cases hseal : sealRecord aead call.key call.nonce (encodeJournal generation call.plaintext) with
    | error e => simp only [saveStep, hgen, hseal]
    | ok encrypted =>
      cases hcreate : createNew dir (tempPath namePrefix generation) with
      | none => simp only [saveStep, hgen, hseal, hcreate]
      | some created =>
        simp only [saveStep, hgen, hseal, hcreate]
        cases hrename : rename (created.insert (tempPath namePrefix generation) encrypted)
            (tempPath namePrefix generation) (finalPath namePrefix generation) <;> rfl

/-! ### Loading -/

/-- The loop of `load` over the generations, newest first. -/
def loadLoop (dir : Dir) (key : Key32) : List UInt64 → Except StorageError (UInt64 × Bytes)
  | [] => .error .noValidRecord
  | generation :: older =>
    match dir.lookup (finalPath namePrefix generation) with
    | none => loadLoop dir key older
    | some bytes =>
      match openRecord aead key bytes with
      | .error _ => loadLoop dir key older
      | .ok plaintext =>
        match decodeJournal plaintext generation with
        | .error _ => loadLoop dir key older
        | .ok state => .ok (generation, state)

/-- `EncryptedJournal::load`. -/
def load (dir : Dir) (key : Key32) : Except StorageError (UInt64 × Bytes) :=
  loadLoop aead namePrefix dir key (generations namePrefix dir).reverse

end

end NexaMessenger.Storage
