import NexaMessenger.Ratchet.Receive

namespace NexaMessenger.Ratchet

open Lib

/-!
# Ratchet — snapshots

The plaintext form in which a receive state is stored: magic, version, counter, number of
skipped keys, chain key, and the skipped keys by increasing counter.  `fromSnapshot_snapshot`
says that a snapshot restores the very state it was taken of, unless its counter is at the
maximum; such a snapshot is never accepted.
-/

/-- `SNAPSHOT_VERSION`. -/
def snapshotVersion : UInt16 := 1

/-- `SNAPSHOT_MAGIC`. -/
def snapshotMagic : Bytes := ascii "MRS1"

/-- `SNAPSHOT_HEADER_LEN`. -/
def snapshotHeaderLen : Nat := 4 + 2 + 8 + 2

/-- `SNAPSHOT_ENTRY_LEN`. -/
def snapshotEntryLen : Nat := 8 + 32

/-- `MAX_SNAPSHOT_SKIPPED`. -/
def maxSnapshotSkipped : Nat := 256

inductive ReceiveSnapshotError
  | truncated | invalidMagic | invalidVersion | invalidLength | tooManySkipped | duplicateCounter
deriving DecidableEq, Repr

/-- The bytes of one skipped key. -/
def encodeEntry (entry : UInt64 × Key32) : Bytes := beBytes entry.1 ++ entry.2.toList

namespace ReceiveRatchet

/-- `ReceiveRatchet::snapshot`. -/
def snapshot (r : ReceiveRatchet) : Except ReceiveSnapshotError Bytes :=
  if maxSnapshotSkipped < r.skipped.size then .error .tooManySkipped
  else .ok (snapshotMagic ++ toBe 2 snapshotVersion.toNat ++ beBytes r.state.nextCounter ++
    toBe 2 r.skipped.size ++ r.state.chainKey.toList ++ r.skipped.toList.flatMap encodeEntry)

/-- The loop of `from_snapshot` over the entries. -/
def readEntries (snapshot : Bytes) :
    Nat → Nat → BTreeMap UInt64 Key32 → Except ReceiveSnapshotError (BTreeMap UInt64 Key32)
  | 0, _, skipped => .ok skipped
  | count + 1, offset, skipped =>
    let keyEnd := offset + snapshotEntryLen
    let entry := slice snapshot offset keyEnd
    let entryCounter := ofBeBytes (slice entry 0 8)
    if entryCounter ∈ skipped then .error .duplicateCounter
    else readEntries snapshot count keyEnd
      (skipped.insert entryCounter (arrayOf 32 (slice entry 8 40)))

/-- `ReceiveRatchet::from_snapshot`. -/
def fromSnapshot (snapshot : Bytes) : Except ReceiveSnapshotError ReceiveRatchet :=
  if snapshot.length < snapshotHeaderLen + 32 then .error .truncated
  else if slice snapshot 0 4 ≠ snapshotMagic then .error .invalidMagic
  else if UInt16.ofNat (ofBe (slice snapshot 4 6)) ≠ snapshotVersion then .error .invalidVersion
  else
    let counter := ofBeBytes (slice snapshot 6 14)
    let count := ofBe (slice snapshot 14 16)
    if maxSnapshotSkipped < count then .error .tooManySkipped
    else if snapshot.length ≠ snapshotHeaderLen + 32 + count * snapshotEntryLen then
      .error .invalidLength
    else
      match readEntries snapshot count 48 ∅ with
      | .error e => .error e
      | .ok skipped =>
        match RatchetState.fromSnapshotParts (arrayOf 32 (slice snapshot 16 48)) counter with
        | .error _ => .error .invalidLength
        | .ok state => .ok ⟨state, skipped⟩

end ReceiveRatchet

open ReceiveRatchet

@[simp] theorem length_encodeEntry (entry : UInt64 × Key32) :
    (encodeEntry entry).length = snapshotEntryLen := by
  simp [encodeEntry, snapshotEntryLen]

theorem length_flatMap_encodeEntry (entries : List (UInt64 × Key32)) :
    (entries.flatMap encodeEntry).length = entries.length * snapshotEntryLen := by
  induction entries with
  | nil => rfl
  | cons entry rest ih =>
    rw [List.flatMap_cons, List.length_append, ih, length_encodeEntry, List.length_cons,
      Nat.succ_mul, Nat.add_comm]

/-- Reading entries with distinct counters inserts them one by one. -/
theorem readEntries_spec (entries : List (UInt64 × Key32)) (front back : Bytes)
    (skipped : BTreeMap UInt64 Key32) (hdistinct : (entries.map (·.1)).Nodup)
    (hnew : ∀ entry ∈ entries, entry.1 ∉ skipped) :
    readEntries (front ++ (entries.flatMap encodeEntry ++ back)) entries.length front.length
      skipped = .ok (BTreeMap.insertAll skipped entries) := by
  induction entries generalizing front skipped with
  | nil => rfl
  | cons entry rest ih =>
    obtain ⟨hhead, hrest⟩ := List.nodup_cons.mp hdistinct
    -- the next 40 bytes are the first entry
    have hentry : slice (front ++ ((entry :: rest).flatMap encodeEntry ++ back)) front.length
        (front.length + snapshotEntryLen) = encodeEntry entry := by
      rw [List.flatMap_cons, List.append_assoc]
      exact slice_append_mid _ _ _ rfl (by rw [length_encodeEntry])
    have hcounter : ofBeBytes (slice (encodeEntry entry) 0 8) = entry.1 := by
      rw [encodeEntry, slice_append_left _ _ (length_beBytes _).symm, ofBeBytes_beBytes]
    have hkey : arrayOf 32 (slice (encodeEntry entry) 8 40) = entry.2 := by
      rw [encodeEntry, slice_append_right _ _ _ _ (length_beBytes _).symm,
        List.take_of_length_le (by simp), arrayOf_toList]
    -- its counter is new, so it is inserted and the rest is read
    have hstep := ih (front ++ encodeEntry entry) (skipped.insert entry.1 entry.2) hrest
      (fun e he hmem => by
        rcases (BTreeMap.mem_insert_iff _ _ _ _).mp hmem with heq | hmem
        · exact hhead (List.mem_map.mpr ⟨e, he, heq⟩)
        · exact hnew e (List.mem_cons_of_mem _ he) hmem)
    rw [List.length_append, length_encodeEntry, List.append_assoc] at hstep
    rw [List.length_cons, readEntries, hentry, hcounter, hkey,
      if_neg (hnew entry List.mem_cons_self), List.flatMap_cons, List.append_assoc, hstep]
    rfl

/-- **Restoring a snapshot.**  It gives back the state it was taken of, unless the counter of
    that state is at its maximum; then it is refused. -/
theorem fromSnapshot_snapshot {r : ReceiveRatchet} {b : Bytes} (h : r.snapshot = .ok b) :
    fromSnapshot b =
      if r.state.nextCounter = u64Max then .error .invalidLength else .ok r := by
  unfold snapshot at h
  split at h
  · exact absurd h (by simp)
  rename_i hsize
  obtain rfl := Except.ok.inj h
  have hentries : r.skipped.toList.length = r.skipped.size := Std.ExtTreeMap.length_toList
  have hcount : ofBe (toBe 2 r.skipped.size) = r.skipped.size := by
    refine ofBe_toBe ?_
    unfold maxSnapshotSkipped at hsize
    omega
  -- the bytes in front of each part
  generalize hb : snapshotMagic ++ toBe 2 snapshotVersion.toNat ++ beBytes r.state.nextCounter ++
    toBe 2 r.skipped.size ++ r.state.chainKey.toList ++ r.skipped.toList.flatMap encodeEntry = b
  have hmagic : snapshotMagic.length = 4 := rfl
  have hlength : b.length = snapshotHeaderLen + 32 + r.skipped.size * snapshotEntryLen := by
    rw [← hb]
    simp only [List.length_append, length_toBe, length_beBytes, Vector.length_toList,
      length_flatMap_encodeEntry, hentries, hmagic, snapshotHeaderLen]
  have hslice0 : slice b 0 4 = snapshotMagic := by
    rw [← hb]; simp only [List.append_assoc]
    exact slice_append_left _ _ rfl
  have hslice4 : slice b 4 6 = toBe 2 snapshotVersion.toNat := by
    rw [← hb]; simp only [List.append_assoc]
    exact slice_append_mid _ _ _ rfl rfl
  have hslice6 : slice b 6 14 = beBytes r.state.nextCounter := by
    rw [← hb]; simp only [List.append_assoc]
    rw [← List.append_assoc]
    exact slice_append_mid _ _ _ rfl (by simp [hmagic])
  have hslice14 : slice b 14 16 = toBe 2 r.skipped.size := by
    rw [← hb]; simp only [List.append_assoc]
    rw [← List.append_assoc, ← List.append_assoc]
    exact slice_append_mid _ _ _ (by simp [hmagic]) (by simp [hmagic])
  have hslice16 : slice b 16 48 = r.state.chainKey.toList := by
    rw [← hb, List.append_assoc _ _ (List.flatMap _ _)]
    exact slice_append_mid _ _ _ (by simp [hmagic]) (by simp [hmagic])
  have hread : readEntries b r.skipped.size 48 ∅ = .ok r.skipped := by
    have hspec := readEntries_spec r.skipped.toList
      (snapshotMagic ++ toBe 2 snapshotVersion.toNat ++ beBytes r.state.nextCounter ++
        toBe 2 r.skipped.size ++ r.state.chainKey.toList) [] ∅
      (by rw [Std.ExtTreeMap.map_fst_toList_eq_keys]; exact Std.ExtTreeMap.nodup_keys)
      (fun entry _ => Std.ExtTreeMap.not_mem_empty)
    rw [List.append_nil, hb, BTreeMap.rebuild_toList, hentries] at hspec
    have hfront : (snapshotMagic ++ toBe 2 snapshotVersion.toNat ++ beBytes r.state.nextCounter ++
        toBe 2 r.skipped.size ++ r.state.chainKey.toList).length = 48 := by
      simp [hmagic]
    rwa [hfront] at hspec
  have hversion : ¬ UInt16.ofNat (ofBe (toBe 2 snapshotVersion.toNat)) ≠ snapshotVersion := by
    decide
  rw [fromSnapshot, if_neg (by rw [hlength]; omega), hslice0, if_neg (fun h => h rfl), hslice4,
    if_neg hversion]
  dsimp only
  rw [hslice6, hslice14, hslice16, hcount, if_neg hsize, if_neg (fun h => h hlength), hread,
    ofBeBytes_beBytes, arrayOf_toList]
  dsimp only
  unfold RatchetState.fromSnapshotParts
  by_cases hmax : r.state.nextCounter = u64Max
  · rw [if_pos hmax, if_pos hmax]
  · rw [if_neg hmax, if_neg hmax]

end NexaMessenger.Ratchet
