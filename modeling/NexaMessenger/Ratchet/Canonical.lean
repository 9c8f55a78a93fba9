import NexaMessenger.Ratchet.SkippedKeys

namespace NexaMessenger.Ratchet

open Lib

/-!
# Ratchet — snapshots that are taken and snapshots that are accepted

A state that fits a snapshot is restored from it as it was (`snapshot_restores`).

The other way round, `from_snapshot` looks at the frame of its input (magic, version, count,
length) and that no counter stands twice.  It accepts the entries in any order and with any
counters, where `snapshot` writes them in increasing order and a receiver has skipped only messages
before the one it expects.  `accepted_canonical_iff` says which of the accepted byte strings are
snapshots of such a state; those taken during a run are (`run_snapshot_canonical`).
-/

/-! ### The entries of a snapshot -/

/-- The entry that 40 bytes spell. -/
def decodeEntry (entry : Bytes) : UInt64 × Key32 :=
  (ofBeBytes (slice entry 0 8), arrayOf 32 (slice entry 8 40))

/-- `count` entries, in the order of their bytes. -/
def entriesFrom (snapshot : Bytes) : Nat → Nat → List (UInt64 × Key32)
  | 0, _ => []
  | count + 1, offset =>
    decodeEntry (slice snapshot offset (offset + snapshotEntryLen)) ::
      entriesFrom snapshot count (offset + snapshotEntryLen)

/-- The counter in a snapshot's header. -/
def storedCounter (snapshot : Bytes) : UInt64 := ofBeBytes (slice snapshot 6 14)

/-- The number of entries in a snapshot's header. -/
def storedCount (snapshot : Bytes) : Nat := ofBe (slice snapshot 14 16)

/-- The entries of a snapshot. -/
def storedEntries (snapshot : Bytes) : List (UInt64 × Key32) :=
  entriesFrom snapshot (storedCount snapshot) 48

/-- The entries stand in strictly increasing order of their counters, and all counters are below
    the one in the header. -/
def Canonical (snapshot : Bytes) : Prop :=
  (storedEntries snapshot).Pairwise (fun x y => x.1 < y.1) ∧
    ∀ entry ∈ storedEntries snapshot, entry.1 < storedCounter snapshot

instance (snapshot : Bytes) : Decidable (Canonical snapshot) :=
  inferInstanceAs (Decidable (_ ∧ _))

@[simp] theorem length_entriesFrom (b : Bytes) (count offset : Nat) :
    (entriesFrom b count offset).length = count := by
  induction count generalizing offset with
  | zero => rfl
  | succ count ih => rw [entriesFrom, List.length_cons, ih]

theorem encodeEntry_injective : Function.Injective encodeEntry := by
  rintro ⟨counter, key⟩ ⟨counter', key'⟩ h
  obtain ⟨hcounter, hkey⟩ := List.append_inj h (by simp)
  obtain rfl : counter = counter' := beBytes_injective hcounter
  obtain rfl : key = key' := Vector.toList_inj.mp hkey
  rfl

theorem encodeEntry_decodeEntry {entry : Bytes} (h : entry.length = snapshotEntryLen) :
    encodeEntry (decodeEntry entry) = entry := by
  have hlen : entry.length = 40 := h
  rw [encodeEntry, decodeEntry, beBytes_ofBeBytes (length_slice entry 0 8 (by omega)),
    toList_arrayOf (length_slice entry 8 40 (by omega)),
    slice_append_slice entry (by decide) (by decide), ← hlen, slice_self]

/-- Writing the entries gives the bytes they were read from. -/
theorem flatMap_entriesFrom {b : Bytes} {count offset : Nat}
    (h : offset + count * snapshotEntryLen ≤ b.length) :
    (entriesFrom b count offset).flatMap encodeEntry =
      slice b offset (offset + count * snapshotEntryLen) := by
  induction count generalizing offset with
  | zero => simp [entriesFrom, slice]
  | succ count ih =>
    rw [Nat.succ_mul] at h ⊢
    have hlen : (slice b offset (offset + snapshotEntryLen)).length = snapshotEntryLen := by
      rw [length_slice _ _ _ (by omega)]
      omega
    rw [entriesFrom, List.flatMap_cons, encodeEntry_decodeEntry hlen, ih (by omega),
      slice_append_slice b (by omega) (by omega)]
    congr 1
    omega

theorem readEntries_succ (b : Bytes) (count offset : Nat) (skipped : BTreeMap UInt64 Key32) :
    ReceiveRatchet.readEntries b (count + 1) offset skipped =
      let head := decodeEntry (slice b offset (offset + snapshotEntryLen))
      if head.1 ∈ skipped then .error .duplicateCounter
      else ReceiveRatchet.readEntries b count (offset + snapshotEntryLen)
        (skipped.insert head.1 head.2) := rfl

/-- The loop over the entries: it ends when they have counters of their own, and inserts them. -/
theorem readEntries_eq_ok_iff {b : Bytes} {count offset : Nat} {skipped m : BTreeMap UInt64 Key32} :
    ReceiveRatchet.readEntries b count offset skipped = .ok m ↔
      ((entriesFrom b count offset).map (·.1)).Nodup ∧
      (∀ entry ∈ entriesFrom b count offset, entry.1 ∉ skipped) ∧
      m = BTreeMap.insertAll skipped (entriesFrom b count offset) := by
  induction count generalizing offset skipped with
  | zero => simp [ReceiveRatchet.readEntries, entriesFrom, BTreeMap.insertAll, eq_comm]
  | succ count ih =>
    rw [readEntries_succ, entriesFrom, List.map_cons, List.nodup_cons, List.forall_mem_cons]
    dsimp only
    generalize decodeEntry (slice b offset (offset + snapshotEntryLen)) = head
    by_cases hmem : head.1 ∈ skipped
    · rw [if_pos hmem]
      exact iff_of_false (by simp) fun h => h.2.1.1 hmem
    · rw [if_neg hmem]
      refine ih.trans ?_
      -- the rest is new beside the head exactly if the head does not come again
      have hnew : (∀ entry ∈ entriesFrom b count (offset + snapshotEntryLen),
            entry.1 ∉ skipped.insert head.1 head.2) ↔
          head.1 ∉ (entriesFrom b count (offset + snapshotEntryLen)).map (·.1) ∧
          ∀ entry ∈ entriesFrom b count (offset + snapshotEntryLen), entry.1 ∉ skipped := by
        simp only [BTreeMap.mem_insert_iff, not_or, List.mem_map, not_exists, not_and, forall_and]
      rw [hnew]
      constructor
      · rintro ⟨hdistinct, ⟨hhead, hrest⟩, hm⟩
        exact ⟨⟨hhead, hdistinct⟩, ⟨hmem, hrest⟩, hm⟩
      · rintro ⟨⟨hhead, hdistinct⟩, ⟨-, hrest⟩, hm⟩
        exact ⟨hdistinct, ⟨hhead, hrest⟩, hm⟩

/-! ### What is accepted -/

/-- What `from_snapshot` checks of a byte string, and the state it returns. -/
structure Accepted (b : Bytes) (r : ReceiveRatchet) : Prop where
  length : b.length = 48 + storedCount b * snapshotEntryLen
  magic : slice b 0 4 = snapshotMagic
  version : UInt16.ofNat (ofBe (slice b 4 6)) = snapshotVersion
  bounded : storedCount b ≤ maxSnapshotSkipped
  distinct : ((storedEntries b).map (·.1)).Nodup
  unfinished : storedCounter b ≠ u64Max
  state : r = ⟨⟨arrayOf 32 (slice b 16 48), storedCounter b⟩,
    BTreeMap.insertAll ∅ (storedEntries b)⟩

theorem accepted_of_fromSnapshot {b : Bytes} {r : ReceiveRatchet}
    (h : ReceiveRatchet.fromSnapshot b = .ok r) : Accepted b r := by
  unfold ReceiveRatchet.fromSnapshot at h
  split at h
  · exact absurd h (by simp)
  split at h
  · exact absurd h (by simp)
  rename_i hmagic
  split at h
  · exact absurd h (by simp)
  rename_i hversion
  dsimp only at h
  split at h
  · exact absurd h (by simp)
  rename_i hbounded
  split at h
  · exact absurd h (by simp)
  rename_i hlength
  split at h
  · exact absurd h (by simp)
  rename_i skipped hread
  split at h
  · exact absurd h (by simp)
  rename_i state hstate
  obtain ⟨hdistinct, -, hskipped⟩ := readEntries_eq_ok_iff.mp hread
  unfold RatchetState.fromSnapshotParts at hstate
  split at hstate
  · exact absurd hstate (by simp)
  rename_i hunfinished
  obtain rfl := Except.ok.inj hstate
  obtain rfl := Except.ok.inj h
  exact ⟨not_not.mp hlength, not_not.mp hmagic, not_not.mp hversion, not_lt.mp hbounded,
    hdistinct, hunfinished, by rw [hskipped]; rfl⟩

theorem Accepted.fromSnapshot_eq {b : Bytes} {r : ReceiveRatchet} (h : Accepted b r) :
    ReceiveRatchet.fromSnapshot b = .ok r := by
  obtain ⟨hlength, hmagic, hversion, hbounded, hdistinct, hunfinished, rfl⟩ := h
  have hread := readEntries_eq_ok_iff.mpr
    ⟨hdistinct, fun _ _ => Std.ExtTreeMap.not_mem_empty, rfl⟩
  have hlong : ¬ b.length < snapshotHeaderLen + 32 := by
    rw [hlength, snapshotHeaderLen]
    omega
  unfold storedCount at hbounded hlength hread
  unfold storedCounter at hunfinished
  rw [ReceiveRatchet.fromSnapshot, if_neg hlong, if_neg (not_not.mpr hmagic),
    if_neg (not_not.mpr hversion)]
  dsimp only
  rw [if_neg (not_lt.mpr hbounded), if_neg (fun hne => hne hlength), hread]
  dsimp only
  rw [RatchetState.fromSnapshotParts, if_neg hunfinished]
  rfl

/-- **All that is checked.**  Of the entries, only that no counter stands twice. -/
theorem fromSnapshot_eq_ok_iff {b : Bytes} {r : ReceiveRatchet} :
    ReceiveRatchet.fromSnapshot b = .ok r ↔ Accepted b r :=
  ⟨accepted_of_fromSnapshot, Accepted.fromSnapshot_eq⟩

/-- The snapshot of an accepted state: the same header, and the entries in key order. -/
theorem Accepted.snapshot_eq {b : Bytes} {r : ReceiveRatchet} (h : Accepted b r) :
    r.snapshot = .ok (slice b 0 48 ++
      (BTreeMap.insertAll ∅ (storedEntries b)).toList.flatMap encodeEntry) := by
  have hlong : 48 ≤ b.length := by rw [h.length]; omega
  have hsize : r.skipped.size = storedCount b := by
    rw [h.state, ← Std.ExtTreeMap.length_toList,
      (BTreeMap.toList_insertAll_perm h.distinct).length_eq, storedEntries, length_entriesFrom]
  -- each part of the header is written as it was read
  have hversion : toBe 2 snapshotVersion.toNat = slice b 4 6 := by
    rw [← h.version, toBe_ofBe16 (length_slice b 4 6 (by omega))]
  have hcounter : beBytes r.state.nextCounter = slice b 6 14 := by
    rw [h.state]
    exact beBytes_ofBeBytes (length_slice b 6 14 (by omega))
  have hcount : toBe 2 r.skipped.size = slice b 14 16 := by
    rw [hsize]
    exact toBe_ofBe (length_slice b 14 16 (by omega))
  have hchain : r.state.chainKey.toList = slice b 16 48 := by
    rw [h.state]
    exact toList_arrayOf (length_slice b 16 48 (by omega))
  have hheader : snapshotMagic ++ toBe 2 snapshotVersion.toNat ++ beBytes r.state.nextCounter ++
      toBe 2 r.skipped.size ++ r.state.chainKey.toList = slice b 0 48 := by
    rw [← h.magic, hversion, hcounter, hcount, hchain]
    repeat rw [slice_append_slice b (by decide) (by decide)]
  rw [ReceiveRatchet.snapshot, if_neg (by rw [hsize]; exact not_lt.mpr h.bounded), hheader, h.state]

/-- An accepted byte string is the snapshot of its state exactly if its entries are in order. -/
theorem Accepted.snapshot_eq_iff {b : Bytes} {r : ReceiveRatchet} (h : Accepted b r) :
    r.snapshot = .ok b ↔ (storedEntries b).Pairwise fun x y => x.1 < y.1 := by
  have hlength := h.length
  have hentries : (storedEntries b).flatMap encodeEntry = slice b 48 b.length := by
    rw [storedEntries, flatMap_entriesFrom (by omega), hlength]
  have hsplit : b = slice b 0 48 ++ (storedEntries b).flatMap encodeEntry := by
    rw [hentries, slice_append_slice b (by decide) (by omega), slice_self]
  have hlisted : (BTreeMap.insertAll ∅ (storedEntries b)).toList = storedEntries b ↔
      (storedEntries b).Pairwise fun x y => x.1 < y.1 := by
    rw [BTreeMap.toList_insertAll_iff h.distinct]
    simp only [Std.compare_eq_lt]
  -- the headers agree, so the order of the entries decides
  rw [h.snapshot_eq, ← hlisted]
  constructor
  · intro hsame
    refine flatMap_injective length_encodeEntry encodeEntry_injective
      (BTreeMap.toList_insertAll_perm h.distinct).length_eq ?_
    exact List.append_cancel_left ((Except.ok.inj hsame).trans hsplit)
  · intro hsame
    rw [hsame, ← hsplit]

theorem Accepted.skipped_lt_iff {b : Bytes} {r : ReceiveRatchet} (h : Accepted b r) :
    (∀ c ∈ r.skipped, c < r.expectedCounter) ↔
      ∀ entry ∈ storedEntries b, entry.1 < storedCounter b := by
  rw [h.state]
  constructor
  · intro hbelow entry hentry
    exact hbelow entry.1 ((BTreeMap.mem_insertAll h.distinct _).mpr ⟨entry, hentry, rfl⟩)
  · intro hbelow c hc
    obtain ⟨entry, hentry, rfl⟩ := (BTreeMap.mem_insertAll h.distinct c).mp hc
    exact hbelow entry hentry

/-- **Which accepted snapshots are canonical.**  An accepted byte string is the snapshot of the
    state it is read to, and the skipped counters of that state are below the expected one, exactly
    if its entries stand in strictly increasing order and below the counter of its header. -/
theorem accepted_canonical_iff {b : Bytes} {r : ReceiveRatchet}
    (h : ReceiveRatchet.fromSnapshot b = .ok r) :
    (r.snapshot = .ok b ∧ ∀ c ∈ r.skipped, c < r.expectedCounter) ↔ Canonical b :=
  have haccepted := fromSnapshot_eq_ok_iff.mp h
  and_congr haccepted.snapshot_eq_iff haccepted.skipped_lt_iff

/-- A snapshot with the given counter and entries, and a chain key of zeros. -/
def sampleSnapshot (counter : UInt64) (entries : List (UInt64 × Key32)) : Bytes :=
  snapshotMagic ++ toBe 2 snapshotVersion.toNat ++ beBytes counter ++ toBe 2 entries.length ++
    (zeros 32).toList ++ entries.flatMap encodeEntry

theorem length_sampleSnapshot (counter : UInt64) (entries : List (UInt64 × Key32)) :
    (sampleSnapshot counter entries).length = 48 + entries.length * snapshotEntryLen := by
  have hmagic : snapshotMagic.length = 4 := rfl
  simp only [sampleSnapshot, List.length_append, length_toBe, length_beBytes,
    Vector.length_toList, length_flatMap_encodeEntry, hmagic]

/-- Two keys in order, both below the counter. -/
theorem sample_accepted_canonical :
    ∃ r, ReceiveRatchet.fromSnapshot (sampleSnapshot 2 [(0, zeros 32), (1, zeros 32)]) = .ok r ∧
      r.snapshot = .ok (sampleSnapshot 2 [(0, zeros 32), (1, zeros 32)]) ∧
      ∀ c ∈ r.skipped, c < r.expectedCounter := by
  have haccepted : Accepted (sampleSnapshot 2 [(0, zeros 32), (1, zeros 32)]) _ :=
    ⟨length_sampleSnapshot _ _, by decide, by decide, by decide, by decide, by decide, rfl⟩
  have hread := fromSnapshot_eq_ok_iff.mpr haccepted
  exact ⟨_, hread, (accepted_canonical_iff hread).mpr (by decide)⟩

/-- **The failing snapshots.**  Two keys in the wrong order are accepted and written back in the
    other one; a key for message five is accepted by a receiver that expects message zero. -/
theorem accepted_not_canonical :
    (∃ r, ReceiveRatchet.fromSnapshot (sampleSnapshot 2 [(1, zeros 32), (0, zeros 32)]) = .ok r ∧
      r.snapshot ≠ .ok (sampleSnapshot 2 [(1, zeros 32), (0, zeros 32)])) ∧
    ∃ r, ReceiveRatchet.fromSnapshot (sampleSnapshot 0 [(5, zeros 32)]) = .ok r ∧
      5 ∈ r.skipped ∧ ¬ 5 < r.expectedCounter := by
  constructor
  · have haccepted : Accepted (sampleSnapshot 2 [(1, zeros 32), (0, zeros 32)]) _ :=
      ⟨length_sampleSnapshot _ _, by decide, by decide, by decide, by decide, by decide, rfl⟩
    refine ⟨_, fromSnapshot_eq_ok_iff.mpr haccepted, fun hsame => ?_⟩
    exact absurd (haccepted.snapshot_eq_iff.mp hsame) (by decide)
  · have haccepted : Accepted (sampleSnapshot 0 [(5, zeros 32)]) _ :=
      ⟨length_sampleSnapshot _ _, by decide, by decide, by decide, by decide, by decide, rfl⟩
    refine ⟨_, fromSnapshot_eq_ok_iff.mpr haccepted, ?_, by decide⟩
    exact (BTreeMap.mem_insertAll haccepted.distinct 5).mpr ⟨(5, zeros 32), by decide, rfl⟩

/-! ### Snapshots that are taken -/

/-- Below the maximal counter, a snapshot is read to the state it was taken of. -/
theorem fromSnapshot_of_snapshot {r : ReceiveRatchet} {b : Bytes} (h : r.snapshot = .ok b)
    (hcounter : r.expectedCounter ≠ u64Max) : ReceiveRatchet.fromSnapshot b = .ok r :=
  (fromSnapshot_snapshot h).trans (if_neg hcounter)

/-- The snapshots of a run are canonical. -/
theorem run_snapshot_canonical {hkdf : Hkdf} (aead : Aead) {root : Key32}
    {receiver : ReceiveRatchet} (hreceiver : ReceiveRatchet.fromRoot hkdf root = .ok receiver)
    (ops : List ReceiveOp) {b : Bytes}
    (h : (after (receiveOp hkdf aead) receiver ops).snapshot = .ok b)
    (hcounter : (after (receiveOp hkdf aead) receiver ops).expectedCounter ≠ u64Max) :
    Canonical b := by
  obtain ⟨w, hfollows⟩ := run_follows aead hreceiver ops
  generalize after (receiveOp hkdf aead) receiver ops = r at h hcounter hfollows
  have haccepted := fromSnapshot_eq_ok_iff.mp (fromSnapshot_of_snapshot h hcounter)
  refine ⟨haccepted.snapshot_eq_iff.mp h, haccepted.skipped_lt_iff.mp fun c hc => ?_⟩
  -- a skipped message is one that the window still misses
  have hlt := w.below _ ((hfollows.missing c).mp hc)
  rwa [hfollows.next, ← UInt64.lt_iff_toNat_lt] at hlt

/-- **Snapshots restore.**  A state with at most 256 skipped keys and a counter below the maximum,
    reached from a root or not, has a snapshot, and reading it gives back the chain key, the counter
    and the skipped keys; so every further sequence of calls is answered in the same way. -/
theorem snapshot_restores (hkdf : Hkdf) (aead : Aead) (r : ReceiveRatchet)
    (hcounter : r.expectedCounter < u64Max) (hsize : r.skipped.size ≤ maxSnapshotSkipped) :
    ∃ b r', r.snapshot = .ok b ∧ ReceiveRatchet.fromSnapshot b = .ok r' ∧
      r'.state.chainKey = r.state.chainKey ∧ r'.expectedCounter = r.expectedCounter ∧
      r'.skipped = r.skipped ∧
      ∀ ops, trace (receiveOp hkdf aead) r' ops = trace (receiveOp hkdf aead) r ops := by
  obtain ⟨b, hb⟩ := (persistable_iff.mpr hsize).2
  have hrestored := fromSnapshot_of_snapshot hb (UInt64.ne_of_lt hcounter)
  exact ⟨b, r, hb, hrestored, rfl, rfl, rfl, fun _ => rfl⟩

/-- A receiver that opened message one first, with the key of message zero stored. -/
theorem sample_snapshot_restores :
    let r := after (receiveOp sampleHkdf sampleAead) sampleReceiver
      [.decrypt 1 (samplePacket 1) (ascii "aad")]
    ∃ b r', r.snapshot = .ok b ∧ ReceiveRatchet.fromSnapshot b = .ok r' ∧ r'.skipped.size = 1 ∧
      trace (receiveOp sampleHkdf sampleAead) r' [.decrypt 0 (samplePacket 0) (ascii "aad")] =
        trace (receiveOp sampleHkdf sampleAead) r [.decrypt 0 (samplePacket 0) (ascii "aad")] := by
  have hstart : Follows sampleHkdf (zeros 32) .start sampleReceiver := follows_fromRoot (by rfl)
  obtain ⟨w, r, hopened, hr, hnext, hcard⟩ :=
    hstart.jump_size (c := 1) (by decide) (by decide) (by decide)
  have hsize : r.skipped.size = 1 := hr.size.trans hcard
  have hcounter : r.expectedCounter < u64Max := by
    have hexpected : r.expectedCounter.toNat = 2 := hr.next.symm.trans hnext
    rw [UInt64.lt_iff_toNat_lt, hexpected]
    decide
  have hreached : after (receiveOp sampleHkdf sampleAead) sampleReceiver
      [.decrypt 1 (samplePacket 1) (ascii "aad")] = r := congrArg Prod.snd hopened
  rw [hreached]
  obtain ⟨b, r', hb, hr', -, -, hskipped, htrace⟩ :=
    snapshot_restores sampleHkdf sampleAead r hcounter (by rw [hsize]; decide)
  exact ⟨b, r', hb, hr', by rw [hskipped, hsize], htrace _⟩

end NexaMessenger.Ratchet
