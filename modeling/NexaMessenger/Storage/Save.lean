import NexaMessenger.Storage.Journal

namespace NexaMessenger.Storage

open Lib

/-!
# Storage — what one save does

A save either commits its record under the next generation (`save_ok`) or leaves the directory
as it was (`save_cases`).  After a commit, `load` with the same key returns that record
(`load_committed`), because its generation is above every other and the seal opens again.

What the journal relies on in the cipher is `OpensSealed`: what was sealed opens under the same
key and nonce, and is at least as long as a tag.
-/

/-- The cipher opens what it sealed, and its output includes the 16 bytes of the tag. -/
structure OpensSealed (aead : Aead) : Prop where
  opens : ∀ {key nonce msg body}, aead.encrypt key nonce msg [] = some body →
    aead.decrypt key nonce body [] = some msg
  tag : ∀ {key nonce msg body}, aead.encrypt key nonce msg [] = some body →
    aeadTagLen ≤ body.length

variable {aead : Aead} {namePrefix : Bytes} {dir : Dir} {call : SaveCall} {generation : UInt64}
  {encrypted : Bytes}

/-! ### Names -/

theorem isPrefixOf?_append (a b : Bytes) : a.isPrefixOf? (a ++ b) = some b :=
  List.isPrefixOf?_eq_some_iff_append_eq.mpr rfl

theorem isSuffixOf?_append (a b : Bytes) : b.isSuffixOf? (a ++ b) = some a :=
  List.isSuffixOf?_eq_some_iff_append_eq.mpr rfl

/-- A final name is read as its generation. -/
@[simp] theorem parseGeneration_finalPath (namePrefix : Bytes) (generation : UInt64) :
    parseGeneration namePrefix (finalPath namePrefix generation) = some generation := by
  rw [parseGeneration, finalPath, List.append_assoc _ _ (ascii ".bin"), isPrefixOf?_append]
  dsimp only
  rw [isSuffixOf?_append]
  exact parseU64_decimal generation

/-- The two endings of names are different. -/
theorem ne_of_endings (a b : Bytes) : a ++ ascii ".bin" ≠ b ++ ascii ".tmp" := by
  intro h
  have hlen : (ascii ".bin").length = (ascii ".tmp").length := by decide
  have hne : ascii ".bin" ≠ ascii ".tmp" := by decide
  exact absurd (List.append_inj' h hlen).2 hne

/-- A temporary name is not read as a generation. -/
@[simp] theorem parseGeneration_tempPath (namePrefix : Bytes) (generation : UInt64) :
    parseGeneration namePrefix (tempPath namePrefix generation) = none := by
  rw [parseGeneration, tempPath, List.append_assoc _ _ (ascii ".tmp"), isPrefixOf?_append]
  dsimp only
  cases hsuffix : (ascii ".bin").isSuffixOf? (decimal generation.toNat ++ ascii ".tmp") with
  | none => rfl
  | some stem =>
    exact absurd (List.isSuffixOf?_eq_some_iff_append_eq.mp hsuffix) (ne_of_endings _ _)

theorem finalPath_ne_tempPath (namePrefix : Bytes) (g h : UInt64) :
    finalPath namePrefix g ≠ tempPath namePrefix h := by
  intro heq
  have := parseGeneration_finalPath namePrefix g
  rw [heq, parseGeneration_tempPath] at this
  exact absurd this (by simp)

/-! ### Generations -/

/-- The generations are those of the names in the directory. -/
theorem mem_generations {g : UInt64} :
    g ∈ generations namePrefix dir ↔
      ∃ name, (dir.lookup name).isSome ∧ parseGeneration namePrefix name = some g := by
  rw [generations, (List.perm_insertionSort _ _).mem_iff, List.mem_filterMap]
  simp only [AList.mem_keys.symm, AList.lookup_isSome]

/-- The highest generation comes first when the list is turned around. -/
theorem generations_reverse {g : UInt64} (hmem : g ∈ generations namePrefix dir)
    (hmax : ∀ h ∈ generations namePrefix dir, h ≤ g) :
    ∃ older, (generations namePrefix dir).reverse = g :: older := by
  cases hrev : (generations namePrefix dir).reverse with
  | nil =>
    rw [List.reverse_eq_nil_iff.mp hrev] at hmem
    exact absurd hmem (by simp)
  | cons first older =>
    have hsorted : ((generations namePrefix dir).reverse).Pairwise fun a b => b ≤ a :=
      List.pairwise_reverse.mpr (List.pairwise_insertionSort _ _)
    have hin {x : UInt64} (hx : x ∈ first :: older) : x ∈ generations namePrefix dir := by
      rw [← hrev] at hx; exact List.mem_reverse.mp hx
    have hg : g ∈ first :: older := by rw [← hrev]; exact List.mem_reverse.mpr hmem
    rw [hrev, List.pairwise_cons] at hsorted
    -- the first of the sorted list is both above and below `g`
    have hle : first ≤ g := hmax first (hin List.mem_cons_self)
    rcases List.mem_cons.mp hg with rfl | hold
    · exact ⟨older, rfl⟩
    · have hge := hsorted.1 g hold
      rw [word_le_iff] at hle hge
      obtain rfl : first = g := UInt64.toNat_inj.mp (by omega)
      exact ⟨older, rfl⟩

theorem nextGeneration_fresh (h : nextGeneration (generations namePrefix dir) = some generation) :
    ∀ g ∈ generations namePrefix dir, g < generation := by
  unfold nextGeneration at h
  split at h
  · rename_i current hmax
    exact lt_of_max?_add_one hmax h
  · rename_i hnone
    rw [List.max?_eq_none_iff.mp hnone]
    simp

/-- Only the largest word leaves no next generation. -/
theorem nextGeneration_of_ne_max
    (h : ∀ g ∈ generations namePrefix dir, g.toNat + 1 < 2 ^ 64) :
    ∃ generation, nextGeneration (generations namePrefix dir) = some generation := by
  unfold nextGeneration
  split
  · rename_i current hmax
    have hroom := h current (List.max?_eq_some_iff.mp hmax).1
    have hone : (1 : UInt64).toNat = 1 := rfl
    exact ⟨_, checkedAdd_of_lt (by omega)⟩
  · exact ⟨_, rfl⟩

/-- Directories with the same generations have the same next one. -/
theorem nextGeneration_congr {dir' : Dir}
    (h : ∀ g, g ∈ generations namePrefix dir ↔ g ∈ generations namePrefix dir') :
    nextGeneration (generations namePrefix dir) = nextGeneration (generations namePrefix dir') := by
  have hmax : (generations namePrefix dir).max? = (generations namePrefix dir').max? := by
    cases hcurrent : (generations namePrefix dir).max? with
    | none =>
      have hnil := List.max?_eq_none_iff.mp hcurrent
      refine (List.max?_eq_none_iff.mpr (List.eq_nil_iff_forall_not_mem.mpr fun g hg => ?_)).symm
      rw [← h, hnil] at hg
      exact absurd hg (by simp)
    | some current =>
      obtain ⟨hmem, hle⟩ := List.max?_eq_some_iff.mp hcurrent
      exact (List.max?_eq_some_iff.mpr ⟨(h current).mp hmem, fun g hg => hle g ((h g).mpr hg)⟩).symm
  rw [nextGeneration, nextGeneration, hmax]

/-! ### The directory after a save -/

/-- The directory after a completed save: the record under its final name, and no temporary
    file. -/
def committed (namePrefix : Bytes) (dir : Dir) (generation : UInt64) (encrypted : Bytes) : Dir :=
  (((dir.insert (tempPath namePrefix generation) []).insert (tempPath namePrefix generation)
    encrypted).erase (tempPath namePrefix generation)).insert (finalPath namePrefix generation)
      encrypted

theorem lookup_committed (namePrefix : Bytes) (dir : Dir) (generation : UInt64)
    (encrypted name : Bytes) :
    (committed namePrefix dir generation encrypted).lookup name =
      if name = finalPath namePrefix generation then some encrypted
      else if name = tempPath namePrefix generation then none else dir.lookup name := by
  rw [committed, lookup_insert_eq, lookup_erase_eq, lookup_insert_eq, lookup_insert_eq]
  split
  · rfl
  split
  · rfl
  · rfl

/-- A commit adds its generation. -/
theorem mem_generations_committed {g : UInt64} :
    g ∈ generations namePrefix (committed namePrefix dir generation encrypted) ↔
      g = generation ∨ g ∈ generations namePrefix dir := by
  rw [mem_generations, mem_generations]
  constructor
  · rintro ⟨name, hname, hparse⟩
    rw [lookup_committed] at hname
    split at hname
    · rename_i hfinal
      rw [hfinal, parseGeneration_finalPath] at hparse
      exact Or.inl (Option.some.inj hparse).symm
    · split at hname
      · exact absurd hname (by simp)
      · exact Or.inr ⟨name, hname, hparse⟩
  · rintro (rfl | ⟨name, hname, hparse⟩)
    · exact ⟨finalPath namePrefix g, by rw [lookup_committed, if_pos rfl]; rfl, by simp⟩
    · refine ⟨name, ?_, hparse⟩
      rw [lookup_committed]
      split
      · rfl
      · rw [if_neg]
        · exact hname
        · rintro rfl
          rw [parseGeneration_tempPath] at hparse
          exact absurd hparse (by simp)

/-- A save that finds a next generation, seals its record and finds no temporary file in its way
    commits. -/
theorem save_ok (hnext : nextGeneration (generations namePrefix dir) = some generation)
    (hseal : sealRecord aead call.key call.nonce (encodeJournal generation call.plaintext) =
      .ok encrypted)
    (hfree : dir.lookup (tempPath namePrefix generation) = none) :
    save aead namePrefix dir call =
      (.ok generation, committed namePrefix dir generation encrypted) := by
  have hcreate : createNew dir (tempPath namePrefix generation) =
      some (dir.insert (tempPath namePrefix generation) []) := by
    rw [createNew, hfree]; rfl
  have hrename : rename ((dir.insert (tempPath namePrefix generation) []).insert
      (tempPath namePrefix generation) encrypted) (tempPath namePrefix generation)
      (finalPath namePrefix generation) =
        some (committed namePrefix dir generation encrypted) := by
    rw [rename, lookup_insert_eq, if_pos rfl, Option.map_some, committed]
  rw [save, hnext]
  dsimp only
  rw [hseal]
  dsimp only
  rw [hcreate]
  dsimp only
  rw [hrename]

/-- A temporary file of the next generation stops a save. -/
theorem save_blocked (hnext : nextGeneration (generations namePrefix dir) = some generation)
    (htemp : (dir.lookup (tempPath namePrefix generation)).isSome) :
    ∃ e, save aead namePrefix dir call = (.error e, dir) := by
  have hcreate : createNew dir (tempPath namePrefix generation) = none := by
    rw [createNew, if_pos htemp]
  rw [save, hnext]
  dsimp only
  split
  · exact ⟨_, rfl⟩
  · rw [hcreate]; exact ⟨_, rfl⟩

/-- **What a save can do**: commit the next generation, or fail and change nothing. -/
theorem save_cases (aead : Aead) (namePrefix : Bytes) (dir : Dir) (call : SaveCall) :
    (∃ generation encrypted, nextGeneration (generations namePrefix dir) = some generation ∧
      sealRecord aead call.key call.nonce (encodeJournal generation call.plaintext) =
        .ok encrypted ∧
      save aead namePrefix dir call =
        (.ok generation, committed namePrefix dir generation encrypted)) ∨
    ∃ e, save aead namePrefix dir call = (.error e, dir) := by
  cases hnext : nextGeneration (generations namePrefix dir) with
  | none => exact Or.inr ⟨.generationOverflow, by rw [save, hnext]⟩
  | some generation =>
    cases hseal : sealRecord aead call.key call.nonce (encodeJournal generation call.plaintext) with
    | error e =>
      refine Or.inr ⟨e, ?_⟩
      rw [save, hnext]
      dsimp only
      rw [hseal]
    | ok encrypted =>
      cases htemp : dir.lookup (tempPath namePrefix generation) with
      | none => exact Or.inl ⟨generation, encrypted, rfl, hseal, save_ok hnext hseal htemp⟩
      | some bytes => exact Or.inr (save_blocked hnext (by rw [htemp]; rfl))

/-! ### Loading what was committed -/

/-- A sealed record opens to its plaintext. -/
theorem openRecord_sealRecord (haead : OpensSealed aead) {key : Key32} {nonce : U8Array 12}
    {plaintext : Bytes} (h : sealRecord aead key nonce plaintext = .ok encrypted) :
    openRecord aead key encrypted = .ok plaintext := by
  unfold sealRecord at h
  split at h
  · exact absurd h (by simp)
  rename_i body hbody
  obtain rfl := Except.ok.inj h
  have hversion : (toBe 2 storageFormatVersion.toNat).length = 2 := length_toBe _ _
  -- every part of the record is found again at its place
  have hlen : ¬ (toBe 2 storageFormatVersion.toNat ++ nonce.toList ++ body).length <
      recordHeaderLen + nonceLen + aeadTagLen := by
    have := haead.tag hbody
    simp only [List.length_append, hversion, Vector.length_toList, recordHeaderLen, nonceLen]
    omega
  have hslice : slice (toBe 2 storageFormatVersion.toNat ++ nonce.toList ++ body) 0 2 =
      toBe 2 storageFormatVersion.toNat := by
    rw [List.append_assoc]; exact slice_append_left _ _ hversion.symm
  have hnonce : slice (toBe 2 storageFormatVersion.toNat ++ nonce.toList ++ body) recordHeaderLen
      (recordHeaderLen + nonceLen) = nonce.toList := by
    rw [List.append_assoc]
    exact slice_append_mid _ _ _ hversion.symm (by rw [hversion, Vector.length_toList]; rfl)
  have hbody' : (toBe 2 storageFormatVersion.toNat ++ nonce.toList ++ body).drop
      (recordHeaderLen + nonceLen) = body :=
    List.drop_left' (by rw [List.length_append, hversion, Vector.length_toList]; rfl)
  have hok : ¬ UInt16.ofNat (ofBe (toBe 2 storageFormatVersion.toNat)) ≠ storageFormatVersion := by
    decide
  rw [openRecord, if_neg hlen, hslice, if_neg hok]
  dsimp only
  rw [hnonce, hbody', arrayOf_toList, haead.opens hbody]

theorem decodeJournal_encodeJournal (generation : UInt64) (plaintext : Bytes) :
    decodeJournal (encodeJournal generation plaintext) generation = .ok plaintext := by
  have hmagic : journalMagic.length = 4 := rfl
  -- magic, generation and plaintext, each at its place
  have hlen : ¬ (encodeJournal generation plaintext).length < journalHeaderLen := by
    simp only [encodeJournal, List.length_append, hmagic, length_beBytes, journalHeaderLen]
    omega
  have hslice : slice (encodeJournal generation plaintext) 0 4 = journalMagic := by
    rw [encodeJournal, List.append_assoc]; exact slice_append_left _ _ rfl
  have hgeneration : slice (encodeJournal generation plaintext) 4 12 = beBytes generation := by
    rw [encodeJournal, List.append_assoc]
    exact slice_append_mid _ _ _ rfl (by rw [length_beBytes]; rfl)
  have hrest : (encodeJournal generation plaintext).drop journalHeaderLen = plaintext :=
    List.drop_left' (by simp [hmagic, journalHeaderLen])
  rw [decodeJournal, if_neg hlen, hslice, if_neg (fun h => h rfl), hgeneration, ofBeBytes_beBytes,
    if_neg (fun h => h rfl), hrest]

/-- **A committed record is the one that loads.** -/
theorem load_committed (haead : OpensSealed aead)
    (hnext : nextGeneration (generations namePrefix dir) = some generation)
    (hseal : sealRecord aead call.key call.nonce (encodeJournal generation call.plaintext) =
      .ok encrypted) :
    load aead namePrefix (committed namePrefix dir generation encrypted) call.key =
      .ok (generation, call.plaintext) := by
  -- the new generation is above all others, so it is read first
  obtain ⟨older, hrev⟩ := generations_reverse
    (mem_generations_committed.mpr (Or.inl rfl) :
      generation ∈ generations namePrefix (committed namePrefix dir generation encrypted))
    (fun g hg => by
      rcases mem_generations_committed.mp hg with rfl | hg
      · exact UInt64.le_refl g
      · have := nextGeneration_fresh hnext g hg
        rw [word_lt_iff] at this
        rw [word_le_iff]; omega)
  rw [load, hrev, loadLoop, lookup_committed, if_pos rfl]
  dsimp only
  rw [openRecord_sealRecord haead hseal]
  dsimp only
  rw [decodeJournal_encodeJournal]

end NexaMessenger.Storage
