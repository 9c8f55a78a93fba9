import NexaMessenger.Lib.Refinement
import NexaMessenger.Storage.Durability
import NexaMessenger.Storage.Restart

namespace NexaMessenger.Storage

open Lib Ratchet

/-!
# Storage — a receiving device with power cuts

The device of the restart test of the storage crate: a receive ratchet in memory, whose snapshots go
to the journal.  It decrypts, checkpoints and restarts, and its power may fail while it checkpoints,
between two steps of the save or in the middle of the write.

`Reader` says what such a device is, without keys, files and bytes: a window on the numbers of the
messages, of which one copy is in memory and one was saved.  All that the journal adds to it is a
count of the records and whether a leftover file stands in the way of every later save.
`device_is_reader` says that the device answers as its reader, in every run.
-/

/-! ### The device -/

/-- Where a save is cut off. -/
inductive Cut
  /-- after so many of its steps -/
  | after (steps : Nat)
  /-- when so many bytes of its file are written -/
  | within (written : Nat)
deriving DecidableEq

/-- The operation of the journal. -/
def Cut.op (call : SaveCall) : Cut → JournalOp
  | .after steps => .stop call steps
  | .within written => .tear call written

inductive DeviceOp
  | run (op : ClientOp)
  /-- the power fails while the device checkpoints -/
  | powerCut (nonce : U8Array 12) (cut : Cut)
deriving DecidableEq

/-- What is seen of an answer.  Errors are not told apart. -/
inductive Seen
  | read (plaintext : Option Bytes)
  | done (success : Bool)
  | nothing
deriving DecidableEq

def seen : ClientAnswer → Seen
  | .decrypted result => .read result.toOption
  | .checkpointed success => .done success
  | .restarted success => .done success
  | .noRatchet => .nothing

section
variable (hkdf : Hkdf) (packetAead journalAead : Aead) (namePrefix : Bytes) (key : Key32)

/-- One operation.  A power cut clears the memory, and leaves in the directory what the save did
    until then. -/
def deviceStep (c : Client) : DeviceOp → Seen × Client
  | .run op =>
    let (answer, c) := clientStep hkdf packetAead journalAead namePrefix key c op
    (seen answer, c)
  | .powerCut nonce cut =>
    match c.ratchet with
    | none => (.nothing, c)
    | some r =>
      match r.snapshot with
      | .error _ => (.nothing, { c with ratchet := none })
      | .ok snapshot =>
        let (_, dir) := journalStep journalAead namePrefix c.dir (cut.op ⟨key, nonce, snapshot⟩)
        (.nothing, ⟨none, dir⟩)

/-- The plaintext to which a packet opens at its counter. -/
def opensTo (root : Key32) (call : Call) : Option Bytes :=
  (messageKey hkdf root call.counter.toNat).bind fun messageKey =>
    (RatchetState.decryptOnce packetAead messageKey call.packet call.aad).toOption

end

/-! ### The reader -/

/-- The rename of a save that is cut there has taken effect. -/
def Cut.Commits : Cut → Prop
  | .after steps => saveSteps ≤ steps
  | .within _ => False

/-- A save that is cut there leaves its temporary file. -/
def Cut.LeavesTemp : Cut → Prop
  | .after steps => 2 ≤ steps ∧ steps < saveSteps
  | .within _ => True

instance : DecidablePred Cut.Commits
  | .after steps => inferInstanceAs (Decidable (saveSteps ≤ steps))
  | .within _ => inferInstanceAs (Decidable False)

instance : DecidablePred Cut.LeavesTemp
  | .after steps => inferInstanceAs (Decidable (2 ≤ steps ∧ steps < saveSteps))
  | .within _ => inferInstanceAs (Decidable True)

structure Reader where
  memory : Option Window
  saved : Option Window
  /-- how many saves have committed -/
  records : Nat
  /-- a cut save left its temporary file -/
  stuck : Bool

namespace Reader

/-- Nothing is read or saved. -/
def start : Reader := ⟨some .start, none, 0, false⟩

/-- A save of this window commits if nothing cuts it. -/
def CanSave (a : Reader) (w : Window) : Prop :=
  w.missing.card ≤ maxSnapshotSkipped ∧ a.records < 2 ^ 64 ∧ a.stuck = false

instance (a : Reader) (w : Window) : Decidable (a.CanSave w) :=
  inferInstanceAs (Decidable (_ ∧ _ ∧ _))

def save (a : Reader) (w : Window) : Reader :=
  { a with saved := some w, records := a.records + 1 }

/-- A save of this window is cut. -/
def cut (a : Reader) (w : Window) (cut : Cut) : Reader :=
  if a.CanSave w then
    if cut.Commits then a.save w
    else if cut.LeavesTemp then { a with stuck := true }
    else a
  else a

end Reader

/-- One operation.  A number is read once; a restart goes back to the window that was saved last,
    which it cannot do if that window ends at the highest number. -/
def readerStep (opens : Call → Option Bytes) (a : Reader) : DeviceOp → Seen × Reader
  | .run (.decrypt call) =>
    match a.memory with
    | none => (.nothing, a)
    | some w =>
      match opens call, w.accept 256 call.counter.toNat with
      | some plaintext, some w' => (.read (some plaintext), { a with memory := some w' })
      | _, _ => (.read none, a)
  | .run (.checkpoint _) =>
    match a.memory with
    | none => (.nothing, a)
    | some w => if a.CanSave w then (.done true, a.save w) else (.done false, a)
  | .run .restart =>
    match a.saved with
    | none => (.done false, { a with memory := none })
    | some w =>
      if w.next + 1 < 2 ^ 64 then (.done true, { a with memory := some w })
      else (.done false, { a with memory := none })
  | .powerCut _ cut =>
    match a.memory with
    | none => (.nothing, a)
    | some w => (.nothing, { a.cut w cut with memory := none })

section

variable {hkdf : Hkdf} {packetAead journalAead aead : Aead} {namePrefix : Bytes} {key root : Key32}
  {dir : Dir} {records : Nat} {stuck : Bool} {generation : UInt64} {encrypted : Bytes}

theorem opensTo_eq_some_iff {call : Call} {plaintext : Bytes} :
    opensTo hkdf packetAead root call = some plaintext ↔
      Opens hkdf packetAead root call.counter call.packet call.aad plaintext := by
  rw [opensTo, Option.bind_eq_some_iff]
  refine exists_congr fun messageKey => and_congr_right fun _ => ?_
  cases RatchetState.decryptOnce packetAead messageKey call.packet call.aad <;>
    simp [Except.toOption]

/-! ### The directory as a count -/

/-- The directory holds records of the first `records` generations; no temporary file is left, or,
    if the reader is stuck, the one that the next save would create. -/
structure Shelf (namePrefix : Bytes) (dir : Dir) (records : Nat) (stuck : Bool) : Prop where
  listed : ∀ g, g ∈ generations namePrefix dir ↔ g.toNat < records
  fits : records ≤ 2 ^ 64
  clear : stuck = false → Clear namePrefix dir
  blocked : stuck = true → Blocked namePrefix dir

/-- The next generation is the count. -/
theorem Shelf.next (h : Shelf namePrefix dir records stuck) (hroom : records < 2 ^ 64) :
    ∃ generation, nextGeneration (generations namePrefix dir) = some generation ∧
      generation.toNat = records := by
  obtain ⟨generation, hnext⟩ := @nextGeneration_of_ne_max namePrefix dir
    fun g hg => by have := (h.listed g).mp hg; omega
  refine ⟨generation, hnext, ?_⟩
  have hfresh := nextGeneration_fresh hnext
  -- it is not one of those there are
  have hge : records ≤ generation.toNat := by
    by_contra hlt
    exact absurd (hfresh generation ((h.listed generation).mpr (by omega))) (UInt64.lt_irrefl _)
  -- and all those below it are there
  by_contra hne
  have hpos : records < generation.toNat := by omega
  unfold nextGeneration at hnext
  split at hnext
  · rename_i current hmax
    have hcurrent := (h.listed current).mp (List.max?_eq_some_iff.mp hmax).1
    have hsum := checkedAdd_eq_some hnext
    have hone : (1 : UInt64).toNat = 1 := rfl
    omega
  · obtain rfl := Option.some.inj hnext
    exact absurd hpos (by simp)

/-- The first step of a save leaves the directory as it is. -/
theorem saveStep_early (aead : Aead) (namePrefix : Bytes) (dir : Dir) (call : SaveCall) {k : Nat}
    (hk : k < 2) : ((saveStep aead namePrefix call)^[k] (dir, .start)).1 = dir := by
  have hprogress := progress_of_iterate aead namePrefix dir call k
  generalize (saveStep aead namePrefix call)^[k] (dir, .start) = s at hprogress ⊢
  cases hprogress with
  | start => rfl
  | failed hone error => rfl
  | writing hone hlisted hfree =>
    obtain rfl : k = 1 := by omega
    rfl

/-- A save fails at its second step, if the generations have run out or a leftover is in its way. -/
theorem Shelf.fails (h : Shelf namePrefix dir records stuck)
    (hnot : ¬ (records < 2 ^ 64 ∧ stuck = false)) (aead : Aead) (call : SaveCall) {k : Nat}
    (hk : 2 ≤ k) :
    ∃ e, (saveStep aead namePrefix call)^[k] (dir, .start) = (dir, .done (.error e)) := by
  have hprogress := progress_of_iterate aead namePrefix dir call k
  generalize (saveStep aead namePrefix call)^[k] (dir, .start) = s at hprogress ⊢
  cases hprogress with
  | start => exact absurd hk (by decide)
  | failed hone error => exact ⟨error, rfl⟩
  | @writing _ generation encrypted hone hlisted hfree =>
    exfalso
    by_cases hroom : records < 2 ^ 64
    · obtain ⟨generation', hnext, htaken⟩ := h.blocked
        (Bool.eq_true_of_not_eq_false fun hfree => hnot ⟨hroom, hfree⟩)
      rw [hlisted.next] at hnext
      rw [← Option.some.inj hnext, hfree hk] at htaken
      exact absurd htaken (by simp)
    · -- every word is the generation of a record
      have hmem := (h.listed generation).mpr (by have := generation.toNat_lt; omega)
      exact UInt64.lt_irrefl _ (nextGeneration_fresh hlisted.next _ hmem)

theorem Shelf.save_fails (h : Shelf namePrefix dir records stuck)
    (hnot : ¬ (records < 2 ^ 64 ∧ stuck = false)) (aead : Aead) (call : SaveCall) :
    ∃ e, save aead namePrefix dir call = (.error e, dir) := by
  obtain ⟨e, hfail⟩ := h.fails hnot aead call (k := saveSteps) (by decide)
  rw [saveStep_iterate] at hfail
  obtain ⟨hdir, hresult⟩ := Prod.mk.inj hfail
  exact ⟨e, Prod.ext (SaveState.done.inj hresult) hdir⟩

theorem Shelf.cut_fails (h : Shelf namePrefix dir records stuck)
    (hnot : ¬ (records < 2 ^ 64 ∧ stuck = false)) (aead : Aead) (call : SaveCall) (cut : Cut) :
    (journalStep aead namePrefix dir (cut.op call)).2 = dir := by
  cases cut with
  | after steps =>
    show ((saveStep aead namePrefix call)^[steps] (dir, .start)).1 = dir
    by_cases hk : steps < 2
    · exact saveStep_early aead namePrefix dir call hk
    · obtain ⟨e, hfail⟩ := h.fails hnot aead call (Nat.le_of_not_lt hk)
      rw [hfail]
  | within written =>
    obtain ⟨e, hfail⟩ := h.fails hnot aead call (k := 2) (by decide)
    rw [Cut.op, journalStep, hfail]

/-- **What is left of a save that is cut**, if nothing else stops it. -/
theorem journalStep_cut {call : SaveCall} (h : Listed aead namePrefix dir call generation encrypted)
    (hfree : dir.lookup (tempPath namePrefix generation) = none) (cut : Cut) :
    let dir' := (journalStep aead namePrefix dir (cut.op call)).2
    (cut.Commits ∧ dir' = committed namePrefix dir generation encrypted) ∨
    (¬ cut.Commits ∧ cut.LeavesTemp ∧
      (∀ name, name ≠ tempPath namePrefix generation → dir'.lookup name = dir.lookup name) ∧
      (dir'.lookup (tempPath namePrefix generation)).isSome) ∨
    (¬ cut.Commits ∧ ¬ cut.LeavesTemp ∧ dir' = dir) := by
  have hsteps := iterate_of_free h hfree
  cases cut with
  | after steps =>
    intro dir'
    have hdir : dir' = (progress namePrefix dir generation encrypted steps).1 := by
      show ((saveStep aead namePrefix call)^[steps] (dir, .start)).1 = _
      rw [hsteps]
    rw [hdir]
    unfold Cut.Commits Cut.LeavesTemp saveSteps
    by_cases hfive : 5 ≤ steps
    · obtain ⟨n, rfl⟩ := Nat.exists_eq_add_of_le' hfive
      exact .inl ⟨hfive, rfl⟩
    by_cases htwo : 2 ≤ steps
    · refine .inr (.inl ⟨hfive, ⟨htwo, by omega⟩, ?_, lookup_temp_progress htwo (by omega)⟩)
      intro name hname
      have hfour : steps < 5 := Nat.lt_of_not_le hfive
      match steps, htwo, hfour with
      | 2, _, _ | 3, _, _ | 4, _, _ => simp only [progress, lookup_insert_eq, hname, if_false]
    · refine .inr (.inr ⟨hfive, by omega, ?_⟩)
      rw [← hsteps]
      exact saveStep_early aead namePrefix dir call (by omega)
  | within written =>
    intro dir'
    have hdir : dir' = (dir.insert (tempPath namePrefix generation) []).insert
        (tempPath namePrefix generation) (encrypted.take written) := by
      show (journalStep aead namePrefix dir (.tear call written)).2 = _
      rw [journalStep, hsteps 2]
      rfl
    rw [hdir]
    refine .inr (.inl ⟨id, trivial, fun name hname => ?_, by simp⟩)
    simp only [lookup_insert_eq, hname, if_false]

theorem Shelf.commit (h : Shelf namePrefix dir records false)
    (hgeneration : generation.toNat = records) :
    Shelf namePrefix (committed namePrefix dir generation encrypted) (records + 1) false where
  listed g := by
    rw [mem_generations_committed, h.listed, ← UInt64.toNat_inj]
    omega
  fits := by have := generation.toNat_lt; omega
  clear _ g := by
    rw [lookup_committed, if_neg (finalPath_ne_tempPath _ _ _).symm]
    split
    · rfl
    · exact h.clear rfl g
  blocked hstuck := absurd hstuck (by simp)

theorem Shelf.leave (h : Shelf namePrefix dir records false)
    (hnext : nextGeneration (generations namePrefix dir) = some generation) {dir' : Dir}
    (hframe : ∀ name, name ≠ tempPath namePrefix generation → dir'.lookup name = dir.lookup name)
    (htemp : (dir'.lookup (tempPath namePrefix generation)).isSome) :
    Shelf namePrefix dir' records true where
  listed g := by rw [mem_generations_of_frame hframe, h.listed]
  fits := h.fits
  clear hstuck := absurd hstuck (by simp)
  blocked _ :=
    ⟨generation, by rw [nextGeneration_congr (mem_generations_of_frame hframe), hnext], htemp⟩

/-! ### The relation -/

section
variable (hkdf journalAead namePrefix key root)

/-- The newest record is the snapshot of a ratchet that follows the window. -/
def Newest (dir : Dir) (records : Nat) (w : Window) : Prop :=
  ∃ (r : ReceiveRatchet) (snapshot : Bytes) (generation : UInt64), Follows hkdf root w r ∧
    r.snapshot = .ok snapshot ∧ generation.toNat + 1 = records ∧
    ∃ nonce encrypted,
      sealRecord journalAead key nonce (encodeJournal generation snapshot) = .ok encrypted ∧
      dir.lookup (finalPath namePrefix generation) = some encrypted

/-- The device and its reader. -/
structure Mirrors (c : Client) (a : Reader) : Prop where
  memory : Option.Rel (fun r w => Follows hkdf root w r) c.ratchet a.memory
  shelf : Shelf namePrefix c.dir a.records a.stuck
  saved : ∀ w, a.saved = some w → Newest hkdf journalAead namePrefix key root c.dir a.records w
  unsaved : a.saved = none → a.records = 0

end

variable {c : Client} {a : Reader} {w : Window}

/-- What a device loads is what was kept. -/
theorem Newest.load (h : Newest hkdf journalAead namePrefix key root dir records w)
    (haead : OpensSealed journalAead) (hshelf : Shelf namePrefix dir records stuck) :
    ∃ r snapshot generation, Follows hkdf root w r ∧ r.snapshot = .ok snapshot ∧
      Storage.load journalAead namePrefix dir key = .ok (generation, snapshot) := by
  obtain ⟨r, snapshot, generation, hfollows, hsnapshot, hlast, nonce, encrypted, hseal, hstored⟩ :=
    h
  refine ⟨r, snapshot, generation, hfollows, hsnapshot, ?_⟩
  obtain ⟨older, hrev⟩ := generations_reverse ((hshelf.listed generation).mpr (by omega))
    fun g hg => by
      have := (hshelf.listed g).mp hg
      rw [word_le_iff]
      omega
  rw [Storage.load, hrev, loadLoop, hstored]
  dsimp only
  rw [openRecord_sealRecord haead hseal]
  dsimp only
  rw [decodeJournal_encodeJournal]

/-- A record is kept as long as no other is written. -/
theorem Newest.frame (h : Newest hkdf journalAead namePrefix key root dir records w) {dir' : Dir}
    (hframe : ∀ name, name ≠ tempPath namePrefix generation →
      dir'.lookup name = dir.lookup name) :
    Newest hkdf journalAead namePrefix key root dir' records w := by
  obtain ⟨r, snapshot, generation, hfollows, hsnapshot, hlast, nonce, encrypted, hseal, hstored⟩ :=
    h
  exact ⟨r, snapshot, generation, hfollows, hsnapshot, hlast, nonce, encrypted, hseal,
    by rw [hframe _ (finalPath_ne_tempPath _ _ _), hstored]⟩

/-- The snapshot of a ratchet is refused if too many numbers are missing. -/
theorem Follows.snapshot_cases {r : ReceiveRatchet} (h : Follows hkdf root w r) :
    (w.missing.card ≤ maxSnapshotSkipped ∧ ∃ snapshot, r.snapshot = .ok snapshot) ∨
    (¬ w.missing.card ≤ maxSnapshotSkipped ∧ ∃ e, r.snapshot = .error e) := by
  rw [← h.size, ReceiveRatchet.snapshot]
  by_cases hmany : maxSnapshotSkipped < r.skipped.size
  · rw [if_pos hmany]
    exact .inr ⟨by omega, _, rfl⟩
  · rw [if_neg hmany]
    exact .inl ⟨by omega, _, rfl⟩

theorem Mirrors.memory_cases (h : Mirrors hkdf journalAead namePrefix key root c a) :
    (c.ratchet = none ∧ a.memory = none) ∨
    ∃ r w, c.ratchet = some r ∧ a.memory = some w ∧ Follows hkdf root w r := by
  have hmemory := h.memory
  generalize c.ratchet = ratchet at hmemory ⊢
  generalize a.memory = memory at hmemory ⊢
  cases hmemory with
  | none => exact .inl ⟨rfl, rfl⟩
  | some hfollows => exact .inr ⟨_, _, rfl, rfl, hfollows⟩

/-- The relation does not depend on what is in memory. -/
theorem Mirrors.with_memory (h : Mirrors hkdf journalAead namePrefix key root c a)
    {ratchet : Option ReceiveRatchet} {memory : Option Window}
    (hmemory : Option.Rel (fun r w => Follows hkdf root w r) ratchet memory) :
    Mirrors hkdf journalAead namePrefix key root { c with ratchet } { a with memory } :=
  ⟨hmemory, h.shelf, h.saved, h.unsaved⟩

/-- **The outcomes of a save.**  Too many numbers are missing for a snapshot; or the journal takes
    no more records; or the record is the next one. -/
theorem Mirrors.save_cases (haead : WorkingCipher journalAead)
    (h : Mirrors hkdf journalAead namePrefix key root c a) {r : ReceiveRatchet}
    (hfollows : Follows hkdf root w r) (nonce : U8Array 12) :
    (¬ a.CanSave w ∧ ∃ e, r.snapshot = .error e) ∨
    ∃ snapshot, r.snapshot = .ok snapshot ∧
      ((¬ a.CanSave w ∧ ¬ (a.records < 2 ^ 64 ∧ a.stuck = false)) ∨
        (a.CanSave w ∧ ∃ generation encrypted,
          Listed journalAead namePrefix c.dir ⟨key, nonce, snapshot⟩ generation encrypted ∧
          c.dir.lookup (tempPath namePrefix generation) = none ∧
          generation.toNat = a.records)) := by
  obtain ⟨hfew, snapshot, hsnapshot⟩ | ⟨hmany, hsnapshot⟩ := Follows.snapshot_cases hfollows
  · refine .inr ⟨snapshot, hsnapshot, ?_⟩
    by_cases hopen : a.records < 2 ^ 64 ∧ a.stuck = false
    · obtain ⟨generation, hnext, hgeneration⟩ := h.shelf.next hopen.1
      obtain ⟨encrypted, hlisted⟩ := haead.listed ⟨key, nonce, snapshot⟩ hnext
      exact .inr ⟨⟨hfew, hopen⟩, generation, encrypted, hlisted, h.shelf.clear hopen.2 generation,
        hgeneration⟩
    · exact .inl ⟨fun hcan => hopen hcan.2, hopen⟩
  · exact .inl ⟨fun hcan => hmany hcan.1, hsnapshot⟩

/-- A record that is committed is kept, and the reader has saved. -/
theorem Mirrors.commit (h : Mirrors hkdf journalAead namePrefix key root c a)
    (hstuck : a.stuck = false) {r : ReceiveRatchet} (hfollows : Follows hkdf root w r)
    {snapshot : Bytes} (hsnapshot : r.snapshot = .ok snapshot) {nonce : U8Array 12}
    (hlisted : Listed journalAead namePrefix c.dir ⟨key, nonce, snapshot⟩ generation encrypted)
    (hgeneration : generation.toNat = a.records) :
    Mirrors hkdf journalAead namePrefix key root
      { c with dir := committed namePrefix c.dir generation encrypted } (a.save w) := by
  have hshelf := h.shelf
  rw [hstuck] at hshelf
  refine ⟨h.memory, ?_, ?_, fun hnone => absurd hnone (by simp [Reader.save])⟩
  · show Shelf namePrefix _ (a.records + 1) a.stuck
    rw [hstuck]
    exact hshelf.commit hgeneration
  · intro w' hw'
    obtain rfl := Option.some.inj hw'
    refine ⟨r, snapshot, generation, hfollows, hsnapshot, by rw [hgeneration]; rfl, nonce,
      encrypted, hlisted.sealed, ?_⟩
    rw [lookup_committed, if_pos rfl]

/-- **Decrypting.** -/
theorem Mirrors.decrypt (h : Mirrors hkdf journalAead namePrefix key root c a) (call : Call) :
    let next := deviceStep hkdf packetAead journalAead namePrefix key c (.run (.decrypt call))
    let next' := readerStep (opensTo hkdf packetAead root) a (.run (.decrypt call))
    next.1 = next'.1 ∧ Mirrors hkdf journalAead namePrefix key root next.2 next'.2 := by
  obtain ⟨hratchet, hmemory⟩ | ⟨r, w, hratchet, hmemory, hfollows⟩ := h.memory_cases
  · simp only [deviceStep, clientStep, readerStep, hratchet, hmemory]
    exact ⟨rfl, h⟩
  · simp only [deviceStep, clientStep, readerStep, hratchet, hmemory]
    rcases hfollows.decrypt packetAead call.counter call.packet call.aad with
      ⟨w', plaintext, r', haccept, hopens, hdec, hfollows'⟩ | ⟨e, hdec, hreject⟩
    · rw [receive, hdec, opensTo_eq_some_iff.mpr hopens, haccept]
      exact ⟨rfl, h.with_memory (.some hfollows')⟩
    · -- the packet does not open at its counter, or the window refuses it
      rw [receive, hdec]
      have hsame : { c with ratchet := some r } = c := by rw [← hratchet]
      cases hopens : opensTo hkdf packetAead root call with
      | none => exact ⟨rfl, hsame ▸ h⟩
      | some plaintext =>
        rw [hreject plaintext (opensTo_eq_some_iff.mp hopens)]
        exact ⟨rfl, hsame ▸ h⟩

/-- **Checkpointing.** -/
theorem Mirrors.checkpoint (haead : WorkingCipher journalAead)
    (h : Mirrors hkdf journalAead namePrefix key root c a) (nonce : U8Array 12) :
    let next := deviceStep hkdf packetAead journalAead namePrefix key c (.run (.checkpoint nonce))
    let next' := readerStep (opensTo hkdf packetAead root) a (.run (.checkpoint nonce))
    next.1 = next'.1 ∧ Mirrors hkdf journalAead namePrefix key root next.2 next'.2 := by
  obtain ⟨ratchet, dir⟩ := c
  obtain ⟨memory, saved, records, stuck⟩ := a
  obtain ⟨rfl, rfl⟩ | ⟨r, w, rfl, rfl, hfollows⟩ := h.memory_cases
  · exact ⟨rfl, h⟩
  simp only [deviceStep, clientStep, readerStep]
  obtain ⟨hnot, e, hsnapshot⟩ | ⟨snapshot, hsnapshot, hcases⟩ := h.save_cases haead hfollows nonce
  · rw [hsnapshot, if_neg hnot]
    exact ⟨rfl, h⟩
  rw [hsnapshot]
  dsimp only
  obtain ⟨hnot, hshut⟩ | ⟨hcan, generation, encrypted, hlisted, hfree, hgeneration⟩ := hcases
  · obtain ⟨e, hfail⟩ := h.shelf.save_fails hshut journalAead ⟨key, nonce, snapshot⟩
    rw [hfail, if_neg hnot]
    exact ⟨rfl, h⟩
  · rw [save_ok hlisted.next hlisted.sealed hfree, if_pos hcan]
    exact ⟨rfl, h.commit hcan.2.2 hfollows hsnapshot hlisted hgeneration⟩

/-- **Restarting.** -/
theorem Mirrors.restart (haead : OpensSealed journalAead)
    (h : Mirrors hkdf journalAead namePrefix key root c a) :
    let next := deviceStep hkdf packetAead journalAead namePrefix key c (.run .restart)
    let next' := readerStep (opensTo hkdf packetAead root) a (.run .restart)
    next.1 = next'.1 ∧ Mirrors hkdf journalAead namePrefix key root next.2 next'.2 := by
  obtain ⟨ratchet, dir⟩ := c
  obtain ⟨memory, saved, records, stuck⟩ := a
  simp only [deviceStep, clientStep, readerStep]
  cases saved with
  | none =>
    have hnone : generations namePrefix dir = [] := by
      refine List.eq_nil_iff_forall_not_mem.mpr fun g hg => ?_
      have hlt := (h.shelf.listed g).mp hg
      rw [h.unsaved rfl] at hlt
      exact absurd hlt (Nat.not_lt_zero _)
    rw [load, hnone]
    exact ⟨rfl, h.with_memory .none⟩
  | some w =>
    obtain ⟨r, snapshot, generation, hfollows, hsnapshot, hload⟩ :=
      (h.saved w rfl).load haead h.shelf
    rw [hload]
    dsimp only
    rw [fromSnapshot_snapshot hsnapshot]
    -- a snapshot at the highest counter is not restored
    have hnext : w.next + 1 < 2 ^ 64 ↔ ¬ r.state.nextCounter = u64Max := by
      have hmax : u64Max.toNat = 2 ^ 64 - 1 := rfl
      have hlt := r.state.nextCounter.toNat_lt
      rw [hfollows.next, ← UInt64.toNat_inj, hmax]
      omega
    by_cases hend : r.state.nextCounter = u64Max
    · rw [if_pos hend, if_neg (by rw [hnext]; exact not_not.mpr hend)]
      exact ⟨rfl, h.with_memory .none⟩
    · rw [if_neg hend, if_pos (hnext.mpr hend)]
      exact ⟨rfl, h.with_memory (.some hfollows)⟩

/-- **A power cut.** -/
theorem Mirrors.powerCut (haead : WorkingCipher journalAead)
    (h : Mirrors hkdf journalAead namePrefix key root c a) (nonce : U8Array 12) (cut : Cut) :
    let next := deviceStep hkdf packetAead journalAead namePrefix key c (.powerCut nonce cut)
    let next' := readerStep (opensTo hkdf packetAead root) a (.powerCut nonce cut)
    next.1 = next'.1 ∧ Mirrors hkdf journalAead namePrefix key root next.2 next'.2 := by
  obtain ⟨ratchet, dir⟩ := c
  obtain ⟨memory, saved, records, stuck⟩ := a
  obtain ⟨rfl, rfl⟩ | ⟨r, w, rfl, rfl, hfollows⟩ := h.memory_cases
  · exact ⟨rfl, h⟩
  simp only [deviceStep, readerStep, Reader.cut]
  obtain ⟨hnot, e, hsnapshot⟩ | ⟨snapshot, hsnapshot, hcases⟩ := h.save_cases haead hfollows nonce
  · rw [hsnapshot, if_neg hnot]
    exact ⟨rfl, h.with_memory .none⟩
  rw [hsnapshot]
  dsimp only
  obtain ⟨hnot, hshut⟩ | ⟨hcan, generation, encrypted, hlisted, hfree, hgeneration⟩ := hcases
  · rw [if_neg hnot, h.shelf.cut_fails hshut journalAead ⟨key, nonce, snapshot⟩ cut]
    exact ⟨rfl, h.with_memory .none⟩
  rw [if_pos hcan]
  obtain ⟨hcommits, hdir⟩ | ⟨hnot, hleaves, hframe, htemp⟩ | ⟨hnot, hleaves, hdir⟩ :=
    journalStep_cut hlisted hfree cut
  · rw [if_pos hcommits, hdir]
    exact ⟨rfl, (h.commit hcan.2.2 hfollows hsnapshot hlisted hgeneration).with_memory .none⟩
  · -- the record of the last save is as it was
    rw [if_neg hnot, if_pos hleaves]
    have hshelf := h.shelf
    rw [hcan.2.2] at hshelf
    exact ⟨rfl, .none, hshelf.leave hlisted.next hframe htemp,
      fun w' hw' => (h.saved w' hw').frame hframe, h.unsaved⟩
  · rw [if_neg hnot, if_neg hleaves, hdir]
    exact ⟨rfl, h.with_memory .none⟩

theorem deviceStep_mirrors (packetAead : Aead) (haead : WorkingCipher journalAead)
    (h : Mirrors hkdf journalAead namePrefix key root c a) (op : DeviceOp) :
    let next := deviceStep hkdf packetAead journalAead namePrefix key c op
    let next' := readerStep (opensTo hkdf packetAead root) a op
    next.1 = next'.1 ∧ Mirrors hkdf journalAead namePrefix key root next.2 next'.2 := by
  match op with
  | .run (.decrypt call) => exact h.decrypt call
  | .run (.checkpoint nonce) => exact h.checkpoint haead nonce
  | .run .restart => exact h.restart haead.toOpensSealed
  | .powerCut nonce cut => exact h.powerCut haead nonce cut

/-- **The device is its reader.**  Start from a fresh receiver and a directory without files of the
    journal, and let the device decrypt any packets, checkpoint, restart and lose its power while it
    checkpoints, in any order.  It answers as the reader does. -/
theorem device_is_reader {receiver : ReceiveRatchet} (packetAead : Aead)
    (hreceiver : ReceiveRatchet.fromRoot hkdf root = .ok receiver)
    (haead : WorkingCipher journalAead) (hempty : generations namePrefix dir = [])
    (hclear : Clear namePrefix dir) (key : Key32) (ops : List DeviceOp) :
    trace (deviceStep hkdf packetAead journalAead namePrefix key) ⟨some receiver, dir⟩ ops =
      trace (readerStep (opensTo hkdf packetAead root)) .start ops := by
  refine trace_eq_of_simulates (R := Mirrors hkdf journalAead namePrefix key root)
    (fun c a h op _ => deviceStep_mirrors packetAead haead h op) ?_
  refine ⟨.some (follows_fromRoot hreceiver), ?_, fun w hw => absurd hw (by simp [Reader.start]),
    fun _ => rfl⟩
  exact ⟨fun g => by rw [hempty]; simp [Reader.start], Nat.zero_le _, fun _ => hclear,
    fun hstuck => absurd hstuck (by simp [Reader.start])⟩

/-! ### A run with the sample primitives -/

/-- Message zero is read and saved.  A power cut in the next save leaves its file half written. -/
def sampleDeviceOps : List DeviceOp :=
  [.run openZero, .run sampleCheckpoint, .powerCut (zeros 12) (.within 7), .run .restart,
    .run openZero, .run sampleCheckpoint]

/-- The restart goes back to the save, so message zero is not read again; and nothing is ever saved
    again. -/
theorem sample_device :
    (trace (deviceStep sampleHkdf sampleAead sampleAead (ascii "receive") (zeros 32)) sampleClient
      sampleDeviceOps).map (·.2) =
      [.read (some (ascii "text")), .done true, .nothing, .done true, .read none, .done false] := by
  have hreceiver : ReceiveRatchet.fromRoot sampleHkdf (zeros 32) = .ok sampleReceiver := by rfl
  rw [sampleClient, device_is_reader sampleAead hreceiver sampleAead_works (by rfl) (clear_empty _)]
  decide +kernel

end

end NexaMessenger.Storage
