import NexaMessenger.Gateway.PreKeys

namespace NexaMessenger.Gateway

open Lib

/-!
# Gateway — the publications of a run

What the registry serves, told from the history of its calls.  `Acceptance` is a publication that
was taken, with its device and time; the stored publication of a device is the last one taken for
it, the generations taken for a device increase, and the devices marked as revoked are those of
the successful revocations (`Published`).

`served_newest_and_live` is what the readers get from it, in runs with any clock readings.
-/

/-- A publication that was taken for a device. -/
structure Acceptance where
  device : Id16
  publication : PreKeyPublication
  time : UInt64
deriving DecidableEq, Repr

/-- The publications taken in a history of calls, oldest first. -/
def acceptances (log : List (RegistryOp × RegistryAnswer)) : List Acceptance :=
  log.filterMap fun
    | (.publish device publication now, .published (.ok _)) => some ⟨device, publication, now⟩
    | _ => none

/-- Those taken for one device. -/
def acceptedFor (log : List (RegistryOp × RegistryAnswer)) (device : Id16) : List Acceptance :=
  (acceptances log).filter fun a => a.device = device

/-- The device was revoked. -/
def Revoked (log : List (RegistryOp × RegistryAnswer)) (device : Id16) : Prop :=
  ∃ generation now, (RegistryOp.revoke device generation now, RegistryAnswer.revoked (.ok ())) ∈ log

/-! ### Valid publications -/

/-- What `validate` checks. -/
structure Valid (ed : Ed25519) (p : PreKeyPublication) (device : Id16) (now : UInt64) : Prop where
  bundle : p.bundle.validate = .ok ()
  device : p.bundle.deviceId = device
  issued : p.issuedAtMs ≤ satAdd now maxClockSkewMs
  ordered : p.issuedAtMs < p.expiresAtMs
  lifetime : satSub p.expiresAtMs p.issuedAtMs ≤ maxLifetimeMs
  unexpired : now < p.expiresAtMs
  signature : p.verifySignature ed = true
  signedPrekey : verifySignedPrekey ed p.bundle = true

theorem valid_of_validate {ed : Ed25519} {p : PreKeyPublication} {device : Id16} {now : UInt64}
    (h : p.validate ed device now = .ok ()) : Valid ed p device now := by
  unfold PreKeyPublication.validate at h
  split at h
  · exact absurd h (by simp)
  rename_i hbundle
  split at h
  · exact absurd h (by simp)
  split at h
  · exact absurd h (by simp)
  rename_i hdevice
  split at h
  · exact absurd h (by simp)
  rename_i htime
  obtain ⟨hissued, hordered⟩ := not_or.mp htime
  split at h
  · exact absurd h (by simp)
  rename_i hlifetime
  split at h
  · exact absurd h (by simp)
  rename_i hexpired
  split at h
  · exact absurd h (by simp)
  rename_i hsigned
  rw [Bool.or_eq_true, not_or, Bool.not_eq_true', Bool.not_eq_true', Bool.not_eq_false,
    Bool.not_eq_false] at hsigned
  exact ⟨hbundle, not_not.mp hdevice, UInt64.not_lt.mp hissued, UInt64.not_le.mp hordered,
    UInt64.not_lt.mp hlifetime, UInt64.not_le.mp hexpired, hsigned.1, hsigned.2⟩

/-- A publication is over at the latest its lifetime and the skew after it was taken. -/
theorem Valid.expires {ed : Ed25519} {p : PreKeyPublication} {device : Id16} {now : UInt64}
    (h : Valid ed p device now) :
    p.expiresAtMs.toNat ≤ now.toNat + maxLifetimeMs.toNat + maxClockSkewMs.toNat := by
  have hissued := h.issued
  have hlifetime := h.lifetime
  rw [word_le_iff, toNat_satAdd] at hissued
  rw [word_le_iff, toNat_satSub] at hlifetime
  omega

/-! ### One call -/

/-- What a call does to the publications and to the revoked devices: it takes a publication, or
    marks a device, or leaves both tables as they are. -/
theorem registryStep_publications (ed : Ed25519) (s : PreKeyRegistry) (op : RegistryOp) :
    (∃ device p now, op = .publish device p now ∧ Accepts ed s device p now ∧
      registryStep ed s op = (.published (.ok ()),
        { s with publications := s.publications.insert p.bundle.deviceId p })) ∨
    (∃ device generation now, op = .revoke device generation now ∧
      registryStep ed s op = (.revoked (.ok ()),
        { s with revoked := s.revoked.insert device now })) ∨
    ((registryStep ed s op).2.publications = s.publications ∧
      (registryStep ed s op).2.revoked = s.revoked ∧
      (registryStep ed s op).1 ≠ .published (.ok ()) ∧
      (registryStep ed s op).1 ≠ .revoked (.ok ())) := by
  cases op with
  | publish device p now =>
    rw [registryStep_publish]
    obtain ⟨e, hstep⟩ | ⟨haccepts, hstep⟩ := publish_cases ed s device p now
    · rw [hstep]
      exact .inr (.inr ⟨rfl, rfl, by simp, by simp⟩)
    · rw [hstep]
      exact .inl ⟨device, p, now, rfl, haccepts, rfl⟩
  | revoke device generation now =>
    rw [registryStep_revoke]
    obtain ⟨e, hstep⟩ | ⟨-, -, hstep⟩ := revoke_cases s device generation now
    · rw [hstep]
      exact .inr (.inr ⟨rfl, rfl, by simp, by simp⟩)
    · rw [hstep]
      exact .inr (.inl ⟨device, generation, now, rfl, rfl⟩)
  | getActive device now => exact .inr (.inr ⟨rfl, rfl, by simp, by simp⟩)
  | claimOpk call =>
    rw [registryStep_claimOpk]
    -- a claim reserves a slot and touches neither table
    obtain ⟨e, hstep⟩ | ⟨_, _, -, -, -, -, hstep⟩ | ⟨_, -, hstep⟩ := claimOpk_cases s call
    all_goals
      rw [hstep]
      exact .inr (.inr ⟨rfl, rfl, by simp, by simp⟩)

/-! ### The history and the tables -/

section
variable (log : List (RegistryOp × RegistryAnswer))

theorem acceptances_publish (device : Id16) (p : PreKeyPublication) (now : UInt64) :
    acceptances (log ++ [(.publish device p now, .published (.ok ()))]) =
      acceptances log ++ [⟨device, p, now⟩] := List.filterMap_append

/-- Any other entry of the history takes no publication. -/
theorem acceptances_other {op : RegistryOp} {answer : RegistryAnswer}
    (h : answer ≠ .published (.ok ())) :
    acceptances (log ++ [(op, answer)]) = acceptances log := by
  rw [acceptances, List.filterMap_append]
  refine (congrArg _ ?_).trans (List.append_nil _)
  rw [List.filterMap_cons_none, List.filterMap_nil]
  split
  · rename_i heq
    exact absurd (Prod.mk.inj heq).2 h
  · rfl

theorem acceptedFor_publish (device d : Id16) (p : PreKeyPublication) (now : UInt64) :
    acceptedFor (log ++ [(.publish device p now, .published (.ok ()))]) d =
      acceptedFor log d ++ if device = d then [⟨device, p, now⟩] else [] := by
  rw [acceptedFor, acceptances_publish, List.filter_append, List.filter_singleton,
    Bool.cond_decide]
  rfl

theorem acceptedFor_other {op : RegistryOp} {answer : RegistryAnswer}
    (h : answer ≠ .published (.ok ())) (d : Id16) :
    acceptedFor (log ++ [(op, answer)]) d = acceptedFor log d := by
  rw [acceptedFor, acceptances_other log h]
  rfl

theorem revoked_concat (op : RegistryOp) (answer : RegistryAnswer) (d : Id16) :
    Revoked (log ++ [(op, answer)]) d ↔
      Revoked log d ∨
        ∃ generation now, op = .revoke d generation now ∧ answer = .revoked (.ok ()) := by
  simp only [Revoked, List.mem_append, List.mem_singleton, Prod.mk.injEq, exists_or, eq_comm]

end

/-- The tables told from the history: what is stored for a device is what was taken last for it,
    generations increase, and the revoked devices are marked. -/
structure Published (ed : Ed25519) (log : List (RegistryOp × RegistryAnswer))
    (s : PreKeyRegistry) : Prop where
  valid : ∀ a ∈ acceptances log, Valid ed a.publication a.device a.time
  newer : ∀ d, (acceptedFor log d).Pairwise fun a b =>
    a.publication.generation < b.publication.generation
  stored : ∀ d, s.publications.lookup d = (acceptedFor log d).getLast?.map (·.publication)
  revoked : ∀ d, (s.revoked.lookup d).isSome ↔ Revoked log d

section
variable {ed : Ed25519} {log : List (RegistryOp × RegistryAnswer)} {s : PreKeyRegistry}

/-- In a list that increases, the last generation is the largest. -/
theorem Published.lt_of_newer (h : Published ed log s) {d : Id16} {generation : UInt64}
    (hnewer : ∀ current, s.publications.lookup d = some current →
      current.generation < generation) :
    ∀ a ∈ acceptedFor log d, a.publication.generation < generation := by
  intro a ha
  rcases List.eq_nil_or_concat (acceptedFor log d) with hnil | ⟨earlier, last, hconcat⟩
  · rw [hnil] at ha
    exact absurd ha (by simp)
  · rw [List.concat_eq_append] at hconcat
    -- the last one is what is stored
    have hlast := hnewer last.publication (by rw [h.stored, hconcat]; simp)
    have hpair := h.newer d
    rw [hconcat] at ha hpair
    rcases List.mem_append.mp ha with hold | hnew
    · have hlt := (List.pairwise_append.mp hpair).2.2 a hold last (List.mem_singleton.mpr rfl)
      exact UInt64.lt_trans hlt hlast
    · rw [List.mem_singleton.mp hnew]
      exact hlast

/-- Taking a publication. -/
theorem Published.publish (h : Published ed log s) {device : Id16} {p : PreKeyPublication}
    {now : UInt64} (haccepts : Accepts ed s device p now) :
    Published ed (log ++ [(.publish device p now, .published (.ok ()))])
      { s with publications := s.publications.insert p.bundle.deviceId p } := by
  have hvalid := valid_of_validate haccepts.valid
  have hdevice := hvalid.device
  constructor
  · intro a ha
    rw [acceptances_publish] at ha
    rcases List.mem_append.mp ha with hold | hnew
    · exact h.valid a hold
    · rw [List.mem_singleton.mp hnew]
      exact hvalid
  · intro d
    rw [acceptedFor_publish]
    split
    · rename_i hd
      -- the one taken is newer than the stored one, so than all earlier ones
      refine List.pairwise_append.mpr ⟨h.newer d, List.pairwise_singleton _ _, ?_⟩
      intro a ha b hb
      rw [List.mem_singleton.mp hb]
      refine h.lt_of_newer (fun current hcurrent => haccepts.newer current ?_) a ha
      rw [hdevice, hd]
      exact hcurrent
    · rw [List.append_nil]
      exact h.newer d
  · intro d
    -- a valid publication is stored under the device it was sent for
    dsimp only
    rw [lookup_insert_eq, acceptedFor_publish, hdevice]
    by_cases hd : device = d
    · rw [if_pos hd.symm, if_pos hd, List.getLast?_concat]
      rfl
    · rw [if_neg fun hd' => hd hd'.symm, if_neg hd, List.append_nil]
      exact h.stored d
  · intro d
    rw [revoked_concat]
    exact (h.revoked d).trans (or_iff_left (by simp)).symm

/-- **Step.** -/
theorem Published.step (h : Published ed log s) (op : RegistryOp) :
    Published ed (log ++ [(op, (registryStep ed s op).1)]) (registryStep ed s op).2 := by
  obtain ⟨device, p, now, rfl, haccepts, hstep⟩ | ⟨device, generation, now, rfl, hstep⟩ |
    ⟨hpublications, hrevoked, hno, hno'⟩ := registryStep_publications ed s op
  · rw [hstep]
    exact h.publish haccepts
  · rw [hstep]
    -- a revocation marks its device and takes no publication
    have hother : RegistryAnswer.revoked (.ok ()) ≠ .published (.ok ()) :=
      RegistryAnswer.noConfusion
    constructor
    · rw [acceptances_other log hother]
      exact h.valid
    · intro d
      rw [acceptedFor_other log hother]
      exact h.newer d
    · intro d
      rw [acceptedFor_other log hother]
      exact h.stored d
    · intro d
      dsimp only
      rw [revoked_concat, lookup_insert_eq, ← h.revoked d]
      by_cases hd : d = device
      · rw [if_pos hd, hd]
        simp
      · have hd' : device ≠ d := fun e => hd e.symm
        simp [hd, hd']
  · constructor
    · rw [acceptances_other log hno]
      exact h.valid
    · intro d
      rw [acceptedFor_other log hno]
      exact h.newer d
    · intro d
      rw [acceptedFor_other log hno, hpublications]
      exact h.stored d
    · intro d
      rw [revoked_concat, hrevoked, h.revoked d]
      refine (or_iff_left ?_).symm
      rintro ⟨generation, now, -, hanswer⟩
      exact hno' hanswer

end

/-- **Run.** -/
theorem run_published (ed : Ed25519) (ops : List RegistryOp) :
    Published ed (trace (registryStep ed) PreKeyRegistry.empty ops)
      (after (registryStep ed) PreKeyRegistry.empty ops) := by
  refine history_invariant_of_step (R := Published ed) ⟨?_, ?_, ?_, ?_⟩
    (fun _ _ op h => h.step op) ops
  · intro a ha
    cases ha
  · intro d
    exact List.Pairwise.nil
  · intro d
    exact lookup_empty_eq d
  · intro d
    simp [Revoked, PreKeyRegistry.empty]

/-! ### What is served -/

/-- A call on a revoked device fails. -/
theorem fails_of_revoked {s : PreKeyRegistry} {d : Id16} (h : (s.revoked.lookup d).isSome)
    (ed : Ed25519) :
    (∀ device p now, p.bundle.deviceId = d ∨ device = d →
      (s.publish ed device p now).1 ≠ .ok ()) ∧
    (∀ now, s.getActive d now = none) ∧
    (∀ call, call.recipient = d → ∀ c, (s.claimOpk call).1 ≠ .ok c) := by
  refine ⟨fun device p now hd hok => ?_, fun now => by rw [PreKeyRegistry.getActive, if_pos h],
    fun call hcall c hok => ?_⟩
  · obtain ⟨e, hstep⟩ | ⟨haccepts, -⟩ := publish_cases ed s device p now
    · rw [hstep] at hok
      exact absurd hok (by simp)
    · -- a publication that is accepted is of the device that sent it
      have hdevice : p.bundle.deviceId = d :=
        hd.elim id fun hd => (valid_of_validate haccepts.valid).device.trans hd
      rw [← hdevice, haccepts.unrevoked] at h
      exact absurd h (by simp)
  · obtain ⟨e, hstep⟩ | ⟨p, _, hclaimable, -⟩ | ⟨publicKey, hreserves, -⟩ := claimOpk_cases s call
    · rw [hstep] at hok
      exact absurd hok (by simp)
    · rw [← hcall, hclaimable.unrevoked] at h
      exact absurd h (by simp)
    · obtain ⟨p, hclaimable, -⟩ := hreserves.claimable
      rw [← hcall, hclaimable.unrevoked] at h
      exact absurd h (by simp)

theorem getActive_eq_some_iff {s : PreKeyRegistry} {d : Id16} {now : UInt64}
    {p : PreKeyPublication} :
    s.getActive d now = some p ↔
      s.publications.lookup d = some p ∧ ¬ (s.revoked.lookup d).isSome ∧ now < p.expiresAtMs := by
  unfold PreKeyRegistry.getActive
  by_cases hrevoked : (s.revoked.lookup d).isSome
  · rw [if_pos hrevoked]
    exact ⟨fun h => absurd h (by simp), fun h => absurd hrevoked h.2.1⟩
  · rw [if_neg hrevoked, Option.filter_eq_some_iff]
    simp [hrevoked]

/-- **What is served is newest, live and authentic.**  After any run, with any clock readings: the
    generations taken for a device increase; a device's publication is served exactly when it is
    the last one taken, the device was never revoked and the publication has not expired; it is of
    the device, both its signatures verify, and it is served for less than its lifetime and the
    skew after it was taken; and after a revocation nothing succeeds for the device. -/
theorem served_newest_and_live (ed : Ed25519) (ops : List RegistryOp) :
    let log := trace (registryStep ed) PreKeyRegistry.empty ops
    let s := after (registryStep ed) PreKeyRegistry.empty ops
    (∀ d, (acceptedFor log d).Pairwise fun a b =>
      a.publication.generation < b.publication.generation) ∧
    (∀ d now p, s.getActive d now = some p ↔
      (acceptedFor log d).getLast?.map (·.publication) = some p ∧ ¬ Revoked log d ∧
        now < p.expiresAtMs) ∧
    (∀ d now p, s.getActive d now = some p → ∃ a ∈ acceptedFor log d, a.publication = p ∧
      p.bundle.deviceId = d ∧ p.verifySignature ed = true ∧
        verifySignedPrekey ed p.bundle = true ∧
        now.toNat < a.time.toNat + maxLifetimeMs.toNat + maxClockSkewMs.toNat) ∧
    (∀ d, Revoked log d →
      (∀ device p now, p.bundle.deviceId = d ∨ device = d →
        (s.publish ed device p now).1 ≠ .ok ()) ∧
      (∀ now, s.getActive d now = none) ∧
      (∀ call, call.recipient = d → ∀ c, (s.claimOpk call).1 ≠ .ok c)) := by
  intro log s
  have h : Published ed log s := run_published ed ops
  refine ⟨h.newer, fun d now p => ?_, fun d now p hp => ?_, fun d hd => ?_⟩
  · rw [getActive_eq_some_iff, h.stored, h.revoked]
  · -- what is stored was valid when it was taken, and its lifetime bounds the time it is served
    obtain ⟨hstored, -, hlive⟩ := getActive_eq_some_iff.mp hp
    rw [h.stored] at hstored
    obtain ⟨a, hlast, rfl⟩ := Option.map_eq_some_iff.mp hstored
    have ha := List.mem_of_getLast? hlast
    obtain ⟨hmem, hdevice⟩ := List.mem_filter.mp ha
    have hvalid := h.valid a hmem
    have hexpires := hvalid.expires
    rw [word_lt_iff] at hlive
    exact ⟨a, ha, rfl, hvalid.device.trans (of_decide_eq_true hdevice), hvalid.signature,
      hvalid.signedPrekey, by omega⟩
  · exact fails_of_revoked ((h.revoked d).mpr hd) ed

end NexaMessenger.Gateway
