import NexaMessenger.Storage.Recovery
import NexaMessenger.Storage.Steps

namespace NexaMessenger.Storage

open Lib

/-!
# Storage — two saves at once

`save` takes no lock, so two calls on one directory may take their steps in any order.  Both list
the same next generation when they list the directory before either renames.  The temporary file
then keeps them apart only as long as it is there: a saver that creates it after the other's
rename writes its own record and renames it over the other's.

`concurrent_saves_kept_iff` says that this is the only way to lose a record.  What carries the proof
is `Shape`: at any time one saver owns what was done to the directory, and the other is idle, runs
after it, or has crossed it.
-/

inductive Saver
  | first | second
deriving DecidableEq, Repr

def Saver.other : Saver → Saver
  | .first => .second
  | .second => .first

@[simp] theorem Saver.other_other (who : Saver) : who.other.other = who := by
  cases who <;> rfl

@[simp] theorem Saver.other_ne (who : Saver) : who.other ≠ who := by
  cases who <;> decide

theorem Saver.eq_or_eq_other (who saver : Saver) : saver = who ∨ saver = who.other := by
  cases who <;> cases saver <;> decide

/-- The directory, and where the two calls of `save` stand. -/
structure Race where
  dir : Dir
  states : Saver → SaveState

/-- What one saver sees. -/
def Race.view (s : Race) (who : Saver) : Dir × SaveState := (s.dir, s.states who)

section
variable (aead : Aead) (namePrefix : Bytes) (calls : Saver → SaveCall)

/-- One saver takes a step. -/
def raceStep (s : Race) (who : Saver) : Race :=
  let (dir, state) := saveStep aead namePrefix (calls who) (s.view who)
  ⟨dir, Function.update s.states who state⟩

/-- The two calls take their steps in a given order. -/
def race (dir : Dir) (order : List Saver) : Race :=
  order.foldl (raceStep aead namePrefix calls) ⟨dir, fun _ => .start⟩

/-- The file of a generation holds the record of `call`. -/
def Loadable (dir : Dir) (generation : UInt64) (call : SaveCall) : Prop :=
  ∃ bytes payload, dir.lookup (finalPath namePrefix generation) = some bytes ∧
    openRecord aead call.key bytes = .ok payload ∧
    decodeJournal payload generation = .ok call.plaintext

/-- If both calls have returned `Ok`, they returned different generations, and each record can be
    loaded under its own. -/
def Kept (s : Race) : Prop :=
  ∀ generation : Saver → UInt64, (∀ who, s.states who = .done (.ok (generation who))) →
    generation .first ≠ generation .second ∧
    ∀ who, Loadable aead namePrefix s.dir (generation who) (calls who)

/-- A saver renames when the other one has listed the directory and not yet created its file, and
    the other one goes on to its own rename. -/
def Crosses (who : Saver) (order : List Saver) : Prop :=
  ∃ i < order.length, order[i]? = some who ∧ (order.take i).count who = 4 ∧
    (order.take i).count who.other = 1 ∧ 4 ≤ (order.drop (i + 1)).count who.other

instance decidableCrosses (who : Saver) (order : List Saver) : Decidable (Crosses who order) :=
  inferInstanceAs (Decidable (∃ i < order.length, _))

/-- Two saves that cross, both of which can seal their records and find the name of the temporary
    file free. -/
structure Collides (dir : Dir) (order : List Saver) : Prop where
  crosses : ∃ who, Crosses who order
  able : ∃ generation, dir.lookup (tempPath namePrefix generation) = none ∧
    ∀ who, ∃ encrypted, Listed aead namePrefix dir (calls who) generation encrypted

end

variable {aead : Aead} {namePrefix : Bytes} {calls : Saver → SaveCall} {base : Dir}

/-! ### Steps of the race -/

theorem race_concat (order : List Saver) (who : Saver) :
    race aead namePrefix calls base (order ++ [who]) =
      raceStep aead namePrefix calls (race aead namePrefix calls base order) who := by
  rw [race, race, List.foldl_append]
  rfl

@[simp] theorem raceStep_view (s : Race) (who : Saver) :
    (raceStep aead namePrefix calls s who).view who =
      saveStep aead namePrefix (calls who) (s.view who) := by
  simp [Race.view, raceStep]

theorem raceStep_states_self (s : Race) (who : Saver) :
    (raceStep aead namePrefix calls s who).states who =
      (saveStep aead namePrefix (calls who) (s.view who)).2 := by
  simp [raceStep]

theorem raceStep_states_of_ne (s : Race) {who saver : Saver} (h : saver ≠ who) :
    (raceStep aead namePrefix calls s who).states saver = s.states saver := by
  simp [raceStep, h]

/-- A step that leaves the directory alone is not seen by the other saver. -/
theorem raceStep_view_of_ne {s : Race} {who saver : Saver} (h : saver ≠ who)
    (hdir : (saveStep aead namePrefix (calls who) (s.view who)).1 = s.dir) :
    (raceStep aead namePrefix calls s who).view saver = s.view saver :=
  Prod.ext hdir (raceStep_states_of_ne s h)

theorem count_concat_self (order : List Saver) (who : Saver) :
    (order ++ [who]).count who = order.count who + 1 := by
  simp

theorem count_concat_of_ne (order : List Saver) {who saver : Saver} (h : saver ≠ who) :
    (order ++ [who]).count saver = order.count saver := by
  simp [h.symm]

/-! ### The shape of a race -/

/-- A save of `call` that has not touched the directory in its `k` steps: it waits, has listed
    the directory when it was like `base`, or failed. -/
inductive Idle (aead : Aead) (namePrefix : Bytes) (base : Dir) (call : SaveCall) :
    Nat → SaveState → Prop
  | start : Idle aead namePrefix base call 0 .start
  | listed {generation : UInt64} {encrypted : Bytes}
      (h : Listed aead namePrefix base call generation encrypted) :
      Idle aead namePrefix base call 1 (.listed generation encrypted)
  | failed {k : Nat} (hk : 1 ≤ k) (error : StorageError) :
      Idle aead namePrefix base call k (.done (.error error))

/-- A saver has renamed when the other one had taken one step. -/
def Crossed (who : Saver) (order : List Saver) : Prop :=
  ∃ pre post, order = pre ++ who :: post ∧ pre.count who = 4 ∧ pre.count who.other = 1

/-- `winner` has renamed after the other one listed the directory.  The name of the temporary file
    is free again, and the other one goes on with its own record. -/
structure Overtaken (namePrefix : Bytes) (base : Dir) (winner : Saver) (generation : UInt64)
    (encrypted encrypted' : Bytes) (order : List Saver) (s : Race) : Prop where
  crossed : Crossed winner order
  done : s.states winner = .done (.ok generation)
  view : s.view winner.other = progress namePrefix
    (committed namePrefix base generation encrypted) generation encrypted'
    (order.count winner.other)

/-- What a race looks like after the steps of `order`. -/
inductive Shape (aead : Aead) (namePrefix : Bytes) (calls : Saver → SaveCall) (base : Dir)
    (order : List Saver) (s : Race) : Prop
  /-- nobody has renamed; what was done to the directory was done by `owner` -/
  | alone (owner : Saver)
      (howner : Progress aead namePrefix base (calls owner) (order.count owner) (s.view owner))
      (hrenamed : (s.states owner).renamed = none)
      (hidle : Idle aead namePrefix base (calls owner.other) (order.count owner.other)
        (s.states owner.other))
  /-- `winner` has renamed, and the other one listed the directory after that, or failed -/
  | apart (winner : Saver) {generation : UInt64} {encrypted : Bytes}
      (hlisted : Listed aead namePrefix base (calls winner) generation encrypted)
      (hdone : s.states winner = .done (.ok generation))
      (hother : Progress aead namePrefix (committed namePrefix base generation encrypted)
        (calls winner.other) (order.count winner.other) (s.view winner.other))
  /-- the two have crossed -/
  | crossed (winner : Saver) {generation : UInt64} {encrypted encrypted' : Bytes}
      (hfree : base.lookup (tempPath namePrefix generation) = none)
      (hlisted : Listed aead namePrefix base (calls winner) generation encrypted)
      (hother : Listed aead namePrefix base (calls winner.other) generation encrypted')
      (hovertaken : Overtaken namePrefix base winner generation encrypted encrypted' order s)

/-- A save that has not renamed left the directory alone, or has created its file. -/
theorem Progress.idle_or_created {call : SaveCall} {k : Nat} {s : Dir × SaveState}
    (h : Progress aead namePrefix base call k s) (hrenamed : s.2.renamed = none) :
    (s.1 = base ∧ Idle aead namePrefix base call k s.2) ∨
    ∃ generation encrypted, Listed aead namePrefix base call generation encrypted ∧
      base.lookup (tempPath namePrefix generation) = none ∧ 2 ≤ k ∧ k ≤ 4 ∧
      s = progress namePrefix base generation encrypted k ∧
      (s.1.lookup (tempPath namePrefix generation)).isSome := by
  cases h with
  | start => exact .inl ⟨rfl, .start⟩
  | failed hk error => exact .inl ⟨rfl, .failed hk error⟩
  | @writing _ generation encrypted hk hlisted hfree =>
    match k, hk with
    | 1, _ => exact .inl ⟨rfl, .listed hlisted⟩
    | 2, _ | 3, _ | 4, _ =>
      exact .inr ⟨generation, encrypted, hlisted, hfree (by omega), by omega, by omega, rfl,
        lookup_temp_progress (by omega) (by omega)⟩
    -- after five steps it has renamed
    | _ + 5, _ => cases hrenamed

/-- The step that renames is the fifth. -/
theorem Progress.rename_step {call : SaveCall} {k : Nat} {s : Dir × SaveState}
    {generation : UInt64} (h : Progress aead namePrefix base call k s)
    (hnone : s.2.renamed = none)
    (hsome : (saveStep aead namePrefix call s).2.renamed = some generation) :
    k = 4 ∧ ∃ encrypted, Listed aead namePrefix base call generation encrypted ∧
      base.lookup (tempPath namePrefix generation) = none ∧
      saveStep aead namePrefix call s =
        (committed namePrefix base generation encrypted, .done (.ok generation)) := by
  cases h with
  | start =>
    obtain ⟨_, _, -, hstep⟩ | ⟨e, hstep⟩ := saveStep_start_cases aead namePrefix base call
    all_goals
      rw [hstep] at hsome
      cases hsome
  | failed hk error => cases hsome
  | @writing _ g encrypted hk hlisted hfree =>
    match k, hk with
    | 1, _ =>
      -- the second step creates the file, or fails when it is there
      cases htemp : base.lookup (tempPath namePrefix g) with
      | none =>
        rw [saveStep_progress htemp (by omega)] at hsome
        cases hsome
      | some bytes =>
        have hstep : saveStep aead namePrefix call (progress namePrefix base g encrypted 1) =
            (base, .done (.error .io)) := saveStep_taken (by rw [htemp]; rfl)
        rw [hstep] at hsome
        cases hsome
    -- writing and syncing rename nothing
    | 2, _ | 3, _ => cases hsome
    | 4, _ =>
      have hstep := @saveStep_progress aead namePrefix base call g encrypted (hfree (by omega)) 4
        (by omega)
      -- the file is still there, so the rename takes effect
      rw [hstep] at hsome ⊢
      obtain rfl := Option.some.inj hsome
      exact ⟨rfl, encrypted, hlisted, hfree (by omega), rfl⟩
    | _ + 5, _ => cases hnone

/-- A saver that has listed the directory and finds it as it was goes on alone. -/
theorem Idle.step_listed {call : SaveCall} {generation : UInt64} {encrypted : Bytes}
    (h : Listed aead namePrefix base call generation encrypted) :
    Progress aead namePrefix base call 2
        (saveStep aead namePrefix call (base, .listed generation encrypted)) ∧
      (saveStep aead namePrefix call (base, .listed generation encrypted)).2.renamed = none := by
  have hone : Progress aead namePrefix base call 1 (base, .listed generation encrypted) :=
    .writing (by omega) h fun hk => absurd hk (by omega)
  refine ⟨hone.step, ?_⟩
  cases hrenamed :
      (saveStep aead namePrefix call (base, .listed generation encrypted)).2.renamed with
  | none => rfl
  | some g => exact absurd (hone.rename_step rfl hrenamed).1 (by omega)

theorem Crossed.concat {who : Saver} {order : List Saver} (h : Crossed who order) (saver : Saver) :
    Crossed who (order ++ [saver]) := by
  obtain ⟨pre, post, rfl, hwho, hother⟩ := h
  exact ⟨pre, post ++ [saver], by simp, hwho, hother⟩

/-- The owner takes a step. -/
theorem Shape.step_owner {order : List Saver} {s : Race} {owner : Saver}
    (howner : Progress aead namePrefix base (calls owner) (order.count owner) (s.view owner))
    (hrenamed : (s.states owner).renamed = none)
    (hidle : Idle aead namePrefix base (calls owner.other) (order.count owner.other)
      (s.states owner.other)) :
    Shape aead namePrefix calls base (order ++ [owner])
      (raceStep aead namePrefix calls s owner) := by
  have hne : owner.other ≠ owner := owner.other_ne
  have hcount := count_concat_self order owner
  have hcount' := count_concat_of_ne order hne
  cases hnext : (saveStep aead namePrefix (calls owner) (s.view owner)).2.renamed with
  | none =>
    -- nothing is renamed, and the other one does not see the step
    refine .alone owner ?_ ?_ ?_
    · rw [hcount, raceStep_view]
      exact howner.step
    · rw [raceStep_states_self, hnext]
    · rw [hcount', raceStep_states_of_ne s hne]
      exact hidle
  | some generation =>
    -- the owner renames: what follows depends on whether the other one has listed the directory
    obtain ⟨hfour, encrypted, hlisted, hfree, hstep⟩ := howner.rename_step hrenamed hnext
    have hdone : (raceStep aead namePrefix calls s owner).states owner =
        .done (.ok generation) := by
      rw [raceStep_states_self, hstep]
    have hview : (raceStep aead namePrefix calls s owner).view owner.other =
        (committed namePrefix base generation encrypted, s.states owner.other) := by
      rw [Race.view, raceStep_states_of_ne s hne]
      exact congrArg (·, s.states owner.other) (congrArg Prod.fst hstep)
    generalize s.states owner.other = state at hidle hview
    generalize hk : order.count owner.other = k at hidle hcount'
    cases hidle with
    | start =>
      refine .apart owner hlisted hdone ?_
      rw [hcount', hview]
      exact .start
    | @listed generation' encrypted' hother =>
      -- both listed `base`, and found the same next generation
      obtain rfl : generation = generation' := by
        apply Option.some.inj
        rw [← hlisted.next, hother.next]
      refine .crossed owner hfree hlisted hother ⟨⟨order, [], rfl, hfour, hk⟩, hdone, ?_⟩
      rw [hcount', hview]
      rfl
    | failed hk error =>
      refine .apart owner hlisted hdone ?_
      rw [hcount', hview]
      exact .failed hk error

section
variable {order : List Saver} {s : Race} {owner : Saver}

/-- The idle saver takes a step that leaves the directory alone. -/
theorem Shape.stay_idle
    (howner : Progress aead namePrefix base (calls owner) (order.count owner) (s.view owner))
    (hrenamed : (s.states owner).renamed = none) {state : SaveState}
    (hstep : saveStep aead namePrefix (calls owner.other) (s.view owner.other) = (s.dir, state))
    (hidle : Idle aead namePrefix base (calls owner.other) (order.count owner.other + 1) state) :
    Shape aead namePrefix calls base (order ++ [owner.other])
      (raceStep aead namePrefix calls s owner.other) := by
  have hne : owner ≠ owner.other := owner.other_ne.symm
  refine .alone owner ?_ ?_ ?_
  · rw [count_concat_of_ne order hne, raceStep_view_of_ne hne (by rw [hstep])]
    exact howner
  · rw [raceStep_states_of_ne s hne]
    exact hrenamed
  · rw [count_concat_self, raceStep_states_self, hstep]
    exact hidle

/-- The idle saver takes a step. -/
theorem Shape.step_idle
    (howner : Progress aead namePrefix base (calls owner) (order.count owner) (s.view owner))
    (hrenamed : (s.states owner).renamed = none)
    (hidle : Idle aead namePrefix base (calls owner.other) (order.count owner.other)
      (s.states owner.other)) :
    Shape aead namePrefix calls base (order ++ [owner.other])
      (raceStep aead namePrefix calls s owner.other) := by
  have hne : owner ≠ owner.other := owner.other_ne.symm
  generalize hstate : s.states owner.other = state at hidle
  generalize hk : order.count owner.other = k at hidle
  have hview : s.view owner.other = (s.dir, state) := by rw [Race.view, hstate]
  cases hidle with
  | start =>
    obtain ⟨generation, encrypted, hlisted, hstep⟩ | ⟨e, hstep⟩ :=
      saveStep_start_cases aead namePrefix s.dir (calls owner.other)
    · -- the generations are still those of `base`
      have hnext : nextGeneration (generations namePrefix base) = some generation := by
        rw [← howner.generations_eq hrenamed]
        exact hlisted.next
      apply Shape.stay_idle howner hrenamed
      · rw [hview, hstep]
      · rw [hk]
        exact .listed ⟨hnext, hlisted.sealed⟩
    · apply Shape.stay_idle howner hrenamed
      · rw [hview, hstep]
      · exact .failed (by omega) e
  | failed hk error =>
    apply Shape.stay_idle howner hrenamed
    · rw [hview]
      rfl
    · exact .failed (by omega) error
  | @listed generation encrypted hlisted =>
    -- it goes on to create its file, unless the file of the owner is there
    obtain ⟨hdir, howner'⟩ | ⟨generation', encrypted', hlisted', -, -, -, -, htaken⟩ :=
      howner.idle_or_created hrenamed
    · -- the owner has done nothing: the one that was idle is the owner from here on
      have hdir' : s.dir = base := hdir
      obtain ⟨hstep, hnone⟩ := Idle.step_listed hlisted
      refine .alone owner.other ?_ ?_ ?_
      · rw [count_concat_self, hk, raceStep_view, hview, hdir']
        exact hstep
      · rw [raceStep_states_self, hview, hdir']
        exact hnone
      · rw [Saver.other_other, count_concat_of_ne order hne, raceStep_states_of_ne s hne]
        exact howner'
    · -- the file is there already
      obtain rfl : generation = generation' := by
        apply Option.some.inj
        rw [← hlisted.next, hlisted'.next]
      apply Shape.stay_idle howner hrenamed
      · rw [hview]
        exact saveStep_taken htaken
      · exact .failed (by omega) .io

end

/-- A call that has returned does nothing any more. -/
theorem raceStep_done {s : Race} {who : Saver} {result : Except StorageError UInt64}
    (h : s.states who = .done result) : raceStep aead namePrefix calls s who = s := by
  have hstep : saveStep aead namePrefix (calls who) (s.view who) = s.view who := by
    rw [Race.view, h]
    rfl
  rw [raceStep, hstep]
  simp [Race.view]

/-- Whoever takes a step, the one that was overtaken goes on. -/
theorem Overtaken.step {winner : Saver} {generation : UInt64} {encrypted encrypted' : Bytes}
    {order : List Saver} {s : Race}
    (h : Overtaken namePrefix base winner generation encrypted encrypted' order s) (who : Saver) :
    Overtaken namePrefix base winner generation encrypted encrypted' (order ++ [who])
      (raceStep aead namePrefix calls s who) := by
  rcases winner.eq_or_eq_other who with rfl | rfl
  · rw [raceStep_done h.done]
    refine ⟨h.crossed.concat who, h.done, ?_⟩
    rw [count_concat_of_ne order who.other_ne]
    exact h.view
  · -- the rename took the temporary file away, so the name is free again
    have hgone : (committed namePrefix base generation encrypted).lookup
        (tempPath namePrefix generation) = none := by
      rw [lookup_committed, if_neg (finalPath_ne_tempPath _ _ _).symm, if_pos rfl]
    have hlater : 1 ≤ order.count winner.other := by
      obtain ⟨pre, post, rfl, -, hone⟩ := h.crossed
      rw [List.count_append]
      omega
    refine ⟨h.crossed.concat _, ?_, ?_⟩
    · rw [raceStep_states_of_ne s winner.other_ne.symm]
      exact h.done
    · rw [count_concat_self, raceStep_view, h.view]
      exact saveStep_progress hgone hlater

/-- **Step.** -/
theorem Shape.step {order : List Saver} {s : Race}
    (h : Shape aead namePrefix calls base order s) (who : Saver) :
    Shape aead namePrefix calls base (order ++ [who]) (raceStep aead namePrefix calls s who) := by
  cases h with
  | alone owner howner hrenamed hidle =>
    rcases owner.eq_or_eq_other who with rfl | rfl
    · exact Shape.step_owner howner hrenamed hidle
    · exact Shape.step_idle howner hrenamed hidle
  | apart winner hlisted hdone hother =>
    rcases winner.eq_or_eq_other who with rfl | rfl
    · rw [raceStep_done hdone]
      refine .apart who hlisted hdone ?_
      rw [count_concat_of_ne order who.other_ne]
      exact hother
    · refine .apart winner hlisted ?_ ?_
      · rw [raceStep_states_of_ne s winner.other_ne.symm]
        exact hdone
      · rw [count_concat_self, raceStep_view]
        exact hother.step
  | crossed winner hfree hlisted hother hovertaken =>
    exact .crossed winner hfree hlisted hother (hovertaken.step who)

theorem race_shape (aead : Aead) (namePrefix : Bytes) (calls : Saver → SaveCall) (base : Dir)
    (order : List Saver) :
    Shape aead namePrefix calls base order (race aead namePrefix calls base order) := by
  induction order using List.reverseRecOn with
  | nil => exact .alone .first .start rfl .start
  | append_singleton order who ih =>
    rw [race_concat]
    exact ih.step who

/-! ### Two saves that cross both succeed -/

theorem Overtaken.append {winner : Saver} {generation : UInt64} {encrypted encrypted' : Bytes}
    {order : List Saver}
    (h : Overtaken namePrefix base winner generation encrypted encrypted' order
      (race aead namePrefix calls base order)) (post : List Saver) :
    Overtaken namePrefix base winner generation encrypted encrypted' (order ++ post)
      (race aead namePrefix calls base (order ++ post)) := by
  induction post using List.reverseRecOn with
  | nil =>
    rw [List.append_nil]
    exact h
  | append_singleton post who ih =>
    rw [← List.append_assoc, race_concat]
    exact ih.step who

/-- Until one of them renames, and while the other one only lists, both are on their way. -/
theorem race_before_crossing {who : Saver} {generation : UInt64} {encrypted encrypted' : Bytes}
    (hfree : base.lookup (tempPath namePrefix generation) = none)
    (hwho : Listed aead namePrefix base (calls who) generation encrypted)
    (hother : Listed aead namePrefix base (calls who.other) generation encrypted')
    {order : List Saver} (hfour : order.count who ≤ 4) (hone : order.count who.other ≤ 1) :
    (race aead namePrefix calls base order).view who =
        progress namePrefix base generation encrypted (order.count who) ∧
      (race aead namePrefix calls base order).states who.other =
        (progress namePrefix base generation encrypted' (order.count who.other)).2 := by
  induction order using List.reverseRecOn with
  | nil => exact ⟨rfl, rfl⟩
  | append_singleton order saver ih =>
    rw [race_concat]
    rcases who.eq_or_eq_other saver with rfl | rfl
    · rw [count_concat_self] at hfour ⊢
      rw [count_concat_of_ne order saver.other_ne] at hone ⊢
      -- the one that will rename finds its temporary file free all along
      obtain ⟨hview, hstate⟩ := ih (by omega) hone
      refine ⟨?_, ?_⟩
      · rw [raceStep_view, hview]
        exact hwho.step hfree _
      · rw [raceStep_states_of_ne _ saver.other_ne, hstate]
    · have hne : who ≠ who.other := who.other_ne.symm
      rw [count_concat_self] at hone ⊢
      rw [count_concat_of_ne order hne] at hfour ⊢
      have hzero : order.count who.other = 0 := by omega
      obtain ⟨hview, hstate⟩ := ih hfour (by omega)
      rw [hzero] at hstate ⊢
      -- the other one lists the directory, whose generations are still those of `base`
      have hnext := (hwho.progress hfree _).generations_eq (renamed_progress hfour)
      rw [← hview, hother.next] at hnext
      have hview' : (race aead namePrefix calls base order).view who.other =
          ((race aead namePrefix calls base order).dir, .start) := by
        rw [Race.view, hstate]
        rfl
      have hstep := saveStep_start ⟨hnext, hother.sealed⟩
      rw [show ((race aead namePrefix calls base order).view who).1 =
        (race aead namePrefix calls base order).dir from rfl] at hstep
      refine ⟨?_, ?_⟩
      · rw [raceStep_view_of_ne hne (by rw [hview', hstep]; rfl), hview]
      · rw [raceStep_states_self, hview', hstep]
        rfl

/-- Both calls return the one generation that both found to be the next. -/
theorem returned_of_crosses {who : Saver} {order : List Saver} (hcrosses : Crosses who order)
    {generation : UInt64} (hfree : base.lookup (tempPath namePrefix generation) = none)
    (hlisted : ∀ saver, ∃ encrypted,
      Listed aead namePrefix base (calls saver) generation encrypted) (saver : Saver) :
    (race aead namePrefix calls base order).states saver = .done (.ok generation) := by
  obtain ⟨i, hi, hrename, hfour, hone, hrest⟩ := hcrosses
  obtain ⟨encrypted, hwho⟩ := hlisted who
  obtain ⟨encrypted', hother⟩ := hlisted who.other
  -- the order, cut at the rename
  have hsplit : order = (order.take i ++ [who]) ++ order.drop (i + 1) := by
    have hget : order[i] = who := Option.some.inj ((List.getElem?_eq_getElem hi).symm.trans hrename)
    rw [List.append_assoc, List.singleton_append, ← hget, ← List.drop_eq_getElem_cons hi,
      List.take_append_drop]
  obtain ⟨hview, hstate⟩ := race_before_crossing hfree hwho hother hfour.le hone.le
  have hrenamed := hwho.step hfree 4
  rw [hfour] at hview
  rw [hone] at hstate
  -- the step that renames
  have hovertaken : Overtaken namePrefix base who generation encrypted encrypted'
      (order.take i ++ [who]) (race aead namePrefix calls base (order.take i ++ [who])) := by
    refine ⟨⟨order.take i, [], rfl, hfour, hone⟩, ?_, ?_⟩
    · rw [race_concat, raceStep_states_self, hview, hrenamed]
      rfl
    · rw [race_concat, count_concat_of_ne _ who.other_ne, hone]
      refine Prod.ext ?_ ?_
      · show (saveStep aead namePrefix (calls who) (Race.view _ who)).1 = _
        rw [hview, hrenamed]
        rfl
      · show (raceStep aead namePrefix calls _ who).states who.other = _
        rw [raceStep_states_of_ne _ who.other_ne, hstate]
        rfl
  have hlast := hovertaken.append (order.drop (i + 1))
  rw [← hsplit] at hlast
  -- the one that was overtaken has four more steps, its rename among them
  rcases who.eq_or_eq_other saver with rfl | rfl
  · exact hlast.done
  · have hfive : 5 ≤ order.count who.other := by
      rw [hsplit, List.count_append, count_concat_of_ne _ who.other_ne]
      omega
    obtain ⟨m, hm⟩ := Nat.exists_eq_add_of_le' hfive
    have hend := hlast.view
    rw [hm] at hend
    exact congrArg Prod.snd hend

/-! ### Two saves that do not cross keep both records -/

theorem loadable_of_lookup (haead : OpensSealed aead) {dir : Dir} {call : SaveCall}
    {generation : UInt64} {encrypted : Bytes}
    (h : Listed aead namePrefix base call generation encrypted)
    (hlookup : dir.lookup (finalPath namePrefix generation) = some encrypted) :
    Loadable aead namePrefix dir generation call :=
  ⟨encrypted, _, hlookup, openRecord_sealRecord haead h.sealed, decodeJournal_encodeJournal _ _⟩

/-- A saver that listed the directory after the other's rename has a later generation and renames
    to another name. -/
theorem kept_of_apart (haead : OpensSealed aead) {s : Race} {winner : Saver}
    {generation generation' : UInt64} {encrypted encrypted' : Bytes}
    (hlisted : Listed aead namePrefix base (calls winner) generation encrypted)
    (hother : Listed aead namePrefix (committed namePrefix base generation encrypted)
      (calls winner.other) generation' encrypted')
    (hdir : s.dir = committed namePrefix (committed namePrefix base generation encrypted)
      generation' encrypted') :
    generation ≠ generation' ∧ Loadable aead namePrefix s.dir generation (calls winner) ∧
      Loadable aead namePrefix s.dir generation' (calls winner.other) := by
  have hlt : generation < generation' :=
    nextGeneration_fresh hother.next generation (mem_generations_committed.mpr (.inl rfl))
  have hne : generation ≠ generation' := by
    rintro rfl
    exact absurd hlt (UInt64.lt_irrefl _)
  refine ⟨hne, loadable_of_lookup haead hlisted ?_, loadable_of_lookup haead hother ?_⟩
  · have hfinal : finalPath namePrefix generation ≠ finalPath namePrefix generation' :=
      fun hsame => hne (finalPath_injective hsame)
    rw [hdir, lookup_committed, if_neg hfinal, if_neg (finalPath_ne_tempPath _ _ _),
      lookup_committed, if_pos rfl]
  · rw [hdir, lookup_committed, if_pos rfl]

/-- The rename of a saver that has been crossed, if the other one gets to its own. -/
theorem Crossed.crosses {who : Saver} {order : List Saver} (h : Crossed who order)
    (hfive : 5 ≤ order.count who.other) : Crosses who order := by
  obtain ⟨pre, post, rfl, hfour, hone⟩ := h
  have hlast : 4 ≤ post.count who.other := by
    rw [List.count_append, hone, List.count_cons_of_ne who.other_ne.symm] at hfive
    omega
  refine ⟨pre.length, by simp, by simp, ?_, ?_, ?_⟩
  · rwa [List.take_left]
  · rwa [List.take_left]
  · rwa [← List.drop_drop, List.drop_left, List.drop_one, List.tail_cons]

/-- Two calls that both return `Ok` collide, or keep both records. -/
theorem kept_or_collides (haead : OpensSealed aead) (calls : Saver → SaveCall) (base : Dir)
    (order : List Saver) :
    Kept aead namePrefix calls (race aead namePrefix calls base order) ∨
      Collides aead namePrefix calls base order := by
  by_cases hreturned : ∃ generation : Saver → UInt64, ∀ who,
    (race aead namePrefix calls base order).states who = .done (.ok (generation who))
  case neg => exact .inl fun generation hdone => absurd ⟨generation, hdone⟩ hreturned
  obtain ⟨generation, hdone⟩ := hreturned
  -- both have renamed, which leaves two shapes
  cases race_shape aead namePrefix calls base order with
  | alone owner howner hrenamed hidle =>
    rw [hdone] at hrenamed
    cases hrenamed
  | @apart winner g encrypted hlisted hwinner hother =>
    -- the later saver listed a directory that has the record of the first
    obtain ⟨g', encrypted', hrenamed, hlisted', hdir⟩ | ⟨hrenamed, -⟩ := hother.effect
    case inr =>
      rw [Race.view, hdone] at hrenamed
      cases hrenamed
    rw [Race.view, hdone] at hrenamed
    obtain rfl : generation winner.other = g' := Option.some.inj hrenamed
    have hg := hdone winner
    rw [hwinner] at hg
    obtain rfl := Except.ok.inj (SaveState.done.inj hg)
    obtain ⟨hne, hwon, hlater⟩ := kept_of_apart haead hlisted hlisted' hdir
    refine .inl fun generation' hdone' => ?_
    obtain rfl : generation' = generation := by
      ext who
      have hsame := (hdone' who).symm.trans (hdone who)
      rw [Except.ok.inj (SaveState.done.inj hsame)]
    constructor
    · cases winner with
      | first => exact hne
      | second => exact hne.symm
    · intro who
      rcases winner.eq_or_eq_other who with rfl | rfl
      · exact hwon
      · exact hlater
  | @crossed winner g encrypted encrypted' hfree hlisted hother hovertaken =>
    refine .inr ⟨⟨winner, hovertaken.crossed.crosses ?_⟩, g, hfree, fun who => ?_⟩
    · -- with fewer steps the one that was overtaken would not have returned
      by_contra hfew
      have hrenamed : ((race aead namePrefix calls base order).view winner.other).2.renamed =
          none := by
        rw [hovertaken.view]
        exact renamed_progress (by omega)
      rw [Race.view, hdone] at hrenamed
      cases hrenamed
    · rcases winner.eq_or_eq_other who with rfl | rfl
      · exact ⟨encrypted, hlisted⟩
      · exact ⟨encrypted', hother⟩

/-- **Concurrent saves, exactly.**  Two calls of `save` on one directory take their steps in any
    order.  If both return `Ok`, their generations differ and each record is there to be loaded
    under its own, if and only if the two do not collide. -/
theorem concurrent_saves_kept_iff (haead : OpensSealed aead) (calls : Saver → SaveCall)
    (base : Dir) (order : List Saver) :
    Kept aead namePrefix calls (race aead namePrefix calls base order) ↔
      ¬ Collides aead namePrefix calls base order := by
  constructor
  · rintro hkept ⟨⟨who, hcrosses⟩, generation, hfree, hlisted⟩
    exact (hkept (fun _ => generation) (returned_of_crosses hcrosses hfree hlisted)).1 rfl
  · exact (kept_or_collides haead calls base order).resolve_right

/-! ### Sample races -/

/-- Two saves with one key. -/
def sampleCalls : Saver → SaveCall
  | .first => sampleSave [1]
  | .second => sampleSave [2]

/-- One after the other. -/
def sequentialOrder : List Saver := List.replicate 5 .first ++ List.replicate 5 .second

theorem sample_saves_kept :
    Kept sampleAead (ascii "ratchet") sampleCalls
      (race sampleAead (ascii "ratchet") sampleCalls ∅ sequentialOrder) := by
  apply (concurrent_saves_kept_iff sampleAead_works.toOpensSealed sampleCalls ∅
    sequentialOrder).mpr
  rintro ⟨⟨who, hcrosses⟩, -⟩
  cases who with
  | first => exact absurd hcrosses (by decide)
  | second => exact absurd hcrosses (by decide)

/-- Both list the directory, and the first one is done before the second creates its file. -/
def crossingOrder : List Saver :=
  .first :: .second :: (List.replicate 4 .first ++ List.replicate 4 .second)

/-- **The failing race.**  Both calls return `Ok(0)`, one file is left, and what was saved first is
    gone. -/
theorem crossed_saves_overwrite :
    let s := race sampleAead (ascii "ratchet") sampleCalls ∅ crossingOrder
    (∀ who, s.states who = .done (.ok 0)) ∧ generations (ascii "ratchet") s.dir = [0] ∧
      load sampleAead (ascii "ratchet") s.dir (zeros 32) = .ok (0, [2]) ∧
      ¬ Kept sampleAead (ascii "ratchet") sampleCalls s := by
  intro s
  -- both calls pass through all their steps, as any two that cross
  have hreturned : ∀ who, s.states who = .done (.ok 0) := by
    have hcrosses : Crosses .first crossingOrder := by decide
    apply returned_of_crosses hcrosses (clear_empty _ 0)
    intro who
    obtain ⟨encrypted, hseal⟩ := sampleAead_works.sealRecord_ok (sampleCalls who).key
      (sampleCalls who).nonce (encodeJournal 0 (sampleCalls who).plaintext)
    exact ⟨encrypted, rfl, hseal⟩
  refine ⟨hreturned, by decide +kernel, by decide +kernel, fun hkept => ?_⟩
  exact (hkept (fun _ => 0) hreturned).1 rfl

end NexaMessenger.Storage
