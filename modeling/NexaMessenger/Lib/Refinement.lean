import NexaMessenger.Lib.Machine

namespace Lib

/-!
# Refinement — a machine that drives another

A machine that has another one as a part gives it inputs: `emit` are those of one step, in their
order, and `emitted` those of a run.  `Drives` is what has to be checked of one step, under an
invariant of the driving machine: the part moves as its own machine does on what is emitted.
`Drives.after_eq` is the statement about runs.  Whatever holds of the runs of the part then holds of
the part in every run of the whole.
-/

variable {σ ι ο τ κ ω : Type}

/-- The inputs that a run gives to the part, in their order. -/
def emitted (step : σ → ι → ο × σ) (emit : σ → ι → List κ) : σ → List ι → List κ
  | _, [] => []
  | s, i :: is => emit s i ++ emitted step emit (step s i).2 is

/-- The steps of a machine move the part that `view` shows by the inputs that `emit` names. -/
structure Drives (step : σ → ι → ο × σ) (part : τ → κ → ω × τ) (Inv : σ → Prop) (view : σ → τ)
    (emit : σ → ι → List κ) : Prop where
  keeps : ∀ {s i}, Inv s → Inv (step s i).2
  moves : ∀ {s i}, Inv s → view (step s i).2 = after part (view s) (emit s i)

section
variable {step : σ → ι → ο × σ} {part : τ → κ → ω × τ} {Inv : σ → Prop} {view : σ → τ}
  {emit : σ → ι → List κ}

theorem emitted_append (s : σ) (is js : List ι) :
    emitted step emit s (is ++ js) =
      emitted step emit s is ++ emitted step emit (after step s is) js := by
  induction is generalizing s with
  | nil => rfl
  | cons i is ih => rw [List.cons_append, emitted, emitted, ih, List.append_assoc, after_cons]

theorem emitted_concat (s : σ) (is : List ι) (i : ι) :
    emitted step emit s (is ++ [i]) = emitted step emit s is ++ emit (after step s is) i := by
  rw [emitted_append, emitted, emitted, List.append_nil]

/-- Where a run emits an input, it did so at one of its steps, after what is emitted before. -/
theorem exists_of_emitted_eq {s : σ} {is : List ι} {before rest : List κ} {input : κ}
    (h : emitted step emit s is = before ++ input :: rest) :
    ∃ pre i post now later, is = pre ++ i :: post ∧
      emit (after step s pre) i = now ++ input :: later ∧
      before = emitted step emit s pre ++ now := by
  induction is generalizing s before with
  | nil =>
    rw [emitted] at h
    exact absurd h.symm (by simp)
  | cons i is ih =>
    rw [emitted] at h
    rcases List.append_eq_append_iff.mp h with ⟨mid, hbefore, hrest⟩ | ⟨mid, hnow, hlater⟩
    · obtain ⟨pre, j, post, now, later, rfl, hemit, rfl⟩ := ih hrest
      refine ⟨i :: pre, j, post, now, later, rfl, hemit, ?_⟩
      rw [hbefore, emitted, List.append_assoc]
    · cases mid with
      | nil =>
        -- nothing of this step is left, so the input is the first of what follows
        obtain ⟨pre, j, post, now, later, rfl, hemit, hnone⟩ := @ih (step s i).2 [] hlater.symm
        refine ⟨i :: pre, j, post, now, later, rfl, hemit, ?_⟩
        rw [List.append_nil] at hnow
        rw [emitted, hnow, List.append_assoc, ← hnone, List.append_nil]
      | cons input' mid =>
        obtain ⟨rfl, -⟩ := List.cons.inj hlater
        exact ⟨[], i, is, before, mid, rfl, hnow, rfl⟩

/-- What is emitted along a run is emitted at one of its steps. -/
theorem exists_of_mem_emitted {s : σ} {is : List ι} {input : κ}
    (h : input ∈ emitted step emit s is) :
    ∃ pre i post, is = pre ++ i :: post ∧ input ∈ emit (after step s pre) i := by
  obtain ⟨before, rest, hemitted⟩ := List.append_of_mem h
  obtain ⟨pre, i, post, now, later, rfl, hemit, -⟩ := exists_of_emitted_eq hemitted
  exact ⟨pre, i, post, rfl, by rw [hemit]; simp⟩

theorem Drives.invariant (h : Drives step part Inv view emit) {s : σ} (hs : Inv s)
    (is : List ι) : Inv (after step s is) :=
  after_invariant (fun _ _ => h.keeps) hs is

/-- **Runs.** The part is where its own machine is after the inputs that were emitted. -/
theorem Drives.after_eq (h : Drives step part Inv view emit) {s : σ} (hs : Inv s) (is : List ι) :
    view (after step s is) = after part (view s) (emitted step emit s is) := by
  induction is generalizing s with
  | nil => rfl
  | cons i is ih =>
    calc view (after step s (i :: is))
        = after part (view (step s i).2) (emitted step emit (step s i).2 is) := ih (h.keeps hs)
      _ = after part (after part (view s) (emit s i)) (emitted step emit (step s i).2 is) := by
          rw [h.moves hs]
      _ = after part (view s) (emitted step emit s (i :: is)) := by
          rw [emitted, after_append]

/-- What the part answers at a step of the whole stands in its own run. -/
theorem Drives.mem_trace (h : Drives step part Inv view emit) {s : σ} (hs : Inv s)
    {pre post : List ι} {i : ι} {entry : κ × ω}
    (hentry : entry ∈ trace part (view (after step s pre)) (emit (after step s pre) i)) :
    entry ∈ trace part (view s) (emitted step emit s (pre ++ i :: post)) := by
  rw [emitted_append, emitted, trace_append, trace_append, ← h.after_eq hs]
  exact List.mem_append_right _ (List.mem_append_left _ hentry)

/-- An entry of the part's run comes from a step of the whole. -/
theorem Drives.exists_step (h : Drives step part Inv view emit) {s : σ} (hs : Inv s) {is : List ι}
    {input : κ} {answer : ω}
    (hentry : (input, answer) ∈ trace part (view s) (emitted step emit s is)) :
    ∃ pre i post, is = pre ++ i :: post ∧
      (input, answer) ∈ trace part (view (after step s pre)) (emit (after step s pre) i) := by
  obtain ⟨before, rest, hemitted, hanswer⟩ := exists_of_mem_trace part hentry
  obtain ⟨pre, i, post, now, later, rfl, hemit, rfl⟩ := exists_of_emitted_eq hemitted
  refine ⟨pre, i, post, rfl, ?_⟩
  rw [hemit, trace_append, trace_cons, hanswer, after_append, ← h.after_eq hs]
  exact List.mem_append_right _ List.mem_cons_self

/-- **Answers of runs.**  If the answer to a step tells what the part answers to it, the answers of
    a run tell what the part answers in its own. -/
theorem Drives.answers_eq (h : Drives step part Inv view emit) {told : ι → ο → List ω}
    (htold : ∀ {s i}, Inv s →
      told i (step s i).1 = (trace part (view s) (emit s i)).map (·.2))
    {s : σ} (hs : Inv s) (is : List ι) :
    (trace step s is).flatMap (fun entry => told entry.1 entry.2) =
      (trace part (view s) (emitted step emit s is)).map (·.2) := by
  induction is generalizing s with
  | nil => rfl
  | cons i is ih =>
    rw [trace_cons, List.flatMap_cons, emitted, trace_append, List.map_append, ← h.moves hs,
      ← ih (h.keeps hs), ← htold hs]

end

/-! ### Machines that answer alike -/

/-- **Simulation.**  If two machines answer every input of a run alike in states that `R` relates,
    and come to such states again, then they answer the run alike. -/
theorem trace_eq_of_simulates {step : σ → ι → ο × σ} {step' : τ → ι → ο × τ} {R : σ → τ → Prop}
    {is : List ι} (hstep : ∀ s t, R s t → ∀ i ∈ is,
      (step s i).1 = (step' t i).1 ∧ R (step s i).2 (step' t i).2) {s : σ} {t : τ} (h : R s t) :
    trace step s is = trace step' t is := by
  induction is generalizing s t with
  | nil => rfl
  | cons i is ih =>
    obtain ⟨hanswer, hnext⟩ := hstep s t h i List.mem_cons_self
    rw [trace_cons, trace_cons, hanswer,
      ih (fun s t h j hj => hstep s t h j (List.mem_cons_of_mem _ hj)) hnext]

end Lib
