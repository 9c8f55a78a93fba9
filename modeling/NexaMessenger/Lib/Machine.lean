import Mathlib.Data.List.Basic
import Mathlib.Data.List.Infix

namespace Lib

/-!
# Machines — runs of a state machine that answers its inputs

A machine is a step function `σ → ι → ο × σ`: one input is answered and moves the state.
`after` is the state a list of inputs leads to and `trace` the inputs with their answers.
Four induction rules carry every result about whole runs:

* `after_invariant` — a property of the state alone;
* `history_invariant` — a property of the state and of everything that happened so far,
  proved one step at a time for the prefixes of one fixed run, so that an assumption about
  the run (say, that its clock readings do not decrease) can be used at each step;
* `history_iff` and `states_iff` — a property of histories, or of states, that each step may keep
  or break, with the exact condition under which it is kept.
-/

variable {σ ι ο : Type}

/-- The state a machine reaches from `s` on the inputs `is`. -/
def after (step : σ → ι → ο × σ) (s : σ) (is : List ι) : σ :=
  is.foldl (fun s i => (step s i).2) s

/-- The inputs of a run, each with the answer it got. -/
def trace (step : σ → ι → ο × σ) : σ → List ι → List (ι × ο)
  | _, [] => []
  | s, i :: is => (i, (step s i).1) :: trace step (step s i).2 is

/-- `C` holds of every input of a run and the state before it. -/
def Along (step : σ → ι → ο × σ) (C : σ → ι → Prop) : σ → List ι → Prop
  | _, [] => True
  | s, i :: is => C s i ∧ Along step C (step s i).2 is

instance decidableAlong (step : σ → ι → ο × σ) (C : σ → ι → Prop) [∀ s i, Decidable (C s i)] :
    (s : σ) → (is : List ι) → Decidable (Along step C s is)
  | _, [] => .isTrue trivial
  | s, i :: is =>
    have := decidableAlong step C (step s i).2 is
    inferInstanceAs (Decidable (C s i ∧ Along step C (step s i).2 is))

section
variable (step : σ → ι → ο × σ)

@[simp] theorem after_nil (s : σ) : after step s [] = s := rfl

@[simp] theorem after_cons (s : σ) (i : ι) (is : List ι) :
    after step s (i :: is) = after step (step s i).2 is := rfl

theorem after_append (s : σ) (is js : List ι) :
    after step s (is ++ js) = after step (after step s is) js := by
  simp [after]

theorem after_concat (s : σ) (is : List ι) (i : ι) :
    after step s (is ++ [i]) = (step (after step s is) i).2 := by
  simp [after]

@[simp] theorem trace_nil (s : σ) : trace step s [] = [] := rfl

@[simp] theorem trace_cons (s : σ) (i : ι) (is : List ι) :
    trace step s (i :: is) = (i, (step s i).1) :: trace step (step s i).2 is := rfl

theorem trace_append (s : σ) (is js : List ι) :
    trace step s (is ++ js) = trace step s is ++ trace step (after step s is) js := by
  induction is generalizing s with
  | nil => rfl
  | cons i is ih => simp [ih]

theorem trace_concat (s : σ) (is : List ι) (i : ι) :
    trace step s (is ++ [i]) = trace step s is ++ [(i, (step (after step s is) i).1)] := by
  rw [trace_append]; rfl

theorem trace_mono (s : σ) {is js : List ι} (h : is <+: js) :
    trace step s is <+: trace step s js := by
  obtain ⟨post, rfl⟩ := h
  rw [trace_append]
  exact List.prefix_append _ _

@[simp] theorem length_trace (s : σ) (is : List ι) : (trace step s is).length = is.length := by
  induction is generalizing s with
  | nil => rfl
  | cons i is ih => simp [ih]

/-- The inputs of a trace are those of its run. -/
theorem map_fst_trace (s : σ) (is : List ι) : (trace step s is).map (·.1) = is := by
  induction is generalizing s with
  | nil => rfl
  | cons i is ih => simp [ih]

/-- Every entry of a trace is one step taken from the state its prefix of the run leads to. -/
theorem exists_of_mem_trace {s : σ} {is : List ι} {i : ι} {o : ο}
    (h : (i, o) ∈ trace step s is) :
    ∃ pre post, is = pre ++ i :: post ∧ o = (step (after step s pre) i).1 := by
  induction is generalizing s with
  | nil => simp at h
  | cons j is ih =>
    rcases List.mem_cons.mp h with heq | htail
    · obtain ⟨rfl, rfl⟩ := Prod.mk.inj heq
      exact ⟨[], is, rfl, rfl⟩
    · obtain ⟨pre, post, rfl, rfl⟩ := ih htail
      exact ⟨j :: pre, post, rfl, rfl⟩

/-- What comes before an entry of a trace is the trace of what comes before its input. -/
theorem exists_of_trace_eq {s : σ} {is : List ι} {pre post : List (ι × ο)} {i : ι} {o : ο}
    (h : trace step s is = pre ++ (i, o) :: post) :
    ∃ before rest, is = before ++ i :: rest ∧ pre = trace step s before ∧
      o = (step (after step s before) i).1 := by
  induction pre generalizing s is with
  | nil =>
    cases is with
    | nil => cases h
    | cons j is =>
      obtain ⟨hentry, -⟩ := List.cons.inj h
      obtain ⟨rfl, rfl⟩ := Prod.mk.inj hentry
      exact ⟨[], is, rfl, rfl, rfl⟩
  | cons entry pre ih =>
    cases is with
    | nil => cases h
    | cons j is =>
      obtain ⟨rfl, hrest⟩ := List.cons.inj h
      obtain ⟨before, rest, rfl, rfl, ho⟩ := ih hrest
      exact ⟨j :: before, rest, rfl, rfl, ho⟩

end

/-- What holds along a run holds at each of its steps. -/
theorem Along.at_step {step : σ → ι → ο × σ} {C : σ → ι → Prop} {s : σ} {pre : List ι} {i : ι}
    {is : List ι} (h : Along step C s is) (hpre : pre ++ [i] <+: is) : C (after step s pre) i := by
  obtain ⟨post, rfl⟩ := hpre
  induction pre generalizing s with
  | nil => exact h.1
  | cons j pre ih => exact ih h.2

/-- What holds at each step of a run holds along it. -/
theorem along_of_steps {step : σ → ι → ο × σ} {C : σ → ι → Prop} {s : σ} {is : List ι}
    (h : ∀ pre i, pre ++ [i] <+: is → C (after step s pre) i) : Along step C s is := by
  induction is generalizing s with
  | nil => trivial
  | cons j is ih =>
    refine ⟨h [] j ⟨is, rfl⟩, ih fun pre i hpre => h (j :: pre) i ?_⟩
    exact List.cons_prefix_cons.mpr ⟨rfl, hpre⟩

/-- What holds along a run holds along its beginning. -/
theorem Along.of_prefix {step : σ → ι → ο × σ} {C : σ → ι → Prop} {s : σ} {pre is : List ι}
    (h : Along step C s is) (hpre : pre <+: is) : Along step C s pre := by
  obtain ⟨post, rfl⟩ := hpre
  induction pre generalizing s with
  | nil => trivial
  | cons j pre ih => exact ⟨h.1, ih h.2⟩

/-- **Run rule for states.** What every step preserves holds in every state reached. -/
theorem after_invariant {step : σ → ι → ο × σ} {P : σ → Prop}
    (hstep : ∀ s i, P s → P (step s i).2) {s : σ} (h : P s) (is : List ι) :
    P (after step s is) := by
  induction is generalizing s with
  | nil => exact h
  | cons i is ih => exact ih (hstep s i h)

/-- **Run rule for histories.** `R` relates what happened so far to the state.  If it holds
    at the start and along one run every step carries it on, it holds at the end of the run. -/
theorem history_invariant {step : σ → ι → ο × σ} {R : List (ι × ο) → σ → Prop} {s : σ}
    (hinit : R [] s) (is : List ι)
    (hstep : ∀ pre i, pre ++ [i] <+: is → R (trace step s pre) (after step s pre) →
      R (trace step s pre ++ [(i, (step (after step s pre) i).1)])
        (step (after step s pre) i).2) :
    R (trace step s is) (after step s is) := by
  induction is using List.reverseRecOn with
  | nil => exact hinit
  | append_singleton is i ih =>
    rw [trace_concat, after_concat]
    refine hstep is i (List.prefix_refl _) (ih fun pre j hpre hinv => ?_)
    exact hstep pre j (hpre.trans (List.prefix_append _ _)) hinv

/-- The unconditional form of `history_invariant`: every step from every state carries `R` on. -/
theorem history_invariant_of_step {step : σ → ι → ο × σ} {R : List (ι × ο) → σ → Prop} {s : σ}
    (hinit : R [] s)
    (hstep : ∀ hist s i, R hist s → R (hist ++ [(i, (step s i).1)]) (step s i).2)
    (is : List ι) : R (trace step s is) (after step s is) :=
  history_invariant hinit is fun _ _ _ hinv => hstep _ _ _ hinv

/-- **Exact conditions.** If a property of histories survives a step exactly when `C` holds of
    the state before it and its input, then a history has the property exactly when `C` holds
    at every step of the run. -/
theorem history_iff {step : σ → ι → ο × σ} {s : σ} {Q : List (ι × ο) → Prop} {C : σ → ι → Prop}
    (hinit : Q [])
    (hstep : ∀ pre i, Q (trace step s (pre ++ [i])) ↔
      Q (trace step s pre) ∧ C (after step s pre) i)
    (is : List ι) :
    Q (trace step s is) ↔ ∀ pre i post, is = pre ++ i :: post → C (after step s pre) i := by
  induction is using List.reverseRecOn with
  | nil => exact ⟨fun _ pre i post h => by simp at h, fun _ => hinit⟩
  | append_singleton is i ih =>
    rw [hstep, ih]
    constructor
    · rintro ⟨hall, hlast⟩ pre j post h
      -- the step is the last one, or one of the shorter run
      rcases List.eq_nil_or_concat post with rfl | ⟨post, k, rfl⟩
      · obtain ⟨rfl, hij⟩ := List.append_inj' h rfl
        obtain rfl := List.singleton_inj.mp hij
        exact hlast
      · have hshort : (is ++ [i]) = (pre ++ j :: post) ++ [k] := by rw [h]; simp
        exact hall pre j post (List.append_inj' hshort rfl).1
    · intro hall
      exact ⟨fun pre j post h => hall pre j (post ++ [i]) (by rw [h]; simp), hall is i [] rfl⟩

/-- **Exact conditions on states.** If a step from a reached state that has a property leads to one
    that has it exactly when `C` holds, then all states of a run have it exactly when `C` holds at
    every step. -/
theorem states_iff {step : σ → ι → ο × σ} {s : σ} {P : σ → Prop} {C : σ → ι → Prop} (hinit : P s)
    (hstep : ∀ pre i, P (after step s pre) →
      (P (after step s (pre ++ [i])) ↔ C (after step s pre) i))
    (is : List ι) :
    (∀ pre, pre <+: is → P (after step s pre)) ↔
      ∀ pre i post, is = pre ++ i :: post → C (after step s pre) i := by
  constructor
  · intro hall pre i post his
    have hpre : pre <+: is := ⟨i :: post, his.symm⟩
    have hsucc : pre ++ [i] <+: is := ⟨post, by rw [his]; simp⟩
    exact (hstep pre i (hall pre hpre)).mp (hall _ hsucc)
  · intro hall pre hpre
    induction pre using List.reverseRecOn with
    | nil => exact hinit
    | append_singleton pre i ih =>
      obtain ⟨post, hpost⟩ := hpre
      have his : is = pre ++ i :: post := by rw [← hpost]; simp
      exact (hstep pre i (ih ⟨i :: post, his.symm⟩)).mpr (hall pre i post his)

end Lib
