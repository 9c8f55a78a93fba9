import NexaMessenger.Lib.Machine

namespace Lib

/-!
# Isolation — inputs that one observer does not notice

An observer of a machine gives some inputs and sees their answers; the other inputs belong to
others.  Others do not disturb the observer if a run answers the observer's inputs as the run
does from which all other inputs are left out.

`Unwinding` is what has to be checked for it, one step at a time: a relation on states, with the
observer's own inputs answered alike from related states, and the other inputs moving a state
among those related to one that stays.  `Unwinding.trace_filter` is the two-run statement.

Where the observer and the others share something of which there is only so much, the observer's
inputs are answered alike only while `C` holds: it did not get less because of the others.  That is
`UnwindingWhile`, of which `Unwinding` is the case without a condition.
-/

variable {σ ι ο : Type}

/-- The states that `R` relates look alike to the observer whose inputs `keep` keeps. -/
structure Unwinding (step : σ → ι → ο × σ) (keep : ι → Bool) (R : σ → σ → Prop) : Prop where
  kept : ∀ {s t i}, R s t → keep i = true →
    (step s i).1 = (step t i).1 ∧ R (step s i).2 (step t i).2
  dropped : ∀ {s t i}, R s t → keep i = false → R (step s i).2 t

/-- Unwinding, as long as `C` holds when the observer gives an input. -/
structure UnwindingWhile (step : σ → ι → ο × σ) (keep : ι → Bool) (C : σ → ι → Prop)
    (R : σ → σ → Prop) : Prop where
  kept : ∀ {s t i}, R s t → keep i = true → C s i →
    (step s i).1 = (step t i).1 ∧ R (step s i).2 (step t i).2
  dropped : ∀ {s t i}, R s t → keep i = false → R (step s i).2 t

section
variable {step : σ → ι → ο × σ} {keep : ι → Bool} {C : σ → ι → Prop} {R : σ → σ → Prop}

/-- **Isolation**, along a run in which `C` holds whenever the observer gives an input. -/
theorem UnwindingWhile.trace_filter (h : UnwindingWhile step keep C R) {s t : σ} (hst : R s t)
    (is : List ι) (hC : Along step (fun s i => keep i = true → C s i) s is) :
    (trace step s is).filter (fun entry => keep entry.1) = trace step t (is.filter keep) := by
  induction is generalizing s t with
  | nil => rfl
  | cons i is ih =>
    obtain ⟨hnow, hlater⟩ := hC
    cases hkeep : keep i with
    | true =>
      obtain ⟨hanswer, hnext⟩ := h.kept hst hkeep (hnow hkeep)
      rw [List.filter_cons_of_pos hkeep, trace_cons, trace_cons, ← ih hnext hlater, ← hanswer]
      exact List.filter_cons_of_pos hkeep
    | false =>
      have hnot : ¬ keep i = true := by simp [hkeep]
      rw [List.filter_cons_of_neg hnot, trace_cons, ← ih (h.dropped hst hkeep) hlater]
      exact List.filter_cons_of_neg hnot

/-- **Isolation.** The observer's inputs are answered as if nobody else had given any. -/
theorem Unwinding.trace_filter (h : Unwinding step keep R) {s t : σ} (hst : R s t)
    (is : List ι) :
    (trace step s is).filter (fun entry => keep entry.1) = trace step t (is.filter keep) := by
  have hwhile : UnwindingWhile step keep (fun _ _ => True) R :=
    ⟨fun hst hkeep _ => h.kept hst hkeep, h.dropped⟩
  exact hwhile.trace_filter hst is (along_of_steps fun _ _ _ _ => trivial)

end

end Lib
