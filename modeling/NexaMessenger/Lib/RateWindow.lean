import Mathlib.Data.List.Basic
import Mathlib.Algebra.Order.Group.Nat
import Mathlib.Tactic.Ring

namespace Lib

/-!
# Rate windows — a fixed-window limit on events

A limiter counts the events it takes in a window; an event that comes `width` or more after the
start of the window starts a new one.  With at most `limit` events in a window, how many of the
events of the past can lie within `width * j` of the present?

Windows start at least `width` apart, so at most `j` older ones reach that far.  `Paced` says so
of a list of event times: moved ahead by `width * j`, at most `count + limit * j` of them come up
to the start of the current window.  `Paced.length_le` is the bound.

The other way round, a limiter that counts nothing but these events refuses an event only if a
window full of them was less than `width` ago (`Metered.recent`).
-/

/-- A window: when it started and how many events it has taken. -/
structure RateWindow where
  start : Nat
  count : Nat
deriving DecidableEq, Repr

/-- The window an event at `now` falls into. -/
def RateWindow.roll (width : Nat) (w : RateWindow) (now : Nat) : RateWindow :=
  if width ≤ now - w.start then ⟨now, 0⟩ else w

/-- How many of `times` reach `start` when moved ahead by `delay`. -/
def reaching (times : List Nat) (start delay : Nat) : Nat :=
  times.countP fun t => start ≤ t + delay

/-- What a limiter guarantees of the times of the events it took. -/
structure Paced (width limit : Nat) (w : RateWindow) (times : List Nat) : Prop where
  count_le : w.count ≤ limit
  before_end : ∀ t ∈ times, t < w.start + width
  reaching_le : ∀ j, reaching times w.start (width * j) ≤ w.count + limit * j

section
variable {width limit : Nat} {w : RateWindow} {times : List Nat}

theorem roll_start_le {now : Nat} (h : w.start ≤ now) : (w.roll width now).start ≤ now := by
  unfold RateWindow.roll
  split
  · exact le_refl now
  · exact h

theorem lt_roll_end {now : Nat} (hwidth : 0 < width) : now < (w.roll width now).start + width := by
  unfold RateWindow.roll
  split
  · exact Nat.lt_add_of_pos_right hwidth
  · omega

theorem Paced.nil (hcount : w.count ≤ limit) : Paced width limit w [] where
  count_le := hcount
  before_end := by intro t ht; exact absurd ht (by simp)
  reaching_le := by intro j; exact Nat.zero_le _

/-- Forgetting events keeps the guarantee. -/
theorem Paced.sublist (h : Paced width limit w times) {kept : List Nat}
    (hkept : kept.Sublist times) : Paced width limit w kept where
  count_le := h.count_le
  before_end := by intro t ht; exact h.before_end t (hkept.subset ht)
  reaching_le := by intro j; exact hkept.countP_le.trans (h.reaching_le j)

/-- **A new window.**  It starts `width` after the old one, which takes the place of one of the
    `j` older ones that can be reached. -/
theorem Paced.roll (h : Paced width limit w times) (hwidth : 0 < width) (now : Nat) :
    Paced width limit (w.roll width now) times := by
  unfold RateWindow.roll
  split
  · rename_i hover
    refine ⟨Nat.zero_le _, ?_, ?_⟩
    · intro t ht
      have := h.before_end t ht
      show t < now + width
      omega
    · intro j
      show reaching times now (width * j) ≤ 0 + limit * j
      cases j with
      | zero =>
        -- no event of the old window comes up to the new one
        have hnone : reaching times now (width * 0) = 0 := by
          rw [reaching, List.countP_eq_zero]
          intro t ht hreach
          have := h.before_end t ht
          have : now ≤ t + width * 0 := by simpa using hreach
          omega
        omega
      | succ j =>
        have hshift :
            reaching times now (width * (j + 1)) ≤ reaching times w.start (width * j) := by
          apply List.countP_mono_left
          intro t _ hreach
          have hreach : now ≤ t + width * (j + 1) := by simpa using hreach
          have hmul : width * (j + 1) = width * j + width := by ring
          have : w.start ≤ t + width * j := by omega
          simpa using this
        have hold := h.reaching_le j
        have hcount := h.count_le
        have hmul : limit * (j + 1) = limit * j + limit := by ring
        omega
  · exact h

/-- **An event is taken.** -/
theorem Paced.take (h : Paced width limit w times) (hcount : w.count < limit) {now : Nat}
    (hend : now < w.start + width) :
    Paced width limit ⟨w.start, w.count + 1⟩ (times ++ [now]) := by
  refine ⟨hcount, ?_, ?_⟩
  · intro t ht
    rcases List.mem_append.mp ht with ht | ht
    · exact h.before_end t ht
    · rw [List.mem_singleton.mp ht]; exact hend
  · intro j
    have hone : reaching [now] w.start (width * j) ≤ 1 := List.countP_le_length
    have hold := h.reaching_le j
    show reaching (times ++ [now]) w.start (width * j) ≤ w.count + 1 + limit * j
    rw [reaching, List.countP_append]
    show reaching times w.start (width * j) + reaching [now] w.start (width * j) ≤ _
    omega

/-- **The bound.** Events that all lie within `width * j` of the start of the window, or in it,
    are at most one window full and `j` more. -/
theorem Paced.length_le (h : Paced width limit w times) {j : Nat}
    (hrecent : ∀ t ∈ times, w.start ≤ t + width * j) : times.length ≤ limit * (j + 1) := by
  have hall : reaching times w.start (width * j) = times.length := by
    rw [reaching, List.countP_eq_length]
    intro t ht
    simpa using hrecent t ht
  have hreach := h.reaching_le j
  have hcount := h.count_le
  have hmul : limit * (j + 1) = limit * j + limit := by ring
  omega

/-- So are the events of any stretch of time that long, if the window has started by its end. -/
theorem Paced.countP_le (h : Paced width limit w times) {j low : Nat}
    (hstart : w.start ≤ low + width * j) :
    (times.countP fun t => low ≤ t) ≤ limit * (j + 1) := by
  have hsub : (times.filter fun t => low ≤ t).Sublist times := List.filter_sublist
  rw [List.countP_eq_length_filter]
  refine (h.sublist hsub).length_le fun t ht => ?_
  have hlow : low ≤ t := by simpa using (List.mem_filter.mp ht).2
  omega

/-! ### What a window counts -/

/-- The window counts nothing but its own events. -/
structure Metered (width limit : Nat) (w : RateWindow) (times : List Nat) : Prop
    extends Paced width limit w times where
  counted : w.count ≤ reaching times w.start 0

theorem Metered.nil (now : Nat) : Metered width limit ⟨now, 0⟩ [] where
  toPaced := Paced.nil (Nat.zero_le _)
  counted := le_refl _

theorem Metered.roll (h : Metered width limit w times) (hwidth : 0 < width) (now : Nat) :
    Metered width limit (w.roll width now) times where
  toPaced := h.toPaced.roll hwidth now
  counted := by
    unfold RateWindow.roll
    split
    · exact Nat.zero_le _
    · exact h.counted

theorem Metered.take (h : Metered width limit w times) (hcount : w.count < limit) {now : Nat}
    (hstart : w.start ≤ now) (hend : now < w.start + width) :
    Metered width limit ⟨w.start, w.count + 1⟩ (times ++ [now]) where
  toPaced := h.toPaced.take hcount hend
  counted := by
    have hone : reaching [now] w.start 0 = 1 := by
      rw [reaching, List.countP_singleton]
      exact if_pos (decide_eq_true hstart)
    have hold := h.counted
    show w.count + 1 ≤ reaching (times ++ [now]) w.start 0
    rw [reaching, List.countP_append]
    show w.count + 1 ≤ reaching times w.start 0 + reaching [now] w.start 0
    omega

/-- **A window is full of recent events.**  If it is not over at `now`, then less than `width`
    before there were as many events as it has counted. -/
theorem Metered.recent (h : Metered width limit w times) {now : Nat}
    (hend : now < w.start + width) : w.count ≤ times.countP fun t => now < t + width := by
  refine h.counted.trans (List.countP_mono_left fun t _ ht => ?_)
  have hstart : w.start ≤ t + 0 := by simpa using ht
  exact decide_eq_true (by omega)

end

/-! ### A limiter is its history -/

/-- The window a limiter is in that has taken events at these times, oldest first. -/
def windowAfter (width : Nat) (times : List Nat) : Option RateWindow :=
  times.foldl (fun w t =>
    let rolled := (w.getD ⟨t, 0⟩).roll width t
    some ⟨rolled.start, rolled.count + 1⟩) none

theorem windowAfter_concat (width : Nat) (times : List Nat) (t : Nat) :
    windowAfter width (times ++ [t]) =
      some ⟨(((windowAfter width times).getD ⟨t, 0⟩).roll width t).start,
        (((windowAfter width times).getD ⟨t, 0⟩).roll width t).count + 1⟩ := by
  rw [windowAfter, List.foldl_append]
  rfl

/-- A window that counts an event is not a new one. -/
theorem roll_of_count_pos {width now : Nat} {w : RateWindow}
    (h : 0 < (w.roll width now).count) : w.roll width now = w := by
  unfold RateWindow.roll at h ⊢
  split
  · rename_i hover
    rw [if_pos hover] at h
    exact absurd h (Nat.lt_irrefl 0)
  · rfl

/-! ### Spaced events -/

/-- **Spaced events are few.**  Events that are `gap` or more apart, all between two times. -/
theorem length_of_spaced {gap low high : Nat} {times : List Nat}
    (hspaced : times.Pairwise fun a b => a + gap ≤ b) (hbetween : ∀ t ∈ times, low ≤ t ∧ t ≤ high) :
    gap * times.length ≤ high - low + gap := by
  induction times generalizing low with
  | nil => exact Nat.zero_le _
  | cons t times ih =>
    obtain ⟨hnext, hspaced⟩ := List.pairwise_cons.mp hspaced
    obtain ⟨hlow, hhigh⟩ := hbetween t List.mem_cons_self
    rw [List.length_cons, Nat.mul_succ]
    cases times with
    | nil => simp
    | cons u times =>
      -- what is left lies between `t + gap` and `high`
      have hlater : ∀ v ∈ u :: times, t + gap ≤ v ∧ v ≤ high := fun v hv =>
        ⟨hnext v hv, (hbetween v (List.mem_cons_of_mem t hv)).2⟩
      have hrest := ih hspaced hlater
      have hu := hnext u List.mem_cons_self
      have hu' := (hbetween u (List.mem_cons_of_mem t List.mem_cons_self)).2
      omega

end Lib
