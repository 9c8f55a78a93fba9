import Mathlib.Data.List.Basic

namespace Lib

/-!
# Successions — one holder after another

A post that has one holder at a time, each under a name.  A name can come back, so a past name
means the last one who held the post under it.  How a tenure ended is data (`γ`), and a reader
brings a rule that says which ends are still recent: `serving` is the holder a name stands for then.

An implementation remembers only some of the past.  `Keeps` says what it may forget, that is,
tenures whose end no reader will find recent; forgetting (`Keeps.forget`) and a succession
(`Keeps.succeed`) preserve it, and with it lookups are those of the whole history
(`Keeps.serving_eq`).
-/

variable {κ η γ : Type}

/-- A tenure that has ended. -/
structure Tenure (κ η γ : Type) where
  name : κ
  holder : η
  ended : γ

/-- The present holder and the past tenures, the latest first. -/
structure Succession (κ η γ : Type) where
  name : κ
  holder : η
  past : List (Tenure κ η γ)

namespace Succession

/-- The first holder. -/
def start (name : κ) (holder : η) : Succession κ η γ := ⟨name, holder, []⟩

/-- The present tenure ends, and another holder takes over. -/
def succeed (h : Succession κ η γ) (name : κ) (holder : η) (ended : γ) : Succession κ η γ :=
  ⟨name, holder, ⟨h.name, h.holder, ended⟩ :: h.past⟩

@[simp] theorem succeed_name (h : Succession κ η γ) (name : κ) (holder : η) (ended : γ) :
    (h.succeed name holder ended).name = name := rfl

@[simp] theorem succeed_holder (h : Succession κ η γ) (name : κ) (holder : η) (ended : γ) :
    (h.succeed name holder ended).holder = holder := rfl

/-- Somebody holds or held the post under a name. -/
def Held (h : Succession κ η γ) (name : κ) (holder : η) : Prop :=
  name = h.name ∧ holder = h.holder ∨ ∃ t ∈ h.past, t.name = name ∧ t.holder = holder

theorem held_succeed {h : Succession κ η γ} {name k : κ} {holder x : η} {ended : γ} :
    (h.succeed name holder ended).Held k x ↔ k = name ∧ x = holder ∨ h.Held k x := by
  simp only [Held, succeed, List.mem_cons, exists_eq_or_imp]
  refine or_congr Iff.rfl (or_congr ?_ Iff.rfl)
  exact and_congr eq_comm eq_comm

variable [DecidableEq κ]

/-- The last tenure under a name, of those that ended. -/
def lastPast (h : Succession κ η γ) (name : κ) : Option (Tenure κ η γ) :=
  h.past.find? fun t => t.name = name

theorem lastPast_succeed (h : Succession κ η γ) (name k : κ) (holder : η) (ended : γ) :
    (h.succeed name holder ended).lastPast k =
      if k = h.name then some ⟨h.name, h.holder, ended⟩ else h.lastPast k := by
  simp only [lastPast, succeed, List.find?_cons, eq_comm (a := h.name)]
  split <;> simp_all

/-- The holder a name stands for, when past tenures count as long as their end is recent. -/
def serving (h : Succession κ η γ) (recent : γ → Bool) (name : κ) : Option η :=
  if name = h.name then some h.holder
  else ((h.lastPast name).filter fun t => recent t.ended).map (·.holder)

theorem held_of_serving {h : Succession κ η γ} {recent : γ → Bool} {name : κ} {holder : η}
    (hserving : h.serving recent name = some holder) : h.Held name holder := by
  unfold serving at hserving
  split at hserving
  · rename_i hname
    exact Or.inl ⟨hname, (Option.some.inj hserving).symm⟩
  · obtain ⟨t, ht, rfl⟩ := Option.map_eq_some_iff.mp hserving
    have hlast := (Option.filter_eq_some_iff.mp ht).1
    exact Or.inr ⟨t, List.mem_of_find?_eq_some hlast, by simpa using List.find?_some hlast, rfl⟩

/-! ### An implementation's memory -/

/-- `kept` remembers the past of a succession, but for tenures whose end is `Over`. -/
structure Keeps (h : Succession κ η γ) (kept : κ → Option (Tenure κ η γ)) (Over : γ → Prop) :
    Prop where
  current : kept h.name = none
  past : ∀ k, k ≠ h.name → kept k = h.lastPast k ∨
    kept k = none ∧ ∀ t, h.lastPast k = some t → Over t.ended

section
variable {h : Succession κ η γ} {kept : κ → Option (Tenure κ η γ)} {Over : γ → Prop}

theorem Keeps.start (name : κ) (holder : η) :
    (start name holder : Succession κ η γ).Keeps (fun _ => none) Over :=
  ⟨rfl, fun _ _ => Or.inl rfl⟩

/-- What is remembered is the last tenure under its name. -/
theorem Keeps.lastPast_eq (hkeeps : h.Keeps kept Over) {k : κ} {t : Tenure κ η γ}
    (hk : kept k = some t) : k ≠ h.name ∧ h.lastPast k = some t := by
  have hname : k ≠ h.name := by
    rintro rfl
    rw [hkeeps.current] at hk
    exact absurd hk (by simp)
  rcases hkeeps.past k hname with heq | ⟨hnone, -⟩
  · exact ⟨hname, heq ▸ hk⟩
  · rw [hnone] at hk
    exact absurd hk (by simp)

theorem Keeps.mono {P : γ → Prop} (hkeeps : h.Keeps kept Over) (hle : ∀ e, Over e → P e) :
    h.Keeps kept P where
  current := hkeeps.current
  past := fun k hk => (hkeeps.past k hk).imp_right fun ⟨hnone, hover⟩ =>
    ⟨hnone, fun t ht => hle _ (hover t ht)⟩

/-- Forgetting tenures that are over. -/
theorem Keeps.forget (hkeeps : h.Keeps kept Over) (live : γ → Bool)
    (hlive : ∀ e, live e = false → Over e) :
    h.Keeps (fun k => (kept k).filter fun t => live t.ended) Over where
  current := by rw [hkeeps.current]; rfl
  past := by
    intro k hk
    rcases hkeeps.past k hk with heq | ⟨hnone, hover⟩
    · rw [heq]
      cases h.lastPast k with
      | none => exact Or.inl rfl
      | some t =>
        by_cases ht : live t.ended = true
        · exact Or.inl (by simp [ht])
        · right
          refine ⟨by simp [ht], fun t' ht' => ?_⟩
          obtain rfl := Option.some.inj ht'
          exact hlive _ (Bool.eq_false_iff.mpr ht)
    · rw [hnone]
      exact Or.inr ⟨rfl, hover⟩

/-- A succession by a name that is not remembered; the tenure that ends is. -/
theorem Keeps.succeed (hkeeps : h.Keeps kept Over) {name : κ} (hnew : name ≠ h.name)
    (hfree : kept name = none) (holder : η) (ended : γ) :
    (h.succeed name holder ended).Keeps
      (fun k => if k = h.name then some ⟨h.name, h.holder, ended⟩ else kept k) Over where
  current := (if_neg hnew).trans hfree
  past := by
    intro k _
    rw [lastPast_succeed]
    split
    · exact Or.inl rfl
    · rename_i hk
      exact hkeeps.past k hk

/-- **The memory suffices**: no reader finds an end recent that is over. -/
theorem Keeps.serving_eq (hkeeps : h.Keeps kept Over) {recent : γ → Bool}
    (hrecent : ∀ e, Over e → recent e = false) {k : κ} (hk : k ≠ h.name) :
    h.serving recent k = ((kept k).filter fun t => recent t.ended).map (·.holder) := by
  rw [serving, if_neg hk]
  rcases hkeeps.past k hk with heq | ⟨hnone, hover⟩
  · rw [heq]
  · rw [hnone]
    cases hlast : h.lastPast k with
    | none => rfl
    | some t => simp [hrecent _ (hover t hlast)]

end

end Succession

end Lib
