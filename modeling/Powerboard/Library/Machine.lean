import Mathlib.Data.List.Basic
import Mathlib.Tactic

/-!
# Machines and their runs

Two shapes of state machine, over arbitrary states, inputs and outputs:

* a *feeder*, total and with outputs (`step : σ → α → σ × List ε`), run by `feed`;
* a *guarded machine* (`step : σ → α → Option σ`), where `none` means that the action is not
  enabled, run by `exec`.

For both, the induction over a run is done once here: what every step preserves holds after the
run, and what holds of every step as long as a condition on the steps is met holds after every run
whose steps meet it (`exec_induction`, `exec_induction_of_steps`).
-/

namespace Powerboard.Machine

variable {σ α ε : Type}

/-! ## Feeders -/

/-- The state after the inputs, and the outputs in order. -/
def feed (step : σ → α → σ × List ε) : σ → List α → σ × List ε
  | s, [] => (s, [])
  | s, a :: as => ((feed step (step s a).1 as).1, (step s a).2 ++ (feed step (step s a).1 as).2)

section Feed
variable (step : σ → α → σ × List ε)

@[simp] theorem feed_nil (s : σ) : feed step s [] = (s, []) := rfl

theorem feed_cons (s : σ) (a : α) (as : List α) :
    feed step s (a :: as) =
      ((feed step (step s a).1 as).1, (step s a).2 ++ (feed step (step s a).1 as).2) := rfl

theorem feed_singleton (s : σ) (a : α) : feed step s [a] = step s a := by
  simp [feed]

/-- Feeding `as ++ bs` is feeding `as`, then `bs` from where that ended. -/
theorem feed_append (s : σ) (as bs : List α) :
    feed step s (as ++ bs) =
      ((feed step (feed step s as).1 bs).1,
        (feed step s as).2 ++ (feed step (feed step s as).1 bs).2) := by
  induction as generalizing s with
  | nil => simp
  | cons a as ih => simp only [List.cons_append, feed_cons, ih, List.append_assoc]

/-- An invariant that knows the inputs read so far. -/
theorem feed_induction (Inv : σ → List α → Prop) {s : σ} (hist : List α) (h0 : Inv s hist)
    (hstep : ∀ s hist a, Inv s hist → Inv (step s a).1 (hist ++ [a])) (as : List α) :
    Inv (feed step s as).1 (hist ++ as) := by
  induction as generalizing s hist with
  | nil => simpa using h0
  | cons a as ih =>
    have h := ih (hist ++ [a]) (hstep s hist a h0)
    rwa [List.append_assoc] at h

/-- Every output of a run is an output of one of its steps. -/
theorem mem_feed_outputs {s : σ} {as : List α} {e : ε} (h : e ∈ (feed step s as).2) :
    ∃ pre a post, as = pre ++ a :: post ∧ e ∈ (step (feed step s pre).1 a).2 := by
  induction as generalizing s with
  | nil => simp at h
  | cons a as ih =>
    rw [feed_cons, List.mem_append] at h
    rcases h with h | h
    · exact ⟨[], a, as, rfl, h⟩
    · obtain ⟨pre, b, post, rfl, hb⟩ := ih h
      exact ⟨a :: pre, b, post, rfl, hb⟩

end Feed

/-! ## Guarded machines -/

/-- The state after the actions, if each is enabled where it is taken. -/
def exec (step : σ → α → Option σ) : σ → List α → Option σ
  | s, [] => some s
  | s, a :: as => (step s a).bind fun t => exec step t as

section Exec
variable (step : σ → α → Option σ)

@[simp] theorem exec_nil (s : σ) : exec step s [] = some s := rfl

theorem exec_cons_eq_some {s t : σ} {a : α} {as : List α} :
    exec step s (a :: as) = some t ↔ ∃ u, step s a = some u ∧ exec step u as = some t := by
  simp [exec, Option.bind_eq_some_iff]

theorem exec_append_eq_some {s t : σ} {as bs : List α} :
    exec step s (as ++ bs) = some t ↔ ∃ u, exec step s as = some u ∧ exec step u bs = some t := by
  induction as generalizing s with
  | nil => simp
  | cons a as ih =>
    simp only [List.cons_append, exec_cons_eq_some, ih]
    constructor
    · rintro ⟨u, hu, v, hv, ht⟩
      exact ⟨v, ⟨u, hu, hv⟩, ht⟩
    · rintro ⟨v, ⟨u, hu, hv⟩, ht⟩
      exact ⟨u, hu, v, hv, ht⟩

/-- What every step preserves holds after every run. -/
theorem exec_induction {Inv : σ → Prop} (hstep : ∀ s a t, Inv s → step s a = some t → Inv t)
    {s t : σ} {as : List α} (h0 : Inv s) (h : exec step s as = some t) : Inv t := by
  induction as generalizing s with
  | nil => simp only [exec_nil, Option.some.injEq] at h; exact h ▸ h0
  | cons a as ih =>
    obtain ⟨u, hu, ht⟩ := (exec_cons_eq_some step).mp h
    exact ih (hstep s a u h0 hu) ht

/-- Every step of the run from `s` through `as` meets the condition `C`, which reads the state
before the step and the action. -/
def StepsMeet (C : σ → α → Prop) (s : σ) (as : List α) : Prop :=
  ∀ pre a post u, as = pre ++ a :: post → exec step s pre = some u → C u a

/-- Every state that the run from `s` through `as` passes, the first and the last included,
satisfies `P`. -/
def StatesMeet (P : σ → Prop) (s : σ) (as : List α) : Prop :=
  ∀ pre post u, as = pre ++ post → exec step s pre = some u → P u

theorem StepsMeet.tail {C : σ → α → Prop} {s u : σ} {a : α} {as : List α}
    (h : StepsMeet step C s (a :: as)) (hu : step s a = some u) : StepsMeet step C u as := by
  intro pre b post v heq hv
  exact h (a :: pre) b post v (by rw [heq]; rfl) ((exec_cons_eq_some step).mpr ⟨u, hu, hv⟩)

theorem stepsMeet_nil (C : σ → α → Prop) (s : σ) : StepsMeet step C s [] := by
  intro pre a post u heq
  simp at heq

theorem stepsMeet_cons {C : σ → α → Prop} {s : σ} {a : α} {as : List α} :
    StepsMeet step C s (a :: as) ↔ C s a ∧ ∀ u, step s a = some u → StepsMeet step C u as := by
  constructor
  · intro h
    exact ⟨h [] a as s rfl rfl, fun u hu => h.tail step hu⟩
  · rintro ⟨hCa, htail⟩ pre b post v heq hv
    cases pre with
    | nil =>
      simp only [List.nil_append, List.cons.injEq] at heq
      simp only [exec_nil, Option.some.injEq] at hv
      rwa [← hv, ← heq.1]
    | cons c pre =>
      simp only [List.cons_append, List.cons.injEq] at heq
      obtain ⟨u, hu, hv⟩ := (exec_cons_eq_some step).mp hv
      rw [← heq.1] at hu
      exact htail u hu pre b post v heq.2 hv

/-- Whether the steps of a run meet a condition can be computed along the run. -/
instance decidableStepsMeet (C : σ → α → Prop) [∀ s a, Decidable (C s a)] :
    ∀ s as, Decidable (StepsMeet step C s as)
  | s, [] => isTrue (stepsMeet_nil step C s)
  | s, a :: as =>
    match hu : step s a with
    | none => decidable_of_iff (C s a) (by simp [stepsMeet_cons, hu])
    | some u =>
      have := decidableStepsMeet C u as
      decidable_of_iff (C s a ∧ StepsMeet step C u as) (by simp [stepsMeet_cons, hu])

theorem statesMeet_nil {P : σ → Prop} {s : σ} : StatesMeet step P s [] ↔ P s := by
  constructor
  · intro h
    exact h [] [] s rfl rfl
  · intro h pre post u heq hu
    obtain ⟨rfl, rfl⟩ := List.append_eq_nil_iff.mp heq.symm
    exact Option.some.inj hu ▸ h

theorem statesMeet_cons {P : σ → Prop} {s : σ} {a : α} {as : List α} :
    StatesMeet step P s (a :: as) ↔ P s ∧ ∀ u, step s a = some u → StatesMeet step P u as := by
  constructor
  · intro h
    refine ⟨h [] (a :: as) s rfl rfl, fun u hu pre post v heq hv => ?_⟩
    exact h (a :: pre) post v (by rw [heq]; rfl) ((exec_cons_eq_some step).mpr ⟨u, hu, hv⟩)
  · rintro ⟨hP, htail⟩ pre post v heq hv
    cases pre with
    | nil => exact Option.some.inj hv ▸ hP
    | cons b pre =>
      simp only [List.cons_append, List.cons.injEq] at heq
      obtain ⟨u, hu, hv⟩ := (exec_cons_eq_some step).mp hv
      rw [← heq.1] at hu
      exact htail u hu pre post v heq.2 hv

/-- Whether the states of a run satisfy a predicate can be computed along the run. -/
instance decidableStatesMeet (P : σ → Prop) [DecidablePred P] :
    ∀ s as, Decidable (StatesMeet step P s as)
  | s, [] => decidable_of_iff (P s) (statesMeet_nil step).symm
  | s, a :: as =>
    match hu : step s a with
    | none => decidable_of_iff (P s) (by simp [statesMeet_cons, hu])
    | some u =>
      have := decidableStatesMeet P u as
      decidable_of_iff (P s ∧ StatesMeet step P u as) (by simp [statesMeet_cons, hu])

/-- A condition on the states of a run is one on its steps. -/
theorem StatesMeet.stepsMeet {P : σ → Prop} {s : σ} {as : List α} (h : StatesMeet step P s as) :
    StepsMeet step (fun u _ => P u) s as :=
  fun pre a post u heq hu => h pre (a :: post) u heq hu

/-- What every step meeting `C` preserves holds in every state of a run whose steps meet `C`. -/
theorem exec_induction_of_steps {Inv : σ → Prop} {C : σ → α → Prop}
    (hstep : ∀ s a t, Inv s → C s a → step s a = some t → Inv t)
    {s : σ} {as : List α} (h0 : Inv s) (hC : StepsMeet step C s as) :
    StatesMeet step Inv s as := by
  intro pre post u heq hu
  induction pre generalizing s as with
  | nil => simp only [exec_nil, Option.some.injEq] at hu; exact hu ▸ h0
  | cons a pre ih =>
    obtain ⟨v, hv, hu⟩ := (exec_cons_eq_some step).mp hu
    subst heq
    have hCa : C s a := hC [] a (pre ++ post) s rfl rfl
    exact ih (hstep s a v h0 hCa hv) (hC.tail step hv) rfl hu

/-- A run whose steps all meet a condition under which the step is enabled goes to its end. -/
theorem exec_eq_some_of_steps {C : σ → α → Prop} (hstep : ∀ s a, C s a → ∃ t, step s a = some t)
    {s : σ} {as : List α} (hC : StepsMeet step C s as) : ∃ t, exec step s as = some t := by
  induction as generalizing s with
  | nil => exact ⟨s, rfl⟩
  | cons a as ih =>
    obtain ⟨u, hu⟩ := hstep s a (hC [] a as s rfl rfl)
    obtain ⟨t, ht⟩ := ih (hC.tail step hu)
    exact ⟨t, (exec_cons_eq_some step).mpr ⟨u, hu, ht⟩⟩

/-- Conditions that agree in every state agree on the steps of a run. -/
theorem stepsMeet_congr {C D : σ → α → Prop} (h : ∀ s a, C s a ↔ D s a) (s : σ) (as : List α) :
    StepsMeet step C s as ↔ StepsMeet step D s as := by
  simp only [StepsMeet, h]

/-- When moreover every step that does not meet `C` ends in a state without `P`, and every action
taken is enabled, the states all satisfy `P` exactly when the steps all meet `C`. -/
theorem statesMeet_iff_stepsMeet (Inv : σ → Prop) {P : σ → Prop} {C : σ → α → Prop}
    (hInv : ∀ s, Inv s → P s)
    (hstep : ∀ s a t, Inv s → C s a → step s a = some t → Inv t)
    (hbad : ∀ s a t, Inv s → ¬ C s a → step s a = some t → ¬ P t)
    {s t : σ} {as : List α} (h0 : Inv s) (h : exec step s as = some t) :
    StatesMeet step P s as ↔ StepsMeet step C s as := by
  constructor
  · intro hP
    induction as generalizing s with
    | nil =>
      intro pre a post u heq
      simp at heq
    | cons a as ih =>
      obtain ⟨v, hv, ht⟩ := (exec_cons_eq_some step).mp h
      have hCa : C s a := by
        by_contra hC
        refine hbad s a v h0 hC hv (hP [a] as v rfl ?_)
        exact (exec_cons_eq_some step).mpr ⟨v, hv, rfl⟩
      have hrest := ih (hstep s a v h0 hCa hv) ht fun pre post u heq hu =>
        hP (a :: pre) post u (by rw [heq]; rfl) ((exec_cons_eq_some step).mpr ⟨v, hv, hu⟩)
      intro pre b post u heq hu
      cases pre with
      | nil =>
        simp only [List.nil_append, List.cons.injEq] at heq
        simp only [exec_nil, Option.some.injEq] at hu
        rw [← hu, ← heq.1]
        exact hCa
      | cons c pre =>
        simp only [List.cons_append, List.cons.injEq] at heq
        obtain ⟨w, hw, hu⟩ := (exec_cons_eq_some step).mp hu
        rw [← heq.1, hv, Option.some.injEq] at hw
        subst hw
        exact hrest pre b post u heq.2 hu
  · intro hC pre post u heq hu
    exact hInv u (exec_induction_of_steps step hstep h0 hC pre post u heq hu)

end Exec

/-! ## Two runs -/

/-- Two runs of a machine through the same actions, in which each step may read something that
differs between the runs. -/
def pairStep {δ : Type} (step : σ → α → δ → Option σ) (p : σ × σ) (a : α × δ × δ) :
    Option (σ × σ) :=
  (step p.1 a.1 a.2.1).bind fun s => (step p.2 a.1 a.2.2).map fun t => (s, t)

theorem pairStep_eq_some {δ : Type} {step : σ → α → δ → Option σ} {p q : σ × σ} {a : α × δ × δ} :
    pairStep step p a = some q ↔
      step p.1 a.1 a.2.1 = some q.1 ∧ step p.2 a.1 a.2.2 = some q.2 := by
  simp only [pairStep, Option.bind_eq_some_iff, Option.map_eq_some_iff]
  constructor
  · rintro ⟨s, hs, t, ht, rfl⟩
    exact ⟨hs, ht⟩
  · rintro ⟨hs, ht⟩
    exact ⟨q.1, hs, q.2, ht, rfl⟩

/-- Two runs that begin in one state stay together as long as the condition lets no step see what
differs. -/
theorem pairStep_states_eq {δ : Type} {step : σ → α → δ → Option σ} {C : σ × σ → α × δ × δ → Prop}
    (hsame : ∀ s a m n, C (s, s) (a, m, n) → step s a m = step s a n) (s : σ)
    {as : List (α × δ × δ)} (hC : StepsMeet (pairStep step) C (s, s) as) :
    StatesMeet (pairStep step) (fun p => p.1 = p.2) (s, s) as := by
  refine exec_induction_of_steps (pairStep step) ?_ rfl hC
  rintro ⟨u, v⟩ ⟨a, m, n⟩ q heq hCa hstep
  obtain ⟨hu, hv⟩ := pairStep_eq_some.mp hstep
  obtain rfl : u = v := heq
  exact Option.some.inj (hu.symm.trans ((hsame u a m n hCa).trans hv))

/-! ## Simulation -/

/-- One machine simulates another, each step by a run. A property of related states that a step keeps
exactly if it meets the condition holds at the end exactly if all steps have met it. -/
theorem exec_simulation_iff {τ β : Type} {step : σ → α → Option σ} {spec : τ → β → Option τ}
    {R P : σ → τ → Prop} {C : σ → α → Prop}
    (hstep : ∀ s t a s', R s t → step s a = some s' →
      ∃ bs t', exec spec t bs = some t' ∧ R s' t' ∧ (P s' t' ↔ P s t ∧ C s a))
    {s s' : σ} {t : τ} {as : List α} (h : R s t) (hrun : exec step s as = some s') :
    ∃ bs t', exec spec t bs = some t' ∧ R s' t' ∧ (P s' t' ↔ P s t ∧ StepsMeet step C s as) := by
  induction as generalizing s t with
  | nil =>
    obtain rfl := Option.some.inj hrun
    exact ⟨[], t, rfl, h, (and_iff_left (stepsMeet_nil step C s)).symm⟩
  | cons a as ih =>
    obtain ⟨u, hu, hrest⟩ := (exec_cons_eq_some step).mp hrun
    obtain ⟨bs, v, hbs, huv, hP⟩ := hstep s t a u h hu
    obtain ⟨bs', t', hbs', hR, hP'⟩ := ih huv hrest
    refine ⟨bs ++ bs', t', (exec_append_eq_some spec).mpr ⟨v, hbs, hbs'⟩, hR, ?_⟩
    rw [hP', hP, and_assoc, stepsMeet_cons, hu]
    refine and_congr_right fun _ => and_congr_right fun _ => ⟨fun hmeet w hw => ?_, fun hmeet => ?_⟩
    · obtain rfl := Option.some.inj hw
      exact hmeet
    · exact hmeet u rfl

end Powerboard.Machine
