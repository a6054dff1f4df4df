import Powerboard.Library.Machine

/-!
# Machines whose calls return results

A third shape of state machine, for a module that is used through its functions: a call is made in a
state and gives the next state and a result, or nothing where the call has no defined behaviour.

Two such machines are compared through what they return: one refines the other as far as the results
of the same calls are the same (`calls_eq_iff`).
-/

namespace Powerboard.Machine

variable {σ τ α β : Type}

/-- The state after the calls, and their results in order. -/
def calls (step : σ → α → Option (σ × β)) : σ → List α → Option (σ × List β)
  | s, [] => some (s, [])
  | s, a :: as =>
    (step s a).bind fun r => (calls step r.1 as).map fun rest => (rest.1, r.2 :: rest.2)

/-- The guarded machine that forgets the results. -/
def callStep (step : σ → α → Option (σ × β)) (s : σ) (a : α) : Option σ := (step s a).map Prod.fst

section Calls
variable {step : σ → α → Option (σ × β)}

@[simp] theorem calls_nil (s : σ) : calls step s [] = some (s, []) := rfl

/-- The first call has a result, and the rest goes on from its state. -/
theorem calls_cons {s : σ} {a : α} {r : σ × β} (hr : step s a = some r) (as : List α) :
    calls step s (a :: as) = (calls step r.1 as).map fun rest => (rest.1, r.2 :: rest.2) := by
  rw [calls, hr, Option.bind_some]

theorem callStep_eq_some {s t : σ} {a : α} :
    callStep step s a = some t ↔ ∃ b, step s a = some (t, b) := by
  simp [callStep]

/-- A call of two machines in related states is made in both, leads to related states, and has the
same result in both exactly if the condition holds. -/
def AgreesIf (step : σ → α → Option (σ × β)) (spec : τ → α → Option (τ × β)) (R : σ → τ → Prop)
    (C : σ → α → Prop) : Prop :=
  ∀ s t a, R s t → ∃ s' b t' b', step s a = some (s', b) ∧ spec t a = some (t', b') ∧ R s' t' ∧
    (b = b' ↔ C s a)

/-- Then every sequence of calls is made in both, and has the same results exactly if all its calls
meet the condition. -/
theorem calls_eq_iff {spec : τ → α → Option (τ × β)} {R : σ → τ → Prop} {C : σ → α → Prop}
    (hagrees : AgreesIf step spec R C) {s : σ} {t : τ} (h : R s t) (as : List α) :
    ∃ s' results t' expected, calls step s as = some (s', results) ∧
      calls spec t as = some (t', expected) ∧ R s' t' ∧
      (results = expected ↔ StepsMeet (callStep step) C s as) := by
  induction as generalizing s t with
  | nil => exact ⟨s, [], t, [], rfl, rfl, h, iff_of_true rfl (stepsMeet_nil _ C s)⟩
  | cons a as ih =>
    obtain ⟨u, b, v, b', hu, hv, huv, hb⟩ := hagrees s t a h
    obtain ⟨s', results, t', expected, hs', ht', hR, hresults⟩ := ih huv
    refine ⟨s', b :: results, t', b' :: expected, ?_, ?_, hR, ?_⟩
    · rw [calls_cons hu, hs', Option.map_some]
    · rw [calls_cons hv, ht', Option.map_some]
    · have hstep : callStep step s a = some u := callStep_eq_some.mpr ⟨b, hu⟩
      rw [List.cons.injEq, hb, hresults, stepsMeet_cons, hstep]
      refine and_congr_right fun _ => ⟨fun hrest w hw => ?_, fun hrest => hrest u rfl⟩
      obtain rfl := Option.some.inj hw
      exact hrest

/-- Every state that the calls pass is related to one of the other machine. -/
theorem AgreesIf.statesMeet {spec : τ → α → Option (τ × β)} {R : σ → τ → Prop} {C : σ → α → Prop}
    (hagrees : AgreesIf step spec R C) {s : σ} {t : τ} (h : R s t) (as : List α) :
    StatesMeet (callStep step) (fun u => ∃ v, R u v) s as := by
  have hstep : ∀ s a s', (∃ t, R s t) → callStep step s a = some s' → ∃ t, R s' t := by
    rintro s a s' ⟨t, h⟩ hs'
    obtain ⟨u, b, v, b', hu, _, huv, _⟩ := hagrees s t a h
    obtain ⟨b, hb⟩ := callStep_eq_some.mp hs'
    rw [hu, Option.some.injEq, Prod.mk.injEq] at hb
    exact ⟨v, hb.1 ▸ huv⟩
  intro pre post u _ hu
  exact exec_induction (callStep step) hstep ⟨t, h⟩ hu

end Calls

end Powerboard.Machine
