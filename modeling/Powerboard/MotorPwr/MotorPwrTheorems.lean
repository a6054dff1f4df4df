import Powerboard.Gpio.GpioTheorems
import Powerboard.MotorPwr.MotorPwr

/-!
# The board does not miss the motor switch
-/

namespace Powerboard.MotorPwr

open Gpio Machine Registers

variable {s t : State} {a : Action}

/-! ## The accesses -/

/-- What is read is the level. -/
lemma gpioGetSwitch_eq (s : State) : s.gpioGetSwitch = s.level := by
  unfold State.gpioGetSwitch
  cases s.level <;> decide

@[simp] lemma getLsbD_extiPin : extiPin.getLsbD switchLine = true := by decide

/-- Only the level and what is pending change with the pin. -/
lemma drive_fields (s : State) (odr : BitVec 32) (released : Bool) :
    (s.drive odr released).pc = s.pc ∧ (s.drive odr released).timer = s.timer ∧
      (s.drive odr released).unmasked = s.unmasked ∧
      (s.drive odr released).reported = s.reported := by
  unfold State.drive State.unmasked
  dsimp only
  split_ifs <;> exact ⟨rfl, rfl, rfl, rfl⟩

/-- An edge is pending after a change of the level. -/
lemma drive_pending (s : State) (odr : BitVec 32) (released : Bool) :
    (s.drive odr released).pending = true ∨
      (s.drive odr released).level = s.level ∧ (s.drive odr released).pending = s.pending := by
  unfold State.drive
  dsimp only
  split_ifs with hlevel
  · exact .inr ⟨hlevel, rfl⟩
  · left
    simp [State.pending]

lemma setMotorPower_eq_drive (s : State) (packet : List UInt8) :
    setMotorPower s packet = s ∨ ∃ odr, setMotorPower s packet = s.drive odr s.released := by
  cases packet with
  | nil => exact .inl rfl
  | cons value rest =>
    right
    unfold setMotorPower
    dsimp only
    split_ifs <;> exact ⟨_, rfl⟩

/-- What a step can do: the pin changes, the handler or the callback begins, or one of them makes its
next access. -/
inductive Outcome (s : State) : Action → State → Prop
  | user (released : Bool) : Outcome s (.user released) (s.drive s.odr released)
  | packet (packet : List UInt8) (odr : BitVec 32) (hpc : s.pc = .idle) :
      Outcome s (.setMotorPower packet) (s.drive odr s.released)
  | noPacket (packet : List UInt8) : Outcome s (.setMotorPower packet) s
  | interrupt (hpc : s.pc = .idle) (hunmasked : s.unmasked = true) :
      Outcome s .interrupt { s with pc := .changed }
  | timeout (hpc : s.pc = .idle) (htimer : s.timer = true) :
      Outcome s .timeout { s with timer := false, pc := .read s.level }
  | next {t : State} {success : Bool} (h : advance s success = some t) :
      Outcome s (.next success) t

lemma step_outcome (h : step s a = some t) : Outcome s a t := by
  cases a with
  | user released =>
    simp only [step, Option.some.injEq] at h
    rw [← h]
    exact .user released
  | setMotorPower packet =>
    simp only [step, Option.ite_none_right_eq_some, Option.some.injEq] at h
    obtain ⟨hpc, rfl⟩ := h
    rcases setMotorPower_eq_drive s packet with hsame | ⟨odr, hdrive⟩
    · rw [hsame]
      exact .noPacket packet
    · rw [hdrive]
      exact .packet packet odr hpc
  | interrupt =>
    simp only [step, Option.ite_none_right_eq_some, Option.some.injEq] at h
    obtain ⟨⟨hpc, hunmasked, -⟩, rfl⟩ := h
    exact .interrupt hpc hunmasked
  | timeout =>
    simp only [step, Option.ite_none_right_eq_some, Option.some.injEq, gpioGetSwitch_eq] at h
    obtain ⟨⟨hpc, htimer⟩, rfl⟩ := h
    exact .timeout hpc htimer
  | next success => exact .next h

/-! ## The board keeps listening -/

/-- The line is masked exactly while the timer is to call, and then the timer is registered. -/
def ListeningInv (s : State) : Prop :=
  match s.pc with
  | .idle => s.unmasked = !s.timer
  | .changed => s.unmasked = true ∧ s.timer = false
  | .disable => s.timer = true
  | .disabled | .dispatched => s.unmasked = false ∧ s.timer = true
  | .read _ | .posted | .cleared => s.timer = false

lemma listening_of_inv (h : ListeningInv s) : Listening s := by
  cases hpc : s.pc <;> simp only [ListeningInv, Listening, hpc] at h ⊢
  · cases htimer : s.timer <;> simp_all
  · exact .inl h.1
  · exact h
  · exact h.2
  · exact h.2

/-- The invariant reads nothing that changes with the pin. -/
lemma listeningInv_drive (h : ListeningInv s) (odr : BitVec 32) (released : Bool) :
    ListeningInv (s.drive odr released) := by
  obtain ⟨hpc, htimer, hunmasked, -⟩ := drive_fields s odr released
  unfold ListeningInv
  rwa [hpc, htimer, hunmasked]

lemma listeningInv_advance {success : Bool} (h : ListeningInv s)
    (hregisters : s.pc = .changed → success = true) (ht : advance s success = some t) :
    ListeningInv t := by
  cases hpc : s.pc <;> simp only [advance, hpc, Option.some.injEq, reduceCtorEq] at ht <;>
    simp only [ListeningInv, hpc] at h <;> subst ht
  · simp [ListeningInv, hregisters hpc]
  · simp [ListeningInv, State.unmasked, h]
  · exact h
  · simp only [ListeningInv, State.unmasked] at h ⊢
    rw [h.1, h.2]
    rfl
  · exact h
  · exact h
  · simp [ListeningInv, State.unmasked, h]

lemma listeningInv_step (h : ListeningInv s) (hregisters : Registers s a)
    (ht : step s a = some t) : ListeningInv t := by
  cases step_outcome ht with
  | user released => exact listeningInv_drive h s.odr released
  | packet _ odr => exact listeningInv_drive h odr s.released
  | noPacket => exact h
  | interrupt hpc hunmasked =>
    simp only [ListeningInv, hpc] at h
    rw [hunmasked] at h
    exact ⟨hunmasked, by simpa using h.symm⟩
  | timeout => rfl
  | next hnext =>
    refine listeningInv_advance h (fun hpc => ?_) hnext
    by_contra hfails
    exact hregisters hpc (by rw [Bool.eq_false_iff.mpr hfails])

/-- The board goes on listening to the switch exactly as long as `swTimer_registerOnTimer` finds room
for the timer of `onMotorPwrChange`: in every run, all states have an unmasked line, a registered
timer or a callback that will unmask the line, if and only if no registration of the run fails. -/
theorem listening_iff_registers {released : Bool} {as : List Action} {s : State}
    (h : exec step (initial released) as = some s) :
    StatesMeet step Listening (initial released) as ↔
      StepsMeet step Registers (initial released) as := by
  refine statesMeet_iff_stepsMeet step ListeningInv (fun _ => listening_of_inv)
    (fun _ _ _ => listeningInv_step) ?_ (by simp [ListeningInv, initial, State.unmasked]) h
  intro u a v hu hfails hv
  simp only [Registers, not_forall, not_not] at hfails
  obtain ⟨hpc, rfl⟩ := hfails
  simp only [ListeningInv, hpc] at hu
  simp only [step, advance, hpc, Option.some.injEq] at hv
  rw [← hv]
  simp [Listening, hu.2]

/-- An edge, the handler, the timer and its callback -/
def pressAndRelease : List Action :=
  [.user false, .interrupt, .next true, .next true, .next true, .next true, .user true, .user false,
    .timeout, .next true, .next true, .next true]

theorem listening_iff_registers_press :
    StepsMeet step Registers (initial true) pressAndRelease ∧
      StatesMeet step Listening (initial true) pressAndRelease := by
  have hrun : (exec step (initial true) pressAndRelease).isSome := by decide
  obtain ⟨s, hs⟩ := Option.isSome_iff_exists.mp hrun
  have hregisters : StepsMeet step Registers (initial true) pressAndRelease := by decide
  exact ⟨hregisters, (listening_iff_registers hs).mpr hregisters⟩

/-! ## What the board reports at rest -/

/-- What is reported is the level, unless something is to come that reads it. -/
def ReportInv (s : State) : Prop :=
  match s.pc with
  | .idle => s.unmasked = true → s.pending = true ∨ s.reported = s.level
  | .changed | .disable => True
  | .disabled | .dispatched => s.unmasked = false
  | .read motorPwrState => motorPwrState = s.level
  | .posted => s.reported = s.level
  | .cleared => s.pending = true ∨ s.reported = s.level

/-- A change of the pin outside of the window in which it is read -/
lemma reportInv_drive (h : ReportInv s) {odr : BitVec 32} {released : Bool}
    (hwindow : s.pc = .posted ∨ (∃ v, s.pc = .read v) → (s.drive odr released).level = s.level) :
    ReportInv (s.drive odr released) := by
  obtain ⟨hpc, -, hunmasked, hreported⟩ := drive_fields s odr released
  have hedge := drive_pending s odr released
  unfold ReportInv at h ⊢
  rw [hpc, hunmasked, hreported]
  cases hs : s.pc with
  | idle =>
    rw [hs] at h
    rcases hedge with hpending | ⟨hlevel, hpending⟩
    · exact fun _ => .inl hpending
    · rwa [hlevel, hpending]
  | changed => trivial
  | disable => trivial
  | disabled =>
    rw [hs] at h
    exact h
  | dispatched =>
    rw [hs] at h
    exact h
  | read v =>
    rw [hs] at h
    simp only at h ⊢
    rw [hwindow (.inr ⟨v, hs⟩)]
    exact h
  | posted =>
    rw [hs] at h
    simp only at h ⊢
    rw [hwindow (.inl hs)]
    exact h
  | cleared =>
    rw [hs] at h
    rcases hedge with hpending | ⟨hlevel, hpending⟩
    · exact .inl hpending
    · rwa [hlevel, hpending]

lemma reportInv_advance {success : Bool} (h : ReportInv s)
    (hpost : ∀ v, s.pc = .read v → success = true) (ht : advance s success = some t) :
    ReportInv t := by
  cases hpc : s.pc <;> simp only [advance, hpc, Option.some.injEq, reduceCtorEq] at ht <;>
    simp only [ReportInv, hpc] at h <;> subst ht
  · trivial
  · simp [ReportInv, State.unmasked]
  · exact h
  · intro hunmasked
    rw [State.unmasked] at h hunmasked
    rw [h] at hunmasked
    cases hunmasked
  · simp only [ReportInv, hpost _ hpc, if_true]
    exact h
  · exact .inr h
  · exact fun _ => h

lemma reportInv_step (h : ReportInv s) (hsafe : ReadsSafely s a) (ht : step s a = some t) :
    ReportInv t := by
  cases step_outcome ht with
  | user released =>
    refine reportInv_drive h fun hwindow => hsafe.2 ?_ released rfl
    rcases hwindow with hpc | ⟨v, hpc⟩ <;> rw [hpc] <;> rfl
  | packet _ odr hpc => exact reportInv_drive h (by simp [hpc])
  | noPacket => exact h
  | interrupt => trivial
  | timeout => exact rfl
  | next hnext =>
    refine reportInv_advance h (fun v hv => ?_) hnext
    by_contra hfails
    exact hsafe.1 v hv (by rw [Bool.eq_false_iff.mpr hfails])

/-- What the board reports is what the switch is: in every run in which the posts succeed and the pin
keeps its level in the short time between `gpio_get` and the clearing of the pending bit, the last
state posted is the level of the pin whenever the line waits for an edge and none is pending. -/
theorem reported_eq_level_at_rest {released : Bool} {as : List Action}
    (hsafe : StepsMeet step ReadsSafely (initial released) as) :
    StatesMeet step (fun s => AtRest s → s.reported = s.level) (initial released) as := by
  have hinitial : ReportInv (initial released) := by
    intro _
    exact .inr (by cases released <;> decide)
  intro pre post u heq hu hrest
  have hinv := exec_induction_of_steps step (fun _ _ _ => reportInv_step) hinitial hsafe pre post u
    heq hu
  obtain ⟨hpc, hunmasked, hpending⟩ := hrest
  simp only [ReportInv, hpc] at hinv
  rcases hinv hunmasked with hyes | hsame
  · rw [hpending] at hyes
    cases hyes
  · exact hsame

theorem reported_eq_level_at_rest_press :
    StatesMeet step (fun s => AtRest s → s.reported = s.level) (initial true) pressAndRelease :=
  reported_eq_level_at_rest (by decide)

/-- The level that the pin gets after it was read is not reported if the edge comes before the
pending bit is cleared. -/
theorem edge_in_window_is_lost :
    ∃ s, exec step (initial true) [.user false, .interrupt, .next true, .next true, .next true,
        .next true, .timeout, .user true, .next true, .next true, .next true] = some s ∧
      AtRest s ∧ s.reported ≠ s.level :=
  ⟨_, rfl, by unfold AtRest; decide, by decide⟩

end Powerboard.MotorPwr
