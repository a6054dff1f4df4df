import Powerboard.SwTimer.SwTimerTheorems

/-!
# The timers are armed

Between two passes every active handle counts at most its interval. A pass takes the elapsed ticks
off handle by handle: the handles it has visited count at most their interval, and its next interval
is at most what each of them counts; the handles it has still to visit count at most their interval
and the elapsed ticks. A registration from outside adds the elapsed ticks to the count, and the pass
that follows takes them off. A registration by a callback adds them as well, when the pass takes them
off no more, or finds a handle that the search for the next interval has gone past.
-/

namespace Powerboard.SwTimer

open Machine Sweep

/-! ## The handles during a pass -/

/-- The handle counts at most its interval and so many ticks more. -/
def Within (late : ℤ) (h : CallbackHandle) : Prop :=
  h.Active → (h.interval : ℤ) < noInterval ∧ h.tickCounter ≤ h.interval + late

/-- The handle is visited, and counted in the next interval. -/
def Visited (pass : Pass) (h : CallbackHandle) : Prop :=
  h.Active → (h.interval : ℤ) < noInterval ∧ h.tickCounter ≤ h.interval ∧
    pass.nextInterval ≤ max (pass.caller.minimalTime : ℤ) h.tickCounter

/-- The hardware timer is set up in time for the handle. -/
def InTime (caller : Caller) (programmed : Option ℕ) (h : CallbackHandle) : Prop :=
  h.Active → ∃ ticks, programmed = some ticks ∧ (ticks : ℤ) ≤ max (caller.minimalTime : ℤ) h.tickCounter

/-- What the handles count, by where the call is. -/
def HandlesArmed (s : Globals) : Prop :=
  match s.pc with
  | .idle => Each (Within 0) s.handles
  | .updating _ => Each (Within s.elapsed) s.handles
  | .handling pass => Between (Visited pass) (Within pass.ticksElapsed) pass.i s.handles
  | .calling pass | .rescheduling pass =>
    At (Visited pass) (Within 0) (Within pass.ticksElapsed) pass.i s.handles
  | .returned caller programmed =>
    Each (Within 0) s.handles ∧ Each (InTime caller programmed) s.handles

lemma Within.mono {late late' : ℤ} (hle : late ≤ late') {h : CallbackHandle} (hh : Within late h) :
    Within late' h := by
  intro hactive
  obtain ⟨hinterval, hcount⟩ := hh hactive
  exact ⟨hinterval, by omega⟩

/-- The elapsed ticks are taken off. -/
lemma within_elapse {ticksElapsed : ℕ} {h : CallbackHandle} (hh : Within ticksElapsed h) :
    Within 0 (h.elapse ticksElapsed) := by
  intro hactive
  obtain ⟨hinterval, hcount⟩ := hh hactive
  exact ⟨hinterval, by simp only [CallbackHandle.elapse]; omega⟩

/-- A timer that ran out and is periodic counts at most its interval again. -/
lemma within_expire {h : CallbackHandle} (hh : h.Active → (h.interval : ℤ) < noInterval) :
    Within 0 h.expire := by
  unfold CallbackHandle.expire
  split
  · intro hactive
    simp [CallbackHandle.Active] at hactive
  · intro hactive
    exact ⟨hh hactive, by simp only; omega⟩

/-- The search for the next interval takes the handle in. -/
lemma visited_reschedule {pass : Pass} {h : CallbackHandle} {nextInterval : ℤ}
    (hnext : nextInterval = if h.Active then min pass.nextInterval h.tickCounter
      else pass.nextInterval) (hh : Within 0 h) :
    Visited { pass with i := pass.i + 1, nextInterval := nextInterval } h := by
  intro hactive
  obtain ⟨hinterval, hcount⟩ := hh hactive
  rw [if_pos hactive] at hnext
  refine ⟨hinterval, by omega, ?_⟩
  simp only
  omega

/-- The next interval only gets smaller. -/
lemma Visited.reschedule {pass : Pass} {h h' : CallbackHandle} {nextInterval : ℤ}
    (hnext : nextInterval = if h.Active then min pass.nextInterval h.tickCounter
      else pass.nextInterval) (hh : Visited pass h') :
    Visited { pass with i := pass.i + 1, nextInterval := nextInterval } h' := by
  intro hactive
  obtain ⟨hinterval, hcount, hle⟩ := hh hactive
  refine ⟨hinterval, hcount, ?_⟩
  simp only
  split at hnext <;> omega

/-! ## The steps -/

/-- To give up a handle harms nothing, wherever the call is. -/
lemma HandlesArmed.clear {s : Globals} (harmed : HandlesArmed s) (j : ℕ) {h : CallbackHandle}
    (hinactive : ¬ h.Active) :
    HandlesArmed { s with handles := s.handles.setIfInBounds j h } := by
  unfold HandlesArmed at harmed ⊢
  have hclear {P : Prop} : h.Active → P := fun hactive => absurd hactive hinactive
  cases hpc : s.pc <;> simp only [hpc] at harmed ⊢
  case idle | updating => exact each_setIfInBounds harmed hclear
  case handling pass =>
    refine ⟨fun k hk hlt => ?_, fun k hk hle => ?_⟩ <;> rw [Vector.getElem_setIfInBounds] <;> split
    · exact hclear
    · exact harmed.before k hk hlt
    · exact hclear
    · exact harmed.behind k hk hle
  case calling | rescheduling =>
    exact harmed.setIfInBounds (fun _ => hclear) (fun _ => hclear) (fun _ => hclear)
  case returned =>
    exact ⟨each_setIfInBounds harmed.1 hclear, each_setIfInBounds harmed.2 hclear⟩

/-- A registration by a callback. -/
lemma HandlesArmed.nested {s : Globals} (harmed : HandlesArmed s) {pass : Pass}
    (hpc : s.pc = .calling pass) {callback : TimerCallback} {intervalUS : UInt32} {oneShot : Bool}
    {j : ℕ} (hj : slotFor s.handles callback = some j)
    (hbelow : IntervalBelow (.register (some callback) intervalUS oneShot))
    (hsafe : NestedSafe s (.register (some callback) intervalUS oneShot)) :
    HandlesArmed { s with
      handles := s.handles.setIfInBounds j
        (s.newHandle callback (hwTimerGetTicksForIntervalUs intervalUS) oneShot) } := by
  simp only [HandlesArmed, hpc] at harmed ⊢
  simp only [NestedSafe, hpc] at hsafe
  replace hsafe := hsafe j hj
  apply harmed.setIfInBounds
  · -- a handle that the pass has visited
    intro hlt _
    rw [if_neg (by omega)] at hsafe
    exact ⟨hbelow, by simp only [Globals.newHandle]; omega, hsafe.2 hlt⟩
  · -- the handle of the callback that runs
    intro heq _
    rw [if_neg (by omega)] at hsafe
    exact ⟨hbelow, by simp only [Globals.newHandle]; omega⟩
  · -- a handle that the pass will visit
    intro hlt _
    rw [if_pos hlt] at hsafe
    exact ⟨hbelow, by simp only [Globals.newHandle]; omega⟩

/-- A registration from outside, before its pass. -/
lemma within_newHandle (s : Globals) (callback : TimerCallback) (oneShot : Bool) {ticksToSet : ℕ}
    (hbelow : (ticksToSet : ℤ) < noInterval) :
    Within s.elapsed (s.newHandle callback ticksToSet oneShot) := by
  intro _
  have hsum : startCounter ticksToSet s.elapsed ≤ ticksToSet + s.elapsed := Nat.mod_le _ _
  refine ⟨hbelow, ?_⟩
  simp only [Globals.newHandle]
  omega

/-- The end of a pass. -/
lemma HandlesArmed.finish {s : Globals} (hwf : WellFormed s) (harmed : HandlesArmed s) {pass : Pass}
    (hpc : s.pc = .handling pass) (hi : swTimerMaxHandles ≤ pass.i) :
    HandlesArmed (s.finishPass pass) := by
  simp only [HandlesArmed, hpc] at harmed
  obtain ⟨h0, _⟩ := hwf.nextInterval pass (by rw [hpc]; rfl)
  have hall := harmed.finish hi
  have hwithin : Each (Within 0) s.handles := hall.mono fun h hh hactive => by
    obtain ⟨hinterval, hcount, _⟩ := hh hactive
    exact ⟨hinterval, by omega⟩
  unfold Globals.finishPass
  split
  · -- the hardware timer is set up
    refine ⟨hwithin, hall.mono fun h hh hactive => ⟨_, rfl, ?_⟩⟩
    obtain ⟨_, _, hnext⟩ := hh hactive
    omega
  · -- no handle is active: each would have made the next interval smaller
    next hnone =>
    refine ⟨hwithin, hall.mono fun h hh hactive => ?_⟩
    obtain ⟨hinterval, hcount, hnext⟩ := hh hactive
    have hminimal := minimalTime_lt pass.caller
    omega

lemma HandlesArmed.step {s t : Globals} {a : TimerAction} (hwf : WellFormed s)
    (harmed : HandlesArmed s) (hbelow : IntervalBelow a) (hsafe : NestedSafe s a)
    (ht : timerStep s a = some t) : HandlesArmed t := by
  have hmoves := moves_of_timerStep hwf.handling ht
  cases hmoves with
  | elapse ticks =>
    unfold HandlesArmed at harmed ⊢
    cases hpc : s.pc <;> simp only [hpc] at harmed ⊢
    case updating => exact harmed.mono fun h => Within.mono (by omega)
    all_goals exact harmed
  | stay a => exact harmed
  | clear a j h hinactive => exact harmed.clear j hinactive
  | nested pass hpc callback intervalUS oneShot j hj => exact harmed.nested hpc hj hbelow hsafe
  | register hpc callback intervalUS oneShot j hj =>
    simp only [HandlesArmed, hpc] at harmed ⊢
    -- the counts were without the elapsed ticks; with them the bound is only wider
    apply each_setIfInBounds (harmed.mono fun h => Within.mono (by omega))
    exact within_newHandle s callback oneShot hbelow
  | registerNull hpc intervalUS oneShot =>
    simp only [NestedSafe, hpc] at hsafe
    simp only [HandlesArmed, hpc] at harmed ⊢
    -- the call sets nothing up, but there is no timer either
    exact ⟨harmed, fun j hj hactive => absurd hactive (hsafe trivial _ (Vector.getElem_mem hj))⟩
  | update hpc a caller =>
    simp only [HandlesArmed, hpc] at harmed ⊢
    exact harmed.mono fun h => Within.mono (by omega)
  | startPass caller hpc =>
    simp only [HandlesArmed, hpc] at harmed
    exact harmed.start
  | skip pass hpc hi hinactive =>
    simp only [HandlesArmed, hpc] at harmed ⊢
    exact harmed.skip hi fun hactive => absurd hactive hinactive
  | expire pass hpc hi callback hcallback hout =>
    simp only [HandlesArmed, hpc] at harmed ⊢
    have hwithin := harmed.behind pass.i hi le_rfl
    exact harmed.enter (within_expire fun hactive => (hwithin hactive).1)
  | keep pass hpc hi hcount =>
    simp only [HandlesArmed, hpc] at harmed ⊢
    exact harmed.enter (within_elapse (harmed.behind pass.i hi le_rfl))
  | reschedule pass hpc hi =>
    obtain ⟨h0, hle⟩ := hwf.nextInterval pass (by rw [hpc]; rfl)
    have hnext := reschedule_nextInterval h0 hle (hwf.current pass (by rw [hpc]; rfl) hi)
    simp only [HandlesArmed, hpc] at harmed
    exact harmed.leave hi (fun h' => Visited.reschedule hnext) (visited_reschedule hnext)
  | finish pass hpc hi => exact harmed.finish hwf hpc hi
  | leave caller programmed hpc =>
    simp only [HandlesArmed, hpc] at harmed ⊢
    exact harmed.1
  | callbackReturns pass hpc =>
    simp only [HandlesArmed, hpc] at harmed ⊢
    exact harmed

/-! ## The runs -/

lemma HandlesArmed.armedOnReturn {s : Globals} (harmed : HandlesArmed s) : ArmedOnReturn s := by
  intro caller programmed hpc
  simp only [HandlesArmed, hpc] at harmed
  obtain ⟨hwithin, hinTime⟩ := harmed
  constructor
  · intro h hmem hactive
    obtain ⟨j, hj, rfl⟩ := Vector.mem_iff_getElem.mp hmem
    have hcount := (hwithin j hj hactive).2
    omega
  · intro h hmem
    obtain ⟨j, hj, rfl⟩ := Vector.mem_iff_getElem.mp hmem
    exact hinTime j hj

/-- In every run whose intervals are below `0x7fffffff` ticks, and whose callbacks register timers
only where the pass handles them as if they were registered from outside, the timers are armed
whenever a registration or `swTimer_trigger` returns. -/
theorem armed_on_return {actions : List TimerAction} (hbelow : ∀ a ∈ actions, IntervalBelow a)
    (hsafe : StepsMeet timerStep NestedSafe timerStart actions) :
    StatesMeet timerStep ArmedOnReturn timerStart actions := by
  have hstart : WellFormed timerStart ∧ HandlesArmed timerStart :=
    ⟨WellFormed.start, each_replicate fun hactive => absurd rfl hactive⟩
  have hstep : ∀ s a t, WellFormed s ∧ HandlesArmed s → IntervalBelow a ∧ NestedSafe s a →
      timerStep s a = some t → WellFormed t ∧ HandlesArmed t :=
    fun s a t hs hC ht => ⟨hs.1.step ht, hs.2.step hs.1 hC.1 hC.2 ht⟩
  have hinv := exec_induction_of_steps timerStep hstep hstart fun pre a post u heq hu =>
    ⟨hbelow a (by simp [heq]), hsafe pre a post u heq hu⟩
  exact fun pre post u heq hu => (hinv pre post u heq hu).2.armedOnReturn

/-- A periodic timer whose callback registers a second one, in a handle still to be visited. -/
def registersBehind : List TimerAction :=
  List.flatten
    [[.register (some 0) 1 false], List.replicate 36 .proceed,
      [.elapse 48, .trigger, .proceed, .proceed, .register (some 1) 1 true, .callbackReturns],
      List.replicate 34 .proceed]

theorem armed_on_return_registersBehind :
    ∃ s, exec timerStep timerStart registersBehind = some s ∧
      s.pc = .returned .trigger (some 48) ∧ Armed s .trigger (some 48) := by
  have hrun : (exec timerStep timerStart registersBehind).map (·.pc) =
      some (.returned .trigger (some 48)) := by decide +kernel
  obtain ⟨s, hs, hpc⟩ := Option.map_eq_some_iff.mp hrun
  have hbelow : ∀ a ∈ registersBehind, IntervalBelow a := by decide +kernel
  have hsafe : StepsMeet timerStep NestedSafe timerStart registersBehind := by decide +kernel
  have harmed := armed_on_return hbelow hsafe registersBehind [] s (List.append_nil _).symm hs
  exact ⟨s, hs, hpc, harmed _ _ hpc⟩

/-- A one-shot timer of 48 ticks whose callback registers it again. -/
def registersItself : List TimerAction :=
  List.flatten
    [[.register (some 0) 1 true], List.replicate 36 .proceed,
      [.elapse 48, .trigger, .proceed, .proceed, .register (some 0) 1 true, .callbackReturns],
      List.replicate 33 .proceed]

/-- The second time it waits for 96 ticks. -/
theorem registersItself_not_armed :
    ¬ ∀ actions, (∀ a ∈ actions, IntervalBelow a) →
      StatesMeet timerStep ArmedOnReturn timerStart actions := by
  intro hall
  have hrun : (exec timerStep timerStart registersItself).map (fun s => (s.pc, s.handles[0])) =
      some (.returned .trigger (some 96), ⟨some 0, 48, 96, true, 48, 0⟩) := by decide +kernel
  obtain ⟨s, hs, hview⟩ := Option.map_eq_some_iff.mp hrun
  obtain ⟨hpc, hhandle⟩ := Prod.mk.inj hview
  have hbelow : ∀ a ∈ registersItself, IntervalBelow a := by decide +kernel
  have harmed := hall registersItself hbelow registersItself [] s (List.append_nil _).symm hs
  replace harmed := harmed _ _ hpc
  have hcount := harmed.counters s.handles[0] (Vector.getElem_mem _)
    (by rw [hhandle]; decide)
  rw [hhandle] at hcount
  exact absurd hcount (by decide)

end Powerboard.SwTimer
