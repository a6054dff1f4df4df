import Powerboard.SwTimer.OneTimerTheorems

/-!
# The ticks that a registration stores

Milliseconds become microseconds, microseconds become ticks, and the elapsed ticks are added, each
time with 32 bits. The first two losses together are one remainder, since `2 ^ 32` goes through both
products, and the third one is seen in the handle because its counter has 64 bits.
-/

namespace Powerboard.SwTimer

/-! ## What is stored -/

/-- The microseconds that `swTimer_registerOnTimerUS` gets. -/
def TimerRequest.intervalUS : TimerRequest → UInt32
  | ms intervalInMS => intervalInMS * microsecondsPerMillisecond
  | us intervalUS => intervalUS

lemma TimerRequest.register_eq (request : TimerRequest) (s : Globals)
    (callback : Option TimerCallback) (oneShot : Bool) :
    request.register s callback oneShot =
      registerOnTimerUS s callback request.intervalUS oneShot := by
  cases request <;> rfl

/-- The ticks that are set are the requested ones without what does not fit. -/
lemma TimerRequest.ticksToSet_eq (request : TimerRequest) :
    hwTimerGetTicksForIntervalUs request.intervalUS = request.ticks % ticksModulus := by
  cases request with
  | ms intervalInMS =>
    have hthousand : microsecondsPerMillisecond.toNat = 1000 := rfl
    rw [hwTimerGetTicksForIntervalUs, intervalUS, ticks, UInt32.toNat_mul, hthousand]
    exact Nat.mod_mul_mod _ _ _
  | us intervalUS => rfl

lemma handleClients_handles (s : Globals) (caller : Caller) :
    (s.handleClients caller).handles = s.handles := by
  unfold Globals.handleClients Globals.returnWithoutPass
  split
  · split <;> rfl
  · rfl

variable {s : Globals} {callback : TimerCallback} (intervalUS : UInt32) (oneShot : Bool)

lemma registerOnTimerUS_none (s : Globals) :
    (registerOnTimerUS s none intervalUS oneShot).1 = false ∧
      (registerOnTimerUS s none intervalUS oneShot).2.handles = s.handles := by
  refine ⟨rfl, ?_⟩
  simp only [registerOnTimerUS, Globals.returnWithoutPass]
  split <;> rfl

lemma registerOnTimerUS_of_slotFor_none (hslot : slotFor s.handles callback = none) :
    (registerOnTimerUS s (some callback) intervalUS oneShot).1 = false ∧
      (registerOnTimerUS s (some callback) intervalUS oneShot).2.handles = s.handles := by
  simp only [registerOnTimerUS, Globals.registrationPhase, hslot, handleClients_handles, and_self]

lemma registerOnTimerUS_of_slotFor {j : ℕ} (hslot : slotFor s.handles callback = some j) :
    (registerOnTimerUS s (some callback) intervalUS oneShot).1 = true ∧
      (registerOnTimerUS s (some callback) intervalUS oneShot).2.handles =
        s.handles.setIfInBounds j
          (s.newHandle callback (hwTimerGetTicksForIntervalUs intervalUS) oneShot) := by
  simp only [registerOnTimerUS, Globals.registrationPhase, hslot, handleClients_handles, and_self]

/-! ## When it is what was requested -/

/-- A call that fails without a write stores what it should. -/
lemma storesRequested_of_failed {callback : Option TimerCallback} (request : TimerRequest)
    {result : Bool × Globals} (hfailed : result.1 = false ∧ result.2.handles = s.handles) :
    StoresRequested s callback request result where
  stored htrue := absurd (hfailed.1.symm.trans htrue) Bool.false_ne_true
  refused _ := hfailed

/-- With 32 bits the ticks are kept in the interval and in the counter exactly if their sum with the
elapsed ones fits. -/
lemma startCounter_eq_iff (ticks elapsed : ℕ) :
    ticks < ticksModulus ∧ startCounter (ticks % ticksModulus) elapsed = ticks + elapsed ↔
      ticks + elapsed < ticksModulus := by
  have hpos : 0 < ticksModulus := by decide
  rw [startCounter, Nat.mod_add_mod]
  constructor
  · rintro ⟨-, heq⟩
    rw [← heq]
    exact Nat.mod_lt _ hpos
  · intro hlt
    exact ⟨by omega, Nat.mod_eq_of_lt hlt⟩

/-- A call that succeeds stores what it should if and only if that fits. -/
lemma storesRequested_iff_of_slotFor (request : TimerRequest) {j : ℕ}
    (hslot : slotFor s.handles callback = some j) :
    StoresRequested s (some callback) request (request.register s (some callback) oneShot) ↔
      request.ticks + s.elapsed < ticksModulus := by
  have hj : j < swTimerMaxHandles := slotFor_lt hslot
  obtain ⟨htrue, hhandles⟩ := registerOnTimerUS_of_slotFor request.intervalUS oneShot hslot
  rw [request.register_eq]
  rw [request.ticksToSet_eq] at hhandles
  have hat : ∀ hj : j < swTimerMaxHandles,
      (registerOnTimerUS s (some callback) request.intervalUS oneShot).2.handles[j] =
        s.newHandle callback (request.ticks % ticksModulus) oneShot := by
    intro hj
    simp only [hhandles, Vector.getElem_setIfInBounds_self hj]
  constructor
  · rintro ⟨hstored, hrefused⟩
    obtain ⟨c, hc, k, hk, -, hbound, -, -, hcounter⟩ := hstored htrue
    obtain rfl := Option.some.inj hc
    obtain rfl := Option.some.inj (hslot.symm.trans hk)
    rw [hat hj] at hcounter
    have hfits : request.ticks < ticksModulus := by
      by_contra hge
      have hfalse := (hrefused (not_lt.mp hge)).1
      exact absurd (hfalse.symm.trans htrue) Bool.false_ne_true
    exact (startCounter_eq_iff _ _).mp ⟨hfits, Int.ofNat_inj.mp hcounter⟩
  · intro hlt
    obtain ⟨hfits, hcounter⟩ := (startCounter_eq_iff _ _).mpr hlt
    refine ⟨fun _ => ⟨callback, rfl, j, hslot, fun i hi hne => ?_, hj, ?_, ?_, ?_⟩, fun hge => ?_⟩
    · simp only [hhandles, Vector.getElem_setIfInBounds_ne hi (Ne.symm hne)]
    · rw [hat hj]
      rfl
    · rw [hat hj]
      exact Nat.mod_eq_of_lt hfits
    · rw [hat hj]
      exact congrArg Int.ofNat hcounter
    · omega

/-- A registration stores the requested ticks if and only if they fit. -/
theorem storesRequested_iff_requestFits (s : Globals) (callback : Option TimerCallback)
    (request : TimerRequest) (oneShot : Bool) :
    StoresRequested s callback request (request.register s callback oneShot) ↔
      RequestFits s callback request := by
  cases callback with
  | none =>
    have hfailed := registerOnTimerUS_none request.intervalUS oneShot s
    rw [← request.register_eq] at hfailed
    simp [RequestFits, storesRequested_of_failed request hfailed]
  | some callback =>
    cases hslot : slotFor s.handles callback with
    | none =>
      have hfailed := registerOnTimerUS_of_slotFor_none request.intervalUS oneShot hslot
      rw [← request.register_eq] at hfailed
      simp [RequestFits, hslot, storesRequested_of_failed request hfailed]
    | some j =>
      rw [storesRequested_iff_of_slotFor oneShot request hslot]
      simp [RequestFits, hslot]

/-- 89479 milliseconds are registered as 24704 ticks, which is half a millisecond. -/
theorem long_interval_is_shortened :
    (registerOnTimer timerStart (some 0) 89479 true).1 = true ∧
      (registerOnTimer timerStart (some 0) 89479 true).2.handles[0].interval = 24704 ∧
      ¬ StoresRequested timerStart (some 0) (.ms 89479)
        (registerOnTimer timerStart (some 0) 89479 true) := by
  have hticks : TimerRequest.ticks (.ms 89479) = 2 ^ 32 + 24704 := by decide
  refine ⟨by decide +kernel, by decide +kernel, fun hstores => ?_⟩
  have hrefused := hstores.refused (by rw [hticks, ticksModulus]; omega)
  exact absurd hrefused.1 (by decide +kernel)

end Powerboard.SwTimer
