import Powerboard.SwTimer.SwTimerTheorems

/-!
# No timer fires early

The count of a handle is relative to the last set-up of the hardware timer, which every pass moves.
In absolute time a handle is due when its next call is allowed: as many intervals after its
registration as it has calls, and one more. The invariant is that the last set-up and the count
together are not before that time. For a handle that the pass has visited the set-up that counts is
the one at the end of the pass, which comes after the moment when the pass read the elapsed ticks; if
there will be none, the handle must be in order as it is. A registration adds the elapsed ticks with 32
bits. They are less than `2 ^ 31`, and the interval is a second at most, so that nothing is lost.
-/

namespace Powerboard.SwTimer

open Machine Sweep

/-! ## When a handle is due -/

/-- The first time at which the next call of the handle is not early. -/
def CallbackHandle.due (h : CallbackHandle) : ℕ := h.registeredAt + (h.fired + 1) * h.interval

/-- The time of the last set-up of the hardware timer. -/
def Globals.lastSetup (s : Globals) : ℤ := s.now - s.elapsed

/-- Counted from `base`, the handle does not run out before it is due. -/
def DueFrom (base : ℤ) (h : CallbackHandle) : Prop :=
  h.Active → h.due ≤ base + h.tickCounter ∧ (h.oneShot → h.fired = 0)

/-- The pass has visited the handle: it counts from where the pass read the elapsed ticks, and the
pass will set up the hardware timer, or else it counts from the last set-up. -/
def VisitedDue (base : ℤ) (pass : Pass) (h : CallbackHandle) : Prop :=
  DueFrom (base + pass.ticksElapsed) h ∧ (pass.nextInterval < noInterval ∨ DueFrom base h)

/-- When the handles are due, by where the call is. -/
def HandlesDue (s : Globals) : Prop :=
  match s.pc with
  | .idle | .updating _ | .returned _ _ => Each (DueFrom s.lastSetup) s.handles
  | .handling pass => pass.ticksElapsed ≤ s.elapsed ∧
    Between (VisitedDue s.lastSetup pass) (DueFrom s.lastSetup) pass.i s.handles
  | .calling pass | .rescheduling pass => pass.ticksElapsed ≤ s.elapsed ∧
    At (VisitedDue s.lastSetup pass) (DueFrom (s.lastSetup + pass.ticksElapsed))
      (DueFrom s.lastSetup) pass.i s.handles

lemma DueFrom.mono {base base' : ℤ} (hle : base ≤ base') {h : CallbackHandle}
    (hh : DueFrom base h) : DueFrom base' h := by
  intro hactive
  obtain ⟨hdue, honeShot⟩ := hh hactive
  exact ⟨by omega, honeShot⟩

lemma DueFrom.of_not_active {base : ℤ} {h : CallbackHandle} (hinactive : ¬ h.Active) :
    DueFrom base h := fun hactive => absurd hactive hinactive

lemma DueFrom.visited {base : ℤ} {pass : Pass} {h : CallbackHandle} (hh : DueFrom base h) :
    VisitedDue base pass h := ⟨hh.mono (by omega), .inr hh⟩

/-- Every call moves the due time by one interval. -/
lemma due_expire {h : CallbackHandle} : h.expire.due = h.due + h.interval := by
  unfold CallbackHandle.expire CallbackHandle.due
  split <;> simp only <;> ring

/-- Elapsed ticks are taken off the count, and the count is from where they were read. -/
lemma DueFrom.elapse {base : ℤ} {h : CallbackHandle} (hh : DueFrom base h) (ticksElapsed : ℕ) :
    DueFrom (base + ticksElapsed) (h.elapse ticksElapsed) := by
  intro hactive
  obtain ⟨hdue, honeShot⟩ := hh hactive
  refine ⟨?_, honeShot⟩
  calc ((h.elapse ticksElapsed).due : ℤ) = h.due := rfl
    _ ≤ base + h.tickCounter := hdue
    _ = base + ticksElapsed + (h.elapse ticksElapsed).tickCounter := by
      simp only [CallbackHandle.elapse]
      ring

/-- A timer that ran out: a periodic one catches up with at most one interval, which only delays
it. -/
lemma DueFrom.expire {base : ℤ} {h : CallbackHandle} (hh : DueFrom base h)
    (hactive : h.Active) (hout : h.tickCounter ≤ 0) : DueFrom base h.expire := by
  obtain ⟨hdue, _⟩ := hh hactive
  intro hactive'
  rw [due_expire]
  unfold CallbackHandle.expire at hactive' ⊢
  split at hactive'
  · simp [CallbackHandle.Active] at hactive'
  · next hperiodic =>
    simp only [hperiodic, Bool.false_eq_true, ↓reduceIte, IsEmpty.forall_iff, and_true]
    push_cast
    omega

/-- A second is 48000000 ticks. -/
lemma AtMostOneSecond.ticks_le {callback : Option TimerCallback} {intervalUS : UInt32}
    {oneShot : Bool} (hsecond : AtMostOneSecond (.register callback intervalUS oneShot)) :
    hwTimerGetTicksForIntervalUs intervalUS ≤ clockApbTimerClk := by
  simp only [AtMostOneSecond, usecondsPerSecond] at hsecond
  simp only [hwTimerGetTicksForIntervalUs, clockApbTimerClk, usecondsPerSecond]
  exact (Nat.mod_le _ _).trans (by omega)

/-- A registration for a second at most: the sum of its ticks and the elapsed ones has 32 bits. -/
lemma dueFrom_newHandle {s : Globals} (hrange : InRange s) {callback : TimerCallback}
    {intervalUS : UInt32} {oneShot : Bool}
    (hsecond : AtMostOneSecond (.register (some callback) intervalUS oneShot)) :
    DueFrom s.lastSetup
      (s.newHandle callback (hwTimerGetTicksForIntervalUs intervalUS) oneShot) := by
  intro _
  have hticks := hsecond.ticks_le
  have helapsed := hrange.elapsed
  generalize hwTimerGetTicksForIntervalUs intervalUS = ticksToSet at hticks ⊢
  have hfits : ticksToSet + s.elapsed < ticksModulus := by
    simp only [clockApbTimerClk, maxTicksElapsed, ticksModulus] at *
    omega
  have hsum : startCounter ticksToSet s.elapsed = ticksToSet + s.elapsed := Nat.mod_eq_of_lt hfits
  refine ⟨?_, fun _ => rfl⟩
  simp only [Globals.newHandle, CallbackHandle.due, Globals.lastSetup, hsum]
  push_cast
  omega

/-! ## The steps -/

/-- To give up a handle harms nothing, wherever the call is. -/
lemma HandlesDue.clear {s : Globals} (hdue : HandlesDue s) (j : ℕ) {h : CallbackHandle}
    (hinactive : ¬ h.Active) :
    HandlesDue { s with handles := s.handles.setIfInBounds j h } := by
  have hclear {base : ℤ} : DueFrom base h := .of_not_active hinactive
  simp only [HandlesDue, Globals.lastSetup] at hdue ⊢
  cases hpc : s.pc <;> simp only [hpc] at hdue ⊢
  case idle | updating | returned => exact each_setIfInBounds hdue hclear
  case handling pass =>
    refine ⟨hdue.1, fun k hk hlt => ?_, fun k hk hle => ?_⟩ <;>
      rw [Vector.getElem_setIfInBounds] <;> split
    · exact hclear.visited
    · exact hdue.2.before k hk hlt
    · exact hclear
    · exact hdue.2.behind k hk hle
  case calling | rescheduling =>
    exact ⟨hdue.1, hdue.2.setIfInBounds (fun _ => hclear.visited) (fun _ => hclear)
      (fun _ => hclear)⟩

/-- A registration by a callback, in whichever handle. -/
lemma HandlesDue.nested {s : Globals} (hdue : HandlesDue s) {pass : Pass}
    (hpc : s.pc = .calling pass) (j : ℕ) {h : CallbackHandle} (hh : DueFrom s.lastSetup h) :
    HandlesDue { s with handles := s.handles.setIfInBounds j h } := by
  simp only [HandlesDue, hpc] at hdue ⊢
  exact ⟨hdue.1, hdue.2.setIfInBounds (fun _ => hh.visited) (fun _ => hh.mono (by omega))
    (fun _ => hh)⟩

/-- "reschedule?" -/
lemma HandlesDue.reschedule {s : Globals} (hwf : WellFormed s) (hdue : HandlesDue s)
    (hbelow : BelowNoInterval s) {pass : Pass} (hpc : s.pc = .rescheduling pass)
    (hi : pass.i < swTimerMaxHandles) :
    HandlesDue (s.reschedule pass s.handles[pass.i]) := by
  obtain ⟨h0, hle⟩ := hwf.nextInterval pass (by rw [hpc]; rfl)
  have hnext := reschedule_nextInterval h0 hle (hwf.current pass (by rw [hpc]; rfl) hi)
  simp only [HandlesDue, hpc] at hdue
  refine ⟨hdue.1, hdue.2.leave hi (fun h hh => ⟨hh.1, hh.2.imp_left fun hlt => ?_⟩) fun hh => ?_⟩
  · -- the next interval only gets smaller
    refine lt_of_eq_of_lt hnext ?_
    split <;> omega
  · by_cases hactive : s.handles[pass.i].Active
    · -- the pass will set up the hardware timer
      have hcount := hbelow s.handles[pass.i] (Vector.getElem_mem hi) hactive
      refine ⟨hh, .inl (lt_of_eq_of_lt hnext ?_)⟩
      rw [if_pos hactive]
      omega
    · exact (DueFrom.of_not_active hactive).visited

/-- The end of a pass. -/
lemma HandlesDue.finish {s : Globals} (hdue : HandlesDue s) {pass : Pass}
    (hpc : s.pc = .handling pass) (hi : swTimerMaxHandles ≤ pass.i) :
    HandlesDue (s.finishPass pass) := by
  simp only [HandlesDue, hpc] at hdue
  obtain ⟨helapsed, hdue⟩ := hdue
  have hall := hdue.finish hi
  unfold Globals.finishPass
  split
  · -- the set-up comes after the moment when the elapsed ticks were read
    refine hall.mono fun h hh => hh.1.mono ?_
    simp only [Globals.lastSetup]
    omega
  · next hnone =>
    refine hall.mono fun h hh => ?_
    rcases hh.2 with hlt | hh
    · omega
    · exact hh

lemma HandlesDue.step {s t : Globals} {a : TimerAction} (hwf : WellFormed s) (hrange : InRange s)
    (hdue : HandlesDue s) (hbelow : BelowNoInterval s) (hsecond : AtMostOneSecond a)
    (ht : timerStep s a = some t) : HandlesDue t := by
  have hmoves := moves_of_timerStep hwf.handling ht
  cases hmoves with
  | elapse ticks =>
    -- time and the counter go on together, so the last set-up stays where it was
    have hsame : ((s.now + ticks : ℕ) : ℤ) - (s.elapsed + ticks : ℕ) = s.now - s.elapsed := by
      omega
    simp only [HandlesDue, Globals.lastSetup, hsame] at hdue ⊢
    cases hpc : s.pc <;> simp only [hpc] at hdue ⊢
    case idle | updating | returned => exact hdue
    all_goals exact ⟨by omega, hdue.2⟩
  | stay a => exact hdue
  | clear a j h hinactive => exact hdue.clear j hinactive
  | nested pass hpc callback intervalUS oneShot j hj =>
    exact hdue.nested hpc j (dueFrom_newHandle hrange hsecond)
  | register hpc callback intervalUS oneShot j hj =>
    simp only [HandlesDue, hpc] at hdue
    exact each_setIfInBounds hdue (dueFrom_newHandle hrange hsecond)
  | registerNull hpc intervalUS oneShot =>
    simp only [HandlesDue, hpc] at hdue
    exact hdue
  | update hpc a caller =>
    simp only [HandlesDue, hpc] at hdue
    exact hdue
  | startPass caller hpc =>
    simp only [HandlesDue, hpc] at hdue
    exact ⟨le_rfl, hdue.start⟩
  | skip pass hpc hi hinactive =>
    simp only [HandlesDue, hpc] at hdue
    exact ⟨hdue.1, hdue.2.skip hi (DueFrom.of_not_active hinactive).visited⟩
  | expire pass hpc hi callback hcallback hout =>
    simp only [HandlesDue, hpc] at hdue
    have hactive : (s.handles[pass.i].elapse pass.ticksElapsed).Active := by
      simp [CallbackHandle.elapse, CallbackHandle.Active, hcallback]
    have helapse := (hdue.2.behind pass.i hi le_rfl).elapse pass.ticksElapsed
    refine ⟨hdue.1, hdue.2.enter (helapse.expire hactive ?_)⟩
    simp only [CallbackHandle.elapse]
    omega
  | keep pass hpc hi hcount =>
    simp only [HandlesDue, hpc] at hdue
    exact ⟨hdue.1, hdue.2.enter ((hdue.2.behind pass.i hi le_rfl).elapse pass.ticksElapsed)⟩
  | reschedule pass hpc hi => exact hdue.reschedule hwf hbelow hpc hi
  | finish pass hpc hi => exact hdue.finish hpc hi
  | leave caller programmed hpc =>
    simp only [HandlesDue, hpc] at hdue
    exact hdue
  | callbackReturns pass hpc =>
    simp only [HandlesDue, hpc] at hdue
    exact hdue

/-- A callback is called when its handle is due, or later. -/
lemma NeverEarly.step {s t : Globals} {a : TimerAction} (hwf : WellFormed s) (hdue : HandlesDue s)
    (hearly : NeverEarly s) (ht : timerStep s a = some t) : NeverEarly t := by
  have hmoves := moves_of_timerStep hwf.handling ht
  cases hmoves with
  | expire pass hpc hi callback hcallback hout =>
    simp only [HandlesDue, hpc] at hdue
    obtain ⟨helapsed, hdue⟩ := hdue
    have hactive : s.handles[pass.i].Active := by
      simp [CallbackHandle.Active, hcallback]
    -- what is left of the count is not positive, so the due time has passed
    obtain ⟨hdue, honeShot⟩ := hdue.behind pass.i hi le_rfl hactive
    intro call hcall
    rcases List.mem_append.mp hcall with hcall | hcall
    · exact hearly call hcall
    · rw [List.mem_singleton.mp hcall]
      refine ⟨?_, fun h => by simp [honeShot h]⟩
      simp only [CallbackHandle.due, Globals.lastSetup] at hdue
      simp only
      omega
  | finish pass hpc hi =>
    unfold Globals.finishPass
    split <;> exact hearly
  | _ => exact hearly

/-! ## The runs -/

/-- In every run with intervals of at most one second, as long as no active handle counts
`0x7fffffff` ticks or more, no timer fires early. -/
theorem never_early {actions : List TimerAction} (hsecond : ∀ a ∈ actions, AtMostOneSecond a)
    (hbelow : StatesMeet timerStep BelowNoInterval timerStart actions) :
    StatesMeet timerStep NeverEarly timerStart actions := by
  let Inv (s : Globals) : Prop := WellFormed s ∧ InRange s ∧ HandlesDue s ∧ NeverEarly s
  have hstart : Inv timerStart :=
    ⟨.start, .start, each_replicate fun hactive => absurd rfl hactive,
      fun call hcall => absurd hcall List.not_mem_nil⟩
  have hstep : ∀ s a t, Inv s → BelowNoInterval s ∧ AtMostOneSecond a →
      timerStep s a = some t → Inv t := by
    intro s a t ⟨hwf, hrange, hdue, hearly⟩ ⟨hbelow, hsecond⟩ ht
    exact ⟨hwf.step ht, hrange.step hwf ht, hdue.step hwf hrange hbelow hsecond ht,
      hearly.step hwf hdue ht⟩
  have hinv := exec_induction_of_steps timerStep hstep hstart fun pre a post u heq hu =>
    ⟨hbelow.stepsMeet timerStep pre a post u heq hu, hsecond a (by simp [heq])⟩
  exact fun pre post u heq hu => (hinv pre post u heq hu).2.2.2

/-- A one-shot timer of 48 ticks, and `swTimer_trigger` on time. -/
def firesOnce : List TimerAction :=
  List.flatten
    [[.register (some 0) 1 true], List.replicate 36 .proceed,
      [.elapse 48, .trigger, .proceed, .proceed, .callbackReturns], List.replicate 34 .proceed]

theorem never_early_firesOnce :
    ∃ s, exec timerStep timerStart firesOnce = some s ∧ s.calls = [⟨0, 0, 48, true, 1, 48⟩] ∧
      NeverEarly s := by
  have hrun : (exec timerStep timerStart firesOnce).map (·.calls) =
      some [⟨0, 0, 48, true, 1, 48⟩] := by decide +kernel
  obtain ⟨s, hs, hcalls⟩ := Option.map_eq_some_iff.mp hrun
  have hsecond : ∀ a ∈ firesOnce, AtMostOneSecond a := by decide +kernel
  have hbelow : StatesMeet timerStep BelowNoInterval timerStart firesOnce := by decide +kernel
  exact ⟨s, hs, hcalls, never_early hsecond hbelow firesOnce [] s (List.append_nil _).symm hs⟩

end Powerboard.SwTimer
