import Powerboard.Library.Sweep
import Powerboard.SwTimer.SwTimer

/-!
# What a step of the timers does

`Moves` lists what a step can do, and `moves_of_timerStep` says that every step is one of these. The
invariants below and in the modules after this one go through that list. `WellFormed` is what they
share: a pass is running exactly when `isHandlingClients` is set, and the numbers it computes do not
overflow. `InRange` bounds what goes to the hardware timer and what comes from it.
-/

namespace Powerboard.SwTimer

open Machine Sweep

/-! ## The steps -/

/-- What an action can do in a state. -/
inductive Moves (s : Globals) : TimerAction → Globals → Prop
  | elapse (ticks : ℕ) (hfits : s.elapsed + ticks ≤ maxTicksElapsed) : Moves s (.elapse ticks)
      { s with elapsed := s.elapsed + ticks, now := s.now + ticks }
  | stay (a : TimerAction) : Moves s a s
  /-- a handle is given up -/
  | clear (a : TimerAction) (j : ℕ) (h : CallbackHandle) (hinactive : ¬ h.Active) :
      Moves s a { s with handles := s.handles.setIfInBounds j h }
  /-- a registration by the callback that runs -/
  | nested (pass : Pass) (hpc : s.pc = .calling pass) (callback : TimerCallback)
      (intervalUS : UInt32) (oneShot : Bool) (j : ℕ) (hj : slotFor s.handles callback = some j) :
      Moves s (.register (some callback) intervalUS oneShot)
        { s with
          handles := s.handles.setIfInBounds j
            (s.newHandle callback (hwTimerGetTicksForIntervalUs intervalUS) oneShot) }
  | register (hpc : s.pc = .idle) (callback : TimerCallback)
      (intervalUS : UInt32) (oneShot : Bool) (j : ℕ) (hj : slotFor s.handles callback = some j) :
      Moves s (.register (some callback) intervalUS oneShot)
        { s with
          handles := s.handles.setIfInBounds j
            (s.newHandle callback (hwTimerGetTicksForIntervalUs intervalUS) oneShot)
          isHandlingClients := true
          pc := .updating .register }
  | registerNull (hpc : s.pc = .idle) (intervalUS : UInt32) (oneShot : Bool) :
      Moves s (.register none intervalUS oneShot) { s with pc := .returned .register none }
  /-- `swTimer_trigger`, and a registration that finds no handle -/
  | update (hpc : s.pc = .idle) (a : TimerAction) (caller : Caller) :
      Moves s a { s with isHandlingClients := true, pc := .updating caller }
  | startPass (caller : Caller) (hpc : s.pc = .updating caller) :
      Moves s .proceed (s.startPass caller)
  /-- the handle is not active -/
  | skip (pass : Pass) (hpc : s.pc = .handling pass) (hi : pass.i < swTimerMaxHandles)
      (hinactive : ¬ s.handles[pass.i].Active) :
      Moves s .proceed { s with pc := .handling { pass with i := pass.i + 1 } }
  /-- the timer ran out -/
  | expire (pass : Pass) (hpc : s.pc = .handling pass) (hi : pass.i < swTimerMaxHandles)
      (callback : TimerCallback) (hcallback : s.handles[pass.i].callback = some callback)
      (hout : s.handles[pass.i].tickCounter ≤ pass.ticksElapsed) :
      Moves s .proceed
        { s with
          handles := s.handles.setIfInBounds pass.i
            (s.handles[pass.i].elapse pass.ticksElapsed).expire
          calls := s.calls ++ [⟨callback, s.handles[pass.i].registeredAt,
            s.handles[pass.i].interval, s.handles[pass.i].oneShot, s.handles[pass.i].fired + 1,
            s.now⟩]
          pc := .calling pass }
  /-- the timer did not run out -/
  | keep (pass : Pass) (hpc : s.pc = .handling pass) (hi : pass.i < swTimerMaxHandles)
      (hcount : (pass.ticksElapsed : ℤ) < s.handles[pass.i].tickCounter) :
      Moves s .proceed
        { s with
          handles := s.handles.setIfInBounds pass.i (s.handles[pass.i].elapse pass.ticksElapsed)
          pc := .rescheduling pass }
  | reschedule (pass : Pass) (hpc : s.pc = .rescheduling pass) (hi : pass.i < swTimerMaxHandles) :
      Moves s .proceed (s.reschedule pass s.handles[pass.i])
  | finish (pass : Pass) (hpc : s.pc = .handling pass) (hi : swTimerMaxHandles ≤ pass.i) :
      Moves s .proceed (s.finishPass pass)
  | leave (caller : Caller) (programmed : Option ℕ) (hpc : s.pc = .returned caller programmed) :
      Moves s .proceed { s with pc := .idle }
  | callbackReturns (pass : Pass) (hpc : s.pc = .calling pass) :
      Moves s .callbackReturns { s with pc := .rescheduling pass }

/-- A pass is running. -/
def Pc.inPass : Pc → Bool
  | .idle | .returned _ _ => false
  | .updating _ | .handling _ | .calling _ | .rescheduling _ => true

/-- A call from outside begins its pass. -/
lemma handleClients_idle {s : Globals} (caller : Caller)
    (hhandling : s.isHandlingClients = s.pc.inPass) (hpc : s.pc = .idle) :
    s.handleClients caller = { s with isHandlingClients := true, pc := .updating caller } := by
  have hfree : s.isHandlingClients = false := by rw [hhandling, hpc]; rfl
  rw [Globals.handleClients, hfree]
  rfl

/-- A call by a callback has no pass. -/
lemma handleClients_calling {s : Globals} {pass : Pass} (caller : Caller)
    (hhandling : s.isHandlingClients = s.pc.inPass) (hpc : s.pc = .calling pass) :
    s.handleClients caller = s := by
  have hbusy : s.isHandlingClients = true := by rw [hhandling, hpc]; rfl
  rw [Globals.handleClients, if_pos hbusy, Globals.returnWithoutPass, if_neg (by simp [hpc])]

lemma moves_of_register {s : Globals} (callback : Option TimerCallback) (intervalUS : UInt32)
    (oneShot : Bool) (hhandling : s.isHandlingClients = s.pc.inPass) (hcallable : s.Callable) :
    Moves s (.register callback intervalUS oneShot)
      (registerOnTimerUS s callback intervalUS oneShot).2 := by
  cases callback with
  | none =>
    simp only [registerOnTimerUS, Globals.returnWithoutPass]
    rcases hcallable with hpc | ⟨pass, hpc⟩
    · rw [if_pos hpc]
      exact Moves.registerNull hpc intervalUS oneShot
    · rw [if_neg (by simp [hpc])]
      exact Moves.stay _
  | some callback =>
    cases hj : slotFor s.handles callback with
    | none =>
      simp only [registerOnTimerUS, Globals.registrationPhase, hj]
      rcases hcallable with hpc | ⟨pass, hpc⟩
      · rw [handleClients_idle .register hhandling hpc]
        exact Moves.update hpc _ .register
      · rw [handleClients_calling .register hhandling hpc]
        exact Moves.stay _
    | some j =>
      simp only [registerOnTimerUS, Globals.registrationPhase, hj]
      rcases hcallable with hpc | ⟨pass, hpc⟩
      · rw [handleClients_idle .register (by exact hhandling) (by exact hpc)]
        exact Moves.register hpc callback intervalUS oneShot j hj
      · rw [handleClients_calling .register (by exact hhandling) (by exact hpc)]
        exact Moves.nested pass hpc callback intervalUS oneShot j hj

lemma moves_of_unRegister (s : Globals) (callback : Option TimerCallback) :
    Moves s (.unRegister callback) (unRegisterFromTimer s callback).2 := by
  cases callback with
  | none => exact Moves.stay _
  | some callback =>
    simp only [unRegisterFromTimer]
    split
    · exact Moves.clear _ _ _ (by simp [CallbackHandle.Active])
    · exact Moves.stay _

lemma moves_of_trigger {s : Globals} (hhandling : s.isHandlingClients = s.pc.inPass)
    (hcallable : s.Callable) : Moves s .trigger (trigger s) := by
  rcases hcallable with hpc | ⟨pass, hpc⟩
  · rw [trigger, handleClients_idle .trigger hhandling hpc]
    exact Moves.update hpc _ .trigger
  · rw [trigger, handleClients_calling .trigger hhandling hpc]
    exact Moves.stay _

lemma moves_of_handleClient {s : Globals} {pass : Pass} (hpc : s.pc = .handling pass)
    (hi : pass.i < swTimerMaxHandles) :
    Moves s .proceed (s.handleClient pass s.handles[pass.i]) := by
  unfold Globals.handleClient
  split
  · next hnone => exact Moves.skip pass hpc hi (by simp [CallbackHandle.Active, hnone])
  · next callback hsome =>
    dsimp only
    split
    · next hout =>
      simp only [CallbackHandle.elapse] at hout
      exact Moves.expire pass hpc hi callback hsome (by omega)
    · next hcount =>
      simp only [CallbackHandle.elapse] at hcount
      exact Moves.keep pass hpc hi (by omega)

lemma moves_of_proceed {s t : Globals} (ht : s.proceed = some t) : Moves s .proceed t := by
  unfold Globals.proceed at ht
  split at ht
  · simp at ht
  · next caller hpc =>
    obtain rfl := Option.some.inj ht
    exact Moves.startPass caller hpc
  · next pass hpc =>
    split at ht <;> obtain rfl := Option.some.inj ht
    · next hi => exact moves_of_handleClient hpc hi
    · next hi => exact Moves.finish pass hpc (by omega)
  · simp at ht
  · next pass hpc =>
    split at ht
    · next hi =>
      obtain rfl := Option.some.inj ht
      exact Moves.reschedule pass hpc hi
    · simp at ht
  · next caller programmed hpc =>
    obtain rfl := Option.some.inj ht
    exact Moves.leave caller programmed hpc

/-- Every step is in the list. -/
lemma moves_of_timerStep {s t : Globals} {a : TimerAction}
    (hhandling : s.isHandlingClients = s.pc.inPass) (ht : timerStep s a = some t) :
    Moves s a t := by
  cases a with
  | elapse ticks =>
    simp only [timerStep] at ht
    split at ht
    · next hfits =>
      obtain rfl := Option.some.inj ht
      exact Moves.elapse ticks hfits
    · simp at ht
  | register callback intervalUS oneShot =>
    simp only [timerStep] at ht
    split at ht
    · next hcallable =>
      obtain rfl := Option.some.inj ht
      exact moves_of_register callback intervalUS oneShot hhandling hcallable
    · simp at ht
  | unRegister callback =>
    simp only [timerStep] at ht
    split at ht
    · obtain rfl := Option.some.inj ht
      exact moves_of_unRegister s callback
    · simp at ht
  | trigger =>
    simp only [timerStep] at ht
    split at ht
    · next hcallable =>
      obtain rfl := Option.some.inj ht
      exact moves_of_trigger hhandling hcallable
    · simp at ht
  | proceed => exact moves_of_proceed ht
  | callbackReturns =>
    simp only [timerStep] at ht
    split at ht
    · next pass hpc =>
      obtain rfl := Option.some.inj ht
      exact Moves.callbackReturns pass hpc
    · simp at ht

/-! ## What all runs keep -/

/-- The pass that has begun its loop. -/
def Pc.pass? : Pc → Option Pass
  | .handling pass | .calling pass | .rescheduling pass => some pass
  | .idle | .updating _ | .returned _ _ => none

/-- The pass that is in the body of its loop. -/
def Pc.body? : Pc → Option Pass
  | .calling pass | .rescheduling pass => some pass
  | .idle | .updating _ | .handling _ | .returned _ _ => none

/-- A pass is running exactly when `isHandlingClients` is set, its next interval is an `int32_t`
that is not negative, and the handle it is at does not count below zero once it is looked at. -/
structure WellFormed (s : Globals) : Prop where
  handling : s.isHandlingClients = s.pc.inPass
  nextInterval : ∀ pass, s.pc.pass? = some pass →
    0 ≤ pass.nextInterval ∧ pass.nextInterval ≤ noInterval
  current : ∀ pass, s.pc.body? = some pass → ∀ hi : pass.i < swTimerMaxHandles,
    s.handles[pass.i].Active → 0 ≤ s.handles[pass.i].tickCounter

lemma toInt32_eq {x : ℤ} (h0 : 0 ≤ x) (hx : x ≤ noInterval) : toInt32 x = x := by
  simp only [noInterval] at hx
  rw [toInt32, Int.bmod_def, Int.emod_eq_of_lt h0 (by omega), if_pos (by omega)]

lemma WellFormed.start : WellFormed timerStart where
  handling := rfl
  nextInterval _ h := nomatch h
  current _ h := nomatch h

/-- A write to a handle that leaves the call where it is. -/
lemma WellFormed.write {s : Globals} (hwf : WellFormed s) (j : ℕ) {h : CallbackHandle}
    (hh : h.Active → 0 ≤ h.tickCounter) :
    WellFormed { s with handles := s.handles.setIfInBounds j h } where
  handling := hwf.handling
  nextInterval := hwf.nextInterval
  current pass hpc hi := by
    simp only [Vector.getElem_setIfInBounds]
    split
    · exact hh
    · exact hwf.current pass hpc hi

lemma expire_tickCounter_nonneg {h : CallbackHandle} (hactive : h.expire.Active) :
    0 ≤ h.expire.tickCounter := by
  unfold CallbackHandle.expire at hactive ⊢
  split
  · next honeShot => simp [honeShot, CallbackHandle.Active] at hactive
  · simp only
    omega

/-- The state between two passes. -/
lemma WellFormed.outside {s : Globals} (hhandling : s.isHandlingClients = s.pc.inPass)
    (hpass : s.pc.pass? = none) : WellFormed s where
  handling := hhandling
  nextInterval pass h := by simp [hpass] at h
  current pass h := by
    have hbody : s.pc.body? = none := by
      cases hpc : s.pc <;> simp_all [Pc.pass?, Pc.body?]
    simp [hbody] at h

/-- The pass is at the head of its loop. -/
lemma WellFormed.head {s : Globals} {pass : Pass} (hhandling : s.isHandlingClients = true)
    (hpc : s.pc = .handling pass) (h0 : 0 ≤ pass.nextInterval)
    (hle : pass.nextInterval ≤ noInterval) : WellFormed s where
  handling := by rw [hhandling, hpc]; rfl
  nextInterval pass' h := by
    rw [hpc] at h
    obtain rfl := Option.some.inj h
    exact ⟨h0, hle⟩
  current pass' h := by
    rw [hpc] at h
    exact nomatch h

/-- The pass is in the body of its loop. -/
lemma WellFormed.body {s : Globals} {pass : Pass} (hhandling : s.isHandlingClients = true)
    (hpc : s.pc = .calling pass ∨ s.pc = .rescheduling pass) (h0 : 0 ≤ pass.nextInterval)
    (hle : pass.nextInterval ≤ noInterval)
    (hcurrent : ∀ hi : pass.i < swTimerMaxHandles, s.handles[pass.i].Active →
      0 ≤ s.handles[pass.i].tickCounter) : WellFormed s where
  handling := by rcases hpc with hpc | hpc <;> rw [hhandling, hpc] <;> rfl
  nextInterval pass' h := by
    rcases hpc with hpc | hpc <;> rw [hpc] at h <;> obtain rfl := Option.some.inj h <;>
      exact ⟨h0, hle⟩
  current pass' h := by
    rcases hpc with hpc | hpc <;> rw [hpc] at h <;> obtain rfl := Option.some.inj h <;>
      exact hcurrent

/-- The smallest interval so far and the count of the handle. -/
lemma reschedule_nextInterval {pass : Pass} {h : CallbackHandle} (h0 : 0 ≤ pass.nextInterval)
    (hle : pass.nextInterval ≤ noInterval) (hcurrent : h.Active → 0 ≤ h.tickCounter) :
    (if h.Active then toInt32 (min pass.nextInterval h.tickCounter) else pass.nextInterval) =
      if h.Active then min pass.nextInterval h.tickCounter else pass.nextInterval := by
  split
  · next hactive =>
    have hcount := hcurrent hactive
    exact toInt32_eq (by omega) (by omega)
  · rfl

lemma WellFormed.step {s t : Globals} {a : TimerAction} (hwf : WellFormed s)
    (ht : timerStep s a = some t) : WellFormed t := by
  have hmoves := moves_of_timerStep hwf.handling ht
  have hbusy : s.pc.inPass = true → s.isHandlingClients = true := fun h => hwf.handling.trans h
  cases hmoves with
  | elapse ticks => exact ⟨hwf.handling, hwf.nextInterval, hwf.current⟩
  | stay a => exact hwf
  | clear a j h hinactive => exact hwf.write j fun hactive => absurd hactive hinactive
  | nested pass hpc callback intervalUS oneShot j hj =>
    exact hwf.write j fun _ => Int.natCast_nonneg _
  | register hpc callback intervalUS oneShot j hj => exact .outside rfl rfl
  | registerNull hpc intervalUS oneShot =>
    exact .outside (by rw [hwf.handling, hpc]; rfl) rfl
  | update hpc a caller => exact .outside rfl rfl
  | startPass caller hpc =>
    exact .head (hbusy (by rw [hpc]; rfl)) rfl (by simp [noInterval]) le_rfl
  | skip pass hpc hi hinactive =>
    obtain ⟨h0, hle⟩ := hwf.nextInterval pass (by rw [hpc]; rfl)
    exact .head (hbusy (by rw [hpc]; rfl)) rfl h0 hle
  | expire pass hpc hi callback hcallback hout =>
    obtain ⟨h0, hle⟩ := hwf.nextInterval pass (by rw [hpc]; rfl)
    refine .body (hbusy (by rw [hpc]; rfl)) (.inl rfl) h0 hle fun hi => ?_
    simp only [Vector.getElem_setIfInBounds_self hi]
    exact expire_tickCounter_nonneg
  | keep pass hpc hi hcount =>
    obtain ⟨h0, hle⟩ := hwf.nextInterval pass (by rw [hpc]; rfl)
    refine .body (hbusy (by rw [hpc]; rfl)) (.inr rfl) h0 hle fun hi _ => ?_
    simp only [Vector.getElem_setIfInBounds_self hi, CallbackHandle.elapse]
    omega
  | reschedule pass hpc hi =>
    obtain ⟨h0, hle⟩ := hwf.nextInterval pass (by rw [hpc]; rfl)
    have hcurrent := hwf.current pass (by rw [hpc]; rfl) hi
    -- the minimum of two `int32_t` that are not negative is one again
    refine .head (hbusy (by rw [hpc]; rfl)) rfl ?_ ?_ <;>
      simp only [reschedule_nextInterval h0 hle hcurrent] <;> split
    · next hactive => have := hcurrent hactive; omega
    · exact h0
    · omega
    · exact hle
  | finish pass hpc hi =>
    unfold Globals.finishPass
    split <;> exact .outside rfl rfl
  | leave caller programmed hpc => exact .outside (by rw [hwf.handling, hpc]; rfl) rfl
  | callbackReturns pass hpc =>
    obtain ⟨h0, hle⟩ := hwf.nextInterval pass (by rw [hpc]; rfl)
    exact .body (hbusy (by rw [hpc]; rfl)) (.inr rfl) h0 hle (hwf.current pass (by rw [hpc]; rfl))

/-! ## What the hardware timer gets and gives -/

/-- Every set-up is for less than `0x7fffffff` ticks, and no more have elapsed than the counter can
tell. -/
structure InRange (s : Globals) : Prop where
  elapsed : s.elapsed ≤ maxTicksElapsed
  programmed : ∀ caller ticks, s.pc = .returned caller (some ticks) → (ticks : ℤ) < noInterval

lemma InRange.start : InRange timerStart where
  elapsed := Nat.zero_le _
  programmed caller ticks hpc := by simp [timerStart] at hpc

lemma minimalTime_lt (caller : Caller) : (caller.minimalTime : ℤ) < noInterval := by
  cases caller <;> decide

/-- The end of a pass, which starts the search at `0x7fffffff` and sets nothing up for that. -/
lemma InRange.finish {s : Globals} (hrange : InRange s) (hwf : WellFormed s) {pass : Pass}
    (hpc : s.pc = .handling pass) : InRange (s.finishPass pass) := by
  obtain ⟨h0, hle⟩ := hwf.nextInterval pass (by rw [hpc]; rfl)
  have hminimal := minimalTime_lt pass.caller
  unfold Globals.finishPass
  split
  · next hnext =>
    refine ⟨Nat.zero_le _, fun caller ticks hpc => ?_⟩
    simp only [Pc.returned.injEq, Option.some.injEq] at hpc
    omega
  · exact ⟨hrange.elapsed, fun caller ticks hpc => by simp at hpc⟩

lemma InRange.step {s t : Globals} {a : TimerAction} (hrange : InRange s) (hwf : WellFormed s)
    (ht : timerStep s a = some t) : InRange t := by
  have hmoves := moves_of_timerStep hwf.handling ht
  cases hmoves with
  | elapse ticks hfits => exact ⟨hfits, hrange.programmed⟩
  | stay a => exact hrange
  | clear | nested => exact ⟨hrange.elapsed, hrange.programmed⟩
  | finish pass hpc hi => exact hrange.finish hwf hpc
  | reschedule pass hpc hi =>
    exact ⟨hrange.elapsed, fun caller ticks hpc => by simp [Globals.reschedule] at hpc⟩
  | startPass caller hpc =>
    exact ⟨hrange.elapsed, fun caller ticks hpc => by simp [Globals.startPass] at hpc⟩
  | _ => exact ⟨hrange.elapsed, fun caller ticks hpc => by simp at hpc⟩

end Powerboard.SwTimer
