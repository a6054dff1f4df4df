import Powerboard.SwTimer.SwTimer

/-!
# The hardware timer

`hwTimer.c`: the counter of the timer counts one for every `TIM_PSC + 1` ticks, and the interrupt comes
when it has counted to `TIM_CCR1`. A number of ticks is split into the two by rounding down, so that
the interrupt comes early, and `swTimer_trigger` sets the timer up for the rest. The interrupt disables
the timer, so that without a set-up there is no other one.
-/

namespace Powerboard.SwTimer

/-! ## The registers -/

/-- The registers that tell the time. -/
structure HwTimer where
  /-- `TIM_CR1_CEN` of `TIM_CR1`: the timer is enabled -/
  cen : Bool
  /-- `TIM_PSC` -/
  psc : UInt32
  /-- `TIM_CCR1` -/
  ccr1 : UInt32
  /-- `TIM_CNT` -/
  cnt : UInt32
  deriving DecidableEq

/-- `hw_timerSetupTimer` -/
def hwTimerSetupTimer (i_ticks : UInt32) : HwTimer :=
  let psc := (i_ticks &&& 0xffff0000) >>> 16
  let arr := i_ticks / (psc + 1)
  { cen := true, psc := psc, ccr1 := if arr > 0xffff then 0xffff else arr, cnt := 0 }

/-- `tim2_isr`, before it calls `swTimer_trigger` -/
def HwTimer.disable (hw : HwTimer) : HwTimer := { hw with cen := false }

/-- `hw_timerGetTicksElapsed` -/
def HwTimer.getTicksElapsed (hw : HwTimer) : UInt32 := (hw.psc + 1) * hw.cnt

/-- The ticks from the set-up to the interrupt. -/
def HwTimer.ticksToInterrupt (hw : HwTimer) : ℕ := (hw.psc.toNat + 1) * hw.ccr1.toNat

/-! ## Software and hardware timer -/

/-- The software timers on the hardware timer. -/
structure TimerLoop where
  timers : Globals
  hw : HwTimer
  /-- the interrupts so far -/
  interrupts : ℕ
  /-- the steps since the last of them -/
  steps : ℕ

inductive LoopAction
  /-- time goes by -/
  | elapse (ticks : ℕ)
  /-- `tim2_isr` -/
  | interrupt
  /-- the next step of `swTimer_trigger` -/
  | proceed

/-- The registers after a step: the call that returns with a set-up has made it. -/
def programHw (hw : HwTimer) (before after : Pc) : HwTimer :=
  match before, after with
  | .handling _, .returned _ (some ticks) => hwTimerSetupTimer (UInt32.ofNat ticks)
  | _, _ => hw

/-- The state after the action. The interrupt comes when the ticks to it have gone by, or later, once
for each set-up. -/
def loopStep (s : TimerLoop) : LoopAction → Option TimerLoop
  | .elapse ticks =>
    (timerStep s.timers (.elapse ticks)).map fun timers => { s with timers := timers }
  | .interrupt =>
    if s.timers.pc = .idle ∧ s.hw.cen = true ∧ s.hw.ticksToInterrupt ≤ s.timers.elapsed then
      some
        { timers := trigger s.timers
          hw := s.hw.disable
          interrupts := s.interrupts + 1
          steps := 0 }
    else none
  | .proceed =>
    s.timers.proceed.map fun timers =>
      { s with
        timers := timers
        hw := programHw s.hw s.timers.pc timers.pc
        steps := s.steps + 1 }

/-- The only timer is in this handle. -/
structure OnlyTimer (j : ℕ) (callback : TimerCallback) (s : Globals) : Prop where
  lt : j < swTimerMaxHandles
  callback : s.handles[j].callback = some callback
  others : ∀ i (hi : i < swTimerMaxHandles), i ≠ j → ¬ s.handles[i].Active

/-- The callback has been called. -/
def Expired (callback : TimerCallback) (s : Globals) : Prop :=
  ∃ call ∈ s.calls, call.callback = callback

/-- The hardware timer is set up, by `swTimer_trigger`, for what is left in the active handles. -/
def SetUpForRest (s : TimerLoop) : Prop :=
  ∀ handle ∈ s.timers.handles, handle.Active →
    s.hw = hwTimerSetupTimer
      (UInt32.ofNat (max handle.tickCounter Caller.trigger.minimalTime).toNat)

/-- `swTimer_trigger` has set the hardware timer up for the count that is left in the only handle. For
`0x7fffffff` ticks it would not. -/
structure SetUp (j : ℕ) (callback : TimerCallback) (s : TimerLoop) : Prop where
  only : OnlyTimer j callback s.timers
  idle : s.timers.pc = .idle
  notHandling : s.timers.isHandlingClients = false
  elapsed : s.timers.elapsed = 0
  interrupts : s.interrupts = 0
  /-- the history begins here -/
  calls : s.timers.calls = []
  left : ∀ handle ∈ s.timers.handles, handle.Active →
    1 ≤ handle.tickCounter ∧ handle.tickCounter < noInterval
  hw : SetUpForRest s

/-- The next step of the call can be made, or, when there is none, the next interrupt comes once
enough time has gone by. -/
def GoesOn (s : TimerLoop) : Prop :=
  if s.timers.pc = .idle then
    ∃ ticks t, Machine.exec loopStep s [.elapse ticks, .interrupt] = some t
  else ∃ t, loopStep s .proceed = some t

end Powerboard.SwTimer
