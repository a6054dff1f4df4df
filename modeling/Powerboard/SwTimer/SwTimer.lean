import Powerboard.Library.Machine

/-!
# Software timers

`swTimer.c`: up to 32 callbacks share one hardware timer. Each handle counts the ticks to its next
call from the last set-up of the hardware timer. A pass over the handles (in a registration and in
`swTimer_trigger`) takes the elapsed ticks from each of them, calls the callbacks whose count ran
out, and sets the hardware timer up for the smallest count that is left.

A callback may itself register and unregister timers. Time goes by between any two steps, so that a
pass is cut at the heads of its loop and around the callbacks. The calls from outside of callbacks
hold the mutex and do not overlap.
-/

namespace Powerboard.SwTimer

/-- `SW_TIMER_MAX_HANDLES` -/
def swTimerMaxHandles : ℕ := 32

/-- `CLOCK_APB_TIMER_CLK` -/
def clockApbTimerClk : ℕ := 48000000

/-- `USECONDS_PER_SECOND` -/
def usecondsPerSecond : ℕ := 1000000

/-- The number of values of a `hw_timerTicks`, which is a `uint32_t`. -/
def ticksModulus : ℕ := 2 ^ 32

/-- `0x7fffffff`, where a pass starts the search for the next interval -/
def noInterval : ℤ := 0x7fffffff

/-- The most that `hw_timerGetTicksElapsed` returns: a set-up is for less than `0x7fffffff` ticks, so
that the prescaler is at most `0x7fff`, and the counter stops at `TIM_ARR`, which is `0xffff`. -/
def maxTicksElapsed : ℕ := (0x7fff + 1) * 0xffff

/-- The conversion to `int32_t` -/
def toInt32 (x : ℤ) : ℤ := x.bmod (2 ^ 32)

/-- `hw_timerGetTicksForInterval_us` -/
def hwTimerGetTicksForIntervalUs (interval : UInt32) : ℕ :=
  interval.toNat * (clockApbTimerClk / usecondsPerSecond) % ticksModulus

/-- A `timerCallback_t` that is not `NULL` -/
abbrev TimerCallback : Type := ℕ

/-- `callbackHandle_t` -/
structure CallbackHandle where
  callback : Option TimerCallback
  interval : ℕ
  tickCounter : ℤ
  oneShot : Bool
  /-- not in the source: the time of the registration that the handle comes from -/
  registeredAt : ℕ
  /-- not in the source: the calls that this registration has caused so far -/
  fired : ℕ
  deriving DecidableEq

namespace CallbackHandle

/-- What `swTimerInit` makes of a handle. -/
def unused : CallbackHandle := ⟨none, 0, 0, false, 0, 0⟩

def Active (h : CallbackHandle) : Prop := h.callback ≠ none

instance (h : CallbackHandle) : Decidable h.Active := inferInstanceAs (Decidable (¬ _))

/-- The handle when the elapsed ticks are taken from it. -/
def elapse (h : CallbackHandle) (ticksElapsed : ℕ) : CallbackHandle :=
  { h with tickCounter := h.tickCounter - ticksElapsed }

/-- The handle of a timer that ran out, before its callback is called. -/
def expire (h : CallbackHandle) : CallbackHandle :=
  if h.oneShot then { h with callback := none, fired := h.fired + 1 }
  else
    { h with
      tickCounter := min (max (h.tickCounter + h.interval) 0) h.interval
      fired := h.fired + 1 }

end CallbackHandle

/-- A call of a timer's callback, with the registration that causes it, and its number among the
calls that this registration causes. -/
structure TimerCall where
  callback : TimerCallback
  registeredAt : ℕ
  interval : ℕ
  oneShot : Bool
  number : ℕ
  time : ℕ
  deriving DecidableEq

/-- The two functions that pass over the handles -/
inductive Caller
  | register
  | trigger
  deriving DecidableEq

/-- "just some minimal time": the hardware timer is not set up for less. -/
def Caller.minimalTime : Caller → ℕ
  | register => 4
  | trigger => 40

/-- The local variables of a pass. -/
structure Pass where
  caller : Caller
  i : ℕ
  ticksElapsed : ℕ
  /-- an `int32_t` -/
  nextInterval : ℤ
  deriving DecidableEq

/-- Where the call of `swTimer_registerOnTimerUS` or `swTimer_trigger` is that was not made by a
callback. -/
inductive Pc
  /-- there is none -/
  | idle
  /-- it will read the elapsed ticks -/
  | updating (caller : Caller)
  /-- at the head of the loop over the handles -/
  | handling (pass : Pass)
  /-- the callback of the handle runs -/
  | calling (pass : Pass)
  /-- before "reschedule?" of the handle -/
  | rescheduling (pass : Pass)
  /-- it returns, and has set up the hardware timer for so many ticks, if it has -/
  | returned (caller : Caller) (programmed : Option ℕ)
  deriving DecidableEq

/-- The globals of `swTimer.c` and the hardware timer. -/
structure Globals where
  /-- `g_swTimerHandles` -/
  handles : Vector CallbackHandle swTimerMaxHandles
  isHandlingClients : Bool
  pc : Pc
  /-- what `hw_timerGetTicksElapsed` returns: the ticks since the last `hw_timerSetupTimer` -/
  elapsed : ℕ
  /-- the ticks since the start -/
  now : ℕ
  /-- the calls of callbacks so far -/
  calls : List TimerCall

/-! ## The functions -/

/-- The search of the registration phase: the handle of the callback, or else the first free one. -/
def searchHandle (callback : TimerCallback) : List CallbackHandle → ℕ → Option ℕ → Option ℕ
  | [], _, freeSlot => freeSlot
  | h :: hs, i, freeSlot =>
    if freeSlot = none ∧ h.callback = none then searchHandle callback hs (i + 1) (some i)
    else if h.callback = some callback then some i
    else searchHandle callback hs (i + 1) freeSlot

/-- The handle that a registration of the callback gets. -/
def slotFor (handles : Vector CallbackHandle swTimerMaxHandles) (callback : TimerCallback) :
    Option ℕ :=
  searchHandle callback handles.toList 0 none

/-- `ticksToSet + startTime`, a sum of two `uint32_t` -/
def startCounter (ticksToSet startTime : ℕ) : ℕ := (ticksToSet + startTime) % ticksModulus

namespace Globals

/-- The handle as a registration fills it. -/
def newHandle (s : Globals) (callback : TimerCallback) (ticksToSet : ℕ) (oneShot : Bool) :
    CallbackHandle :=
  { callback := some callback
    interval := ticksToSet
    tickCounter := startCounter ticksToSet s.elapsed
    oneShot := oneShot
    registeredAt := s.now
    fired := 0 }

/-- The registration phase, with what it returns. -/
def registrationPhase (s : Globals) (callback : TimerCallback) (ticksToSet : ℕ) (oneShot : Bool) :
    Bool × Globals :=
  match slotFor s.handles callback with
  | some j =>
    let handle := s.newHandle callback ticksToSet oneShot
    (true, { s with handles := s.handles.setIfInBounds j handle })
  | none => (false, s)

/-- A call ends without a pass. The call of a callback goes back to the callback. -/
def returnWithoutPass (s : Globals) (caller : Caller) : Globals :=
  if s.pc = .idle then { s with pc := .returned caller none } else s

/-- A pass begins, if none is running. -/
def handleClients (s : Globals) (caller : Caller) : Globals :=
  if s.isHandlingClients then s.returnWithoutPass caller
  else { s with isHandlingClients := true, pc := .updating caller }

/-- The pass reads the elapsed ticks. -/
def startPass (s : Globals) (caller : Caller) : Globals :=
  { s with pc := .handling ⟨caller, 0, s.elapsed, noInterval⟩ }

/-- The body of the loop up to the callback, or up to "reschedule?" when the timer did not run
out. -/
def handleClient (s : Globals) (pass : Pass) (handle : CallbackHandle) : Globals :=
  match handle.callback with
  | none => { s with pc := .handling { pass with i := pass.i + 1 } }
  | some callback =>
    let handle := handle.elapse pass.ticksElapsed
    if handle.tickCounter ≤ 0 then
      let call : TimerCall :=
        ⟨callback, handle.registeredAt, handle.interval, handle.oneShot, handle.fired + 1, s.now⟩
      { s with
        handles := s.handles.setIfInBounds pass.i handle.expire
        calls := s.calls ++ [call]
        pc := .calling pass }
    else
      { s with
        handles := s.handles.setIfInBounds pass.i handle
        pc := .rescheduling pass }

/-- "reschedule?" -/
def reschedule (s : Globals) (pass : Pass) (handle : CallbackHandle) : Globals :=
  let nextInterval :=
    if handle.Active then toInt32 (min pass.nextInterval handle.tickCounter)
    else pass.nextInterval
  { s with pc := .handling { pass with i := pass.i + 1, nextInterval := nextInterval } }

/-- The end of the pass: "setup HW timer". -/
def finishPass (s : Globals) (pass : Pass) : Globals :=
  if pass.nextInterval ≠ noInterval then
    let nextInterval := max pass.nextInterval pass.caller.minimalTime
    { s with
      isHandlingClients := false
      elapsed := 0
      pc := .returned pass.caller (some nextInterval.toNat) }
  else { s with isHandlingClients := false, pc := .returned pass.caller none }

/-- A step of a call that is not made by a callback. -/
def proceed (s : Globals) : Option Globals :=
  match s.pc with
  | .idle => none
  | .updating caller => some (s.startPass caller)
  | .handling pass =>
    if h : pass.i < swTimerMaxHandles then some (s.handleClient pass s.handles[pass.i])
    else some (s.finishPass pass)
  | .calling _ => none
  | .rescheduling pass =>
    if h : pass.i < swTimerMaxHandles then some (s.reschedule pass s.handles[pass.i]) else none
  | .returned _ _ => some { s with pc := .idle }

/-- Calls can be made: by a callback, or when no other call runs. -/
def Callable (s : Globals) : Prop := s.pc = .idle ∨ ∃ pass, s.pc = .calling pass

instance (s : Globals) : Decidable s.Callable :=
  match hpc : s.pc with
  | .idle => isTrue (.inl hpc)
  | .calling pass => isTrue (.inr ⟨pass, hpc⟩)
  | .updating _ | .handling _ | .rescheduling _ | .returned _ _ =>
    isFalse fun h => by rcases h with h | ⟨_, h⟩ <;> simp [hpc] at h

end Globals

/-- `swTimer_registerOnTimerUS`, up to the pass, with what it returns. -/
def registerOnTimerUS (s : Globals) (callback : Option TimerCallback) (intervalUS : UInt32)
    (oneShot : Bool) : Bool × Globals :=
  match callback with
  | none => (false, s.returnWithoutPass .register)
  | some callback =>
    let ticksToSet := hwTimerGetTicksForIntervalUs intervalUS
    let (ret, s) := s.registrationPhase callback ticksToSet oneShot
    (ret, s.handleClients .register)

/-- `MICROSECONDS_PER_MILLISECOND` -/
def microsecondsPerMillisecond : UInt32 := 1000

/-- `swTimer_registerOnTimer`, up to the pass. The product is one of two `uint32_t`. -/
def registerOnTimer (s : Globals) (callback : Option TimerCallback) (intervalInMS : UInt32)
    (oneShot : Bool) : Bool × Globals :=
  registerOnTimerUS s callback (intervalInMS * microsecondsPerMillisecond) oneShot

/-- `swTimer_unRegisterFromTimer` -/
def unRegisterFromTimer (s : Globals) (callback : Option TimerCallback) : Bool × Globals :=
  match callback with
  | none => (false, s)
  | some callback =>
    match s.handles.findFinIdx? (·.callback = some callback) with
    | some j =>
      let handle := { s.handles[j] with callback := none }
      (true, { s with handles := s.handles.setIfInBounds j handle })
    | none => (false, s)

/-- `swTimer_trigger`, up to the pass. -/
def trigger (s : Globals) : Globals := s.handleClients .trigger

/-! ## The machine -/

inductive TimerAction
  /-- time goes by -/
  | elapse (ticks : ℕ)
  | register (callback : Option TimerCallback) (intervalUS : UInt32) (oneShot : Bool)
  | unRegister (callback : Option TimerCallback)
  | trigger
  /-- the next step of a call -/
  | proceed
  /-- the callback that runs returns -/
  | callbackReturns

/-- The state after the action. Between two set-ups no more ticks go by than the counter of the
hardware timer can tell. -/
def timerStep (s : Globals) : TimerAction → Option Globals
  | .elapse ticks =>
    if s.elapsed + ticks ≤ maxTicksElapsed then
      some { s with elapsed := s.elapsed + ticks, now := s.now + ticks }
    else none
  | .register callback intervalUS oneShot =>
    if s.Callable then some (registerOnTimerUS s callback intervalUS oneShot).2 else none
  | .unRegister callback => if s.Callable then some (unRegisterFromTimer s callback).2 else none
  | .trigger => if s.Callable then some (SwTimer.trigger s) else none
  | .proceed => s.proceed
  | .callbackReturns =>
    match s.pc with
    | .calling pass => some { s with pc := .rescheduling pass }
    | _ => none

/-- The state after `swTimerInit`. -/
def timerStart : Globals :=
  { handles := Vector.replicate swTimerMaxHandles .unused
    isHandlingClients := false
    pc := .idle
    elapsed := 0
    now := 0
    calls := [] }

/-! ## What the timers should keep -/

/-- Every active handle counts at most its interval, and when there is one, the hardware timer is
set up for at most the minimal time or the smallest count. -/
structure Armed (s : Globals) (caller : Caller) (programmed : Option ℕ) : Prop where
  counters : ∀ h ∈ s.handles, h.Active → h.tickCounter ≤ h.interval
  programmed : ∀ h ∈ s.handles, h.Active →
    ∃ ticks, programmed = some ticks ∧ (ticks : ℤ) ≤ max (caller.minimalTime : ℤ) h.tickCounter

/-- When a call returns, the timers are armed. -/
def ArmedOnReturn (s : Globals) : Prop :=
  ∀ caller programmed, s.pc = .returned caller programmed → Armed s caller programmed

/-- The action registers nothing for `0x7fffffff` ticks or more. -/
def IntervalBelow : TimerAction → Prop
  | .register _ intervalUS _ => (hwTimerGetTicksForIntervalUs intervalUS : ℤ) < noInterval
  | _ => True

/-- The pass does with a timer that its callback registers what it would do with one registered
before. In a handle still to be visited, it takes off again the elapsed ticks that were added; in
the handle it is at, or one that it has visited, none may be added; and in one that it has visited,
there has to be a small enough next interval already. -/
def PlacedSafely (s : Globals) (pass : Pass) (callback : TimerCallback) (ticksToSet : ℕ) : Prop :=
  ∀ j ∈ slotFor s.handles callback,
    if pass.i < j then startCounter ticksToSet s.elapsed ≤ ticksToSet + pass.ticksElapsed
    else startCounter ticksToSet s.elapsed ≤ ticksToSet ∧
      (j < pass.i →
        pass.nextInterval ≤ max (pass.caller.minimalTime : ℤ) (startCounter ticksToSet s.elapsed))

/-- If a callback registers a timer, then in a place where it is handled as if it were registered
from outside. A registration from outside is one of `NULL` only while there is no timer. -/
def NestedSafe (s : Globals) : TimerAction → Prop
  | .register callback intervalUS _ =>
    match s.pc, callback with
    | .idle, callback => callback = none → ∀ h ∈ s.handles, ¬ h.Active
    | .calling pass, some callback =>
      PlacedSafely s pass callback (hwTimerGetTicksForIntervalUs intervalUS)
    | _, _ => True
  | _ => True

instance : (a : TimerAction) → Decidable (IntervalBelow a)
  | .register _ _ _ => inferInstanceAs (Decidable (_ < _))
  | .elapse _ | .unRegister _ | .trigger | .proceed | .callbackReturns => isTrue trivial

instance (s : Globals) (pass : Pass) (callback : TimerCallback) (ticksToSet : ℕ) :
    Decidable (PlacedSafely s pass callback ticksToSet) :=
  inferInstanceAs (Decidable (∀ j ∈ slotFor s.handles callback, _))

instance (s : Globals) : (a : TimerAction) → Decidable (NestedSafe s a)
  | .register callback intervalUS _ =>
    match hpc : s.pc, callback with
    | .idle, callback =>
      decidable_of_iff (callback = none → ∀ h ∈ s.handles.toList, ¬ h.Active)
        (by simp [NestedSafe, hpc])
    | .calling pass, some callback =>
      decidable_of_iff (PlacedSafely s pass callback (hwTimerGetTicksForIntervalUs intervalUS))
        (by simp [NestedSafe, hpc])
    | .calling _, none | .updating _, _ | .handling _, _ | .rescheduling _, _ | .returned _ _, _ =>
      isTrue (by simp [NestedSafe, hpc])
  | .elapse _ | .unRegister _ | .trigger | .proceed | .callbackReturns => isTrue trivial

/-- No active handle counts `0x7fffffff` ticks or more. -/
def BelowNoInterval (s : Globals) : Prop :=
  ∀ h ∈ s.handles, h.Active → h.tickCounter < noInterval

/-- No call came early: the `k`-th call of a registration for `T` ticks comes at least `k * T` ticks
after it, and a one-shot timer is called once only. -/
def NeverEarly (s : Globals) : Prop :=
  ∀ call ∈ s.calls, call.registeredAt + call.number * call.interval ≤ call.time ∧
    (call.oneShot → call.number = 1)

/-- The action registers nothing for more than a second. -/
def AtMostOneSecond : TimerAction → Prop
  | .register _ intervalUS _ => intervalUS.toNat ≤ usecondsPerSecond
  | _ => True

/-- The requested time of one of the two calls. -/
inductive TimerRequest
  | ms (intervalInMS : UInt32)
  | us (intervalUS : UInt32)

/-- The requested time in ticks. -/
def TimerRequest.ticks : TimerRequest → ℕ
  | ms intervalInMS => intervalInMS.toNat * 1000 * (clockApbTimerClk / usecondsPerSecond)
  | us intervalUS => intervalUS.toNat * (clockApbTimerClk / usecondsPerSecond)

/-- The call. -/
def TimerRequest.register (s : Globals) (callback : Option TimerCallback) (oneShot : Bool) :
    TimerRequest → Bool × Globals
  | ms intervalInMS => registerOnTimer s callback intervalInMS oneShot
  | us intervalUS => registerOnTimerUS s callback intervalUS oneShot

/-- A registration that succeeds writes the requested ticks into the callback's handle and nothing
into another one, and when a `hw_timerTicks` cannot be the requested ticks, it does not succeed and
writes nothing. -/
structure StoresRequested (s : Globals) (callback : Option TimerCallback) (request : TimerRequest)
    (result : Bool × Globals) : Prop where
  stored : result.1 = true → ∃ c ∈ callback, ∃ j ∈ slotFor s.handles c,
    (∀ i (hi : i < swTimerMaxHandles), i ≠ j → result.2.handles[i] = s.handles[i]) ∧
      ∃ hj : j < swTimerMaxHandles,
        result.2.handles[j].callback = some c ∧ result.2.handles[j].interval = request.ticks ∧
        result.2.handles[j].tickCounter = request.ticks + s.elapsed
  refused : ticksModulus ≤ request.ticks → result.1 = false ∧ result.2.handles = s.handles

/-- There is a handle to fill, and what is to be stored in it is below `2 ^ 32`. -/
def RequestFits (s : Globals) (callback : Option TimerCallback) (request : TimerRequest) : Prop :=
  ∀ c ∈ callback, slotFor s.handles c ≠ none → request.ticks + s.elapsed < ticksModulus

instance (s : Globals) : Decidable (BelowNoInterval s) :=
  decidable_of_iff (∀ h ∈ s.handles.toList, h.Active → h.tickCounter < noInterval)
    (by simp [BelowNoInterval])

instance : (a : TimerAction) → Decidable (AtMostOneSecond a)
  | .register _ _ _ => inferInstanceAs (Decidable (_ ≤ _))
  | .elapse _ | .unRegister _ | .trigger | .proceed | .callbackReturns => isTrue trivial

end Powerboard.SwTimer
