import Powerboard.Gpio.Gpio
import Powerboard.Library.Machine

/-!
# The motor switch

`motorPwr.c` with the dispatch of `gpio_interrupts.c`: the switch is an open-drain pin that the board
and the user pull low; every edge of it interrupts, the handler masks the line and starts a timer of
10 ms, and when the timer runs out the level is read and posted and the line unmasked.

The pin changes at any time, so the handler and the timer callback are cut at every access to the
pin and to `EXTI_IMR` and `EXTI_PR`. They do not preempt one another: the handlers have one
priority, and the timer callback runs with the mutex locked. The main program waits for both.
-/

namespace Powerboard.MotorPwr

open Gpio

/-- The number of `MOTOR_POWER_SWITCH_PIN` in `GPIOB`, and of its interrupt line -/
def switchLine : ℕ := 2

/-- `MOTOR_POWER_SWITCH_PIN` -/
def motorPowerSwitchPin : BitVec 16 := 1#16 <<< switchLine

/-- The line in `EXTI_IMR` and `EXTI_PR` -/
def extiPin : BitVec 32 := 1#32 <<< switchLine

/-- Where the handler or the timer callback is -/
inductive Pc
  /-- in neither -/
  | idle
  /-- in `onMotorPwrChange`, before `swTimer_registerOnTimer` -/
  | changed
  /-- in `gpio_disable_interrupt`, before the write to `EXTI_IMR` -/
  | disable
  /-- in `gpio_disable_interrupt`, before the write to `EXTI_PR` -/
  | disabled
  /-- back in `dispatchInterrupt`, before its write to `EXTI_PR` -/
  | dispatched
  /-- in `onDebounceTimer`, with `motorPwrState` read -/
  | read (motorPwrState : Bool)
  /-- in `gpio_enable_interrupt`, before the write to `EXTI_PR` -/
  | posted
  /-- in `gpio_enable_interrupt`, before the write to `EXTI_IMR` -/
  | cleared
  deriving DecidableEq

structure State where
  /-- `GPIOB_ODR` -/
  odr : BitVec 32
  /-- whether the user leaves the pin high -/
  released : Bool
  extiImr : BitVec 32
  extiPr : BitVec 32
  /-- whether `onDebounceTimer` is registered on a timer -/
  timer : Bool
  /-- the last state posted as `MSG_ID_USER_MOTOR_SWITCH`; before the first, that of the start -/
  reported : Bool
  pc : Pc

/-- The level of the pin: low if the board or the user pulls it low. -/
def State.level (s : State) : Bool := s.odr.getLsbD switchLine && s.released

/-- `gpio_get` of the pin, not zero -/
def State.gpioGetSwitch (s : State) : Bool :=
  gpioGet ((BitVec.ofBool s.level).setWidth 32 <<< switchLine) motorPowerSwitchPin ≠ 0#16

def State.unmasked (s : State) : Bool := s.extiImr.getLsbD switchLine

def State.pending (s : State) : Bool := s.extiPr.getLsbD switchLine

/-- A change of what pulls the pin. Both edges are trigger edges. -/
def State.drive (s : State) (odr : BitVec 32) (released : Bool) : State :=
  let t := { s with odr := odr, released := released }
  if t.level = s.level then t else { t with extiPr := t.extiPr ||| extiPin }

/-- `setMotorPower` -/
def setMotorPower (s : State) (packet : List UInt8) : State :=
  match packet with
  | [] => s
  | value :: _ =>
    if value = 0 then s.drive (gpioSet s.odr motorPowerSwitchPin) s.released
    else s.drive (gpioClear s.odr motorPowerSwitchPin) s.released

inductive Action
  /-- the user moves the switch -/
  | user (released : Bool)
  /-- a packet for the endpoint -/
  | setMotorPower (packet : List UInt8)
  /-- `exti2_3_isr` finds the line pending -/
  | interrupt
  /-- the timer runs out -/
  | timeout
  /-- the next access of the handler or the callback; `success` is what `swTimer_registerOnTimer` or
  `msgPump_postMessage` returns -/
  | next (success : Bool)
  deriving DecidableEq

/-- The next access of the handler or the callback. -/
def advance (s : State) (success : Bool) : Option State :=
  match s.pc with
  | .idle => none
  | .changed => some { s with timer := s.timer || success, pc := .disable }
  | .disable => some { s with extiImr := s.extiImr &&& ~~~extiPin, pc := .disabled }
  | .disabled => some { s with extiPr := s.extiPr &&& ~~~extiPin, pc := .dispatched }
  | .dispatched => some { s with extiPr := s.extiPr &&& ~~~extiPin, pc := .idle }
  | .read motorPwrState =>
    some { s with reported := if success then motorPwrState else s.reported, pc := .posted }
  | .posted => some { s with extiPr := s.extiPr &&& ~~~extiPin, pc := .cleared }
  | .cleared => some { s with extiImr := s.extiImr ||| extiPin, pc := .idle }

def step (s : State) : Action → Option State
  | .user released => some (s.drive s.odr released)
  | .setMotorPower packet => if s.pc = .idle then some (setMotorPower s packet) else none
  | .interrupt =>
    if s.pc = .idle ∧ s.unmasked ∧ s.pending then some { s with pc := .changed } else none
  | .timeout =>
    -- the timer is one-shot: it is not registered any more when it calls
    if s.pc = .idle ∧ s.timer then
      some { s with timer := false, pc := .read s.gpioGetSwitch }
    else none
  | .next success => advance s success

/-- After `init_motorPWR`, with the switch as it is then. -/
def initial (released : Bool) : State :=
  { odr := motorPowerSwitchPin.setWidth 32
    released := released
    extiImr := extiPin
    extiPr := 0
    timer := false
    reported := released
    pc := .idle }

/-! ## What should hold -/

/-- Something is to come that reads the pin again: an edge if the line stays unmasked, the timer, or
the rest of the callback, which unmasks the line. -/
def Listening (s : State) : Prop :=
  match s.pc with
  | .idle | .changed => s.unmasked ∨ s.timer
  | .disable | .disabled | .dispatched => s.timer
  | .read _ | .posted | .cleared => True

/-- The registration of the timer succeeds. -/
def Registers (s : State) (a : Action) : Prop :=
  s.pc = .changed → a ≠ .next false

instance (s : State) : DecidablePred (Registers s) := fun _ =>
  inferInstanceAs (Decidable (_ → _))

/-- The line waits for an edge, and none is pending. -/
def AtRest (s : State) : Prop := s.pc = .idle ∧ s.unmasked = true ∧ s.pending = false

/-- The callback is between its `gpio_get` and its write to `EXTI_PR`. -/
def Pc.reads : Pc → Bool
  | .read _ | .posted => true
  | _ => false

/-- The post succeeds, and the pin keeps its level while the callback has read it and has not yet
cleared what is pending. -/
def ReadsSafely (s : State) (a : Action) : Prop :=
  (∀ motorPwrState, s.pc = .read motorPwrState → a ≠ .next false) ∧
  (s.pc.reads = true → ∀ released, a = .user released → (s.drive s.odr released).level = s.level)

instance (s : State) (a : Action) : Decidable (ReadsSafely s a) :=
  inferInstanceAs (Decidable (_ ∧ _))

end Powerboard.MotorPwr
