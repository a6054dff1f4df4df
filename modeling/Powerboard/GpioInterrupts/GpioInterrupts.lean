import Powerboard.Gpio.Gpio

/-!
# Pin interrupts

`gpio_interrupts.c`: every pin number below 16 is an interrupt line with one handle. A registration
connects the line to a port (`SYSCFG_EXTICR`), sets its trigger edges (`EXTI_RTSR`, `EXTI_FTSR`) and
stores the callback; the line is masked and unmasked in `EXTI_IMR`. Pins are given as masks.
-/

namespace Powerboard.GpioInterrupts

open Registers

/-- `GPIO_MAX_PIN` -/
def gpioMaxPin : ℕ := 16

/-- A `gpio_interruptCallback` that is not `NULL` -/
abbrev InterruptCallback : Type := ℕ

/-- `gpioInterruptInfo_t`; the info is an address. -/
structure GpioInterruptInfo where
  callback : Option InterruptCallback
  info : Option ℕ
  deriving DecidableEq

/-! ## Ports -/

/-- The ports, `GPIOA` to `GPIOF` -/
inductive Port
  | gpioa
  | gpiob
  | gpioc
  | gpiod
  | gpioe
  | gpiof
  deriving DecidableEq

/-- `GPIO_PORT_A_BASE` to `GPIO_PORT_F_BASE`, which the `gpioPort_t` of a port is -/
def Port.base : Port → BitVec 32
  | .gpioa => 0x48000000#32
  | .gpiob => 0x48000400#32
  | .gpioc => 0x48000800#32
  | .gpiod => 0x48000c00#32
  | .gpioe => 0x48001000#32
  | .gpiof => 0x48001400#32

/-- `(port - GPIOA) / (GPIOB - GPIOA)` as a `uint8_t` -/
def portIdx (port : Port) : BitVec 8 :=
  ((port.base - Port.gpioa.base) / (Port.gpiob.base - Port.gpioa.base)).setWidth 8

/-! ## The handles and the registers -/

/-- `g_interruptHandles` and the registers that the functions write -/
structure GpioState where
  interruptHandles : Vector GpioInterruptInfo gpioMaxPin
  /-- `SYSCFG_EXTICR1` to `SYSCFG_EXTICR4` -/
  syscfgExticr : Vector (BitVec 32) 4
  extiRtsr : BitVec 32
  extiFtsr : BitVec 32
  extiImr : BitVec 32
  /-- A 1 written to a bit of `EXTI_PR` clears it. -/
  extiPr : BitVec 32
  rccAhbenr : BitVec 32
  rccApb2enr : BitVec 32
  gpio : Port → Gpio.PortRegisters
  /-- the enabled interrupts, where `NVIC_ISER` adds one -/
  nvicEnabled : BitVec 32

/-! ## What the functions call -/

/-- `gpio_mode_setup` -/
def gpioModeSetup (s : GpioState) (port : Port) (mode pullUpDown : BitVec 8) (gpios : BitVec 16) :
    GpioState :=
  { s with
    gpio := Function.update s.gpio port (Gpio.gpioModeSetup (s.gpio port) mode pullUpDown gpios) }

/-- `nvic_enable_irq` -/
def nvicEnableIrq (s : GpioState) (irqn : ℕ) : GpioState :=
  { s with nvicEnabled := s.nvicEnabled ||| 1#32 <<< irqn }

/-- `NVIC_EXTI0_1_IRQ`, `NVIC_EXTI2_3_IRQ` and `NVIC_EXTI4_15_IRQ` -/
def interruptOfLine (pinIdx : ℕ) : ℕ :=
  if pinIdx < 2 then 5 else if pinIdx < 4 then 6 else 7

/-- `GPIO_TRIGGER_LEVEL_RISING` -/
def triggerLevelRising : BitVec 32 := 1#32

/-- `GPIO_TRIGGER_LEVEL_FALLING` -/
def triggerLevelFalling : BitVec 32 := 2#32

/-! ## The functions -/

/-- The loop of both functions that searches the lowest pin of a mask; it ends at 32 when there is
none. -/
def pinIdx (pin : BitVec 32) : ℕ :=
  ((List.range 32).find? fun i => pin &&& (1#32 <<< i) ≠ 0#32).getD 32

/-- `EXTI_RTSR` or `EXTI_FTSR` after a registration -/
def triggerOn (enabled : Bool) (pin reg : BitVec 32) : BitVec 32 :=
  if enabled then reg ||| pin else reg &&& ~~~pin

/-- The selection of the port of a line -/
def connectLine (exticr : Vector (BitVec 32) 4) (line : Fin gpioMaxPin) (port : Port) :
    Vector (BitVec 32) 4 :=
  have hline : line.val < 16 := line.isLt
  have hindex : line.val / 4 < 4 := by omega
  exticr.set (line.val / 4)
    (replaceField 0xf#32 ((portIdx port).setWidth 32) (line.val % 4 * 4) exticr[line.val / 4])

/-- `gpio_registerFor_interrupt` once the handle is found and free -/
def takeLine (s : GpioState) (line : Fin gpioMaxPin) (callback : Option InterruptCallback)
    (port : Port) (pin triggerLevel : BitVec 32) (info : Option ℕ) : GpioState :=
  let s := { s with rccAhbenr := s.rccAhbenr ||| port.base }
  let s := gpioModeSetup s port 0#8 0#8 (pin.setWidth 16)
  let s := { s with
    interruptHandles := s.interruptHandles.set line { callback := callback, info := info } }
  let s := { s with syscfgExticr := connectLine s.syscfgExticr line port }
  let s := { s with
    extiRtsr := triggerOn (triggerLevel &&& triggerLevelRising ≠ 0#32) pin s.extiRtsr
    extiFtsr := triggerOn (triggerLevel &&& triggerLevelFalling ≠ 0#32) pin s.extiFtsr }
  nvicEnableIrq s (interruptOfLine line)

/-- `gpio_registerFor_interrupt`. There is no state after it if it uses a handle behind
`g_interruptHandles`. -/
def gpioRegisterForInterrupt (s : GpioState) (callback : Option InterruptCallback) (port : Port)
    (pin triggerLevel : BitVec 32) (info : Option ℕ) : Option GpioState :=
  -- the mask becomes its lowest pin, and stays as it is when the loop finds none
  let onePin := if pinIdx pin < 32 then 1#32 <<< pinIdx pin else pin
  if (portIdx port).toNat < gpioMaxPin then
    if hline : pinIdx pin < gpioMaxPin then
      let handle := s.interruptHandles[pinIdx pin]
      if handle.callback = none ∨ callback = handle.callback then
        some (takeLine s ⟨pinIdx pin, hline⟩ callback port onePin triggerLevel info)
      else some s
    else none
  else some s

/-- `gpio_enable_interrupt` -/
def gpioEnableInterrupt (s : GpioState) (_port : Port) (pin : BitVec 32) : GpioState :=
  { s with extiPr := s.extiPr &&& ~~~pin, extiImr := s.extiImr ||| pin }

/-- `gpio_disable_interrupt` -/
def gpioDisableInterrupt (s : GpioState) (_port : Port) (pin : BitVec 32) : GpioState :=
  { s with extiImr := s.extiImr &&& ~~~pin, extiPr := s.extiPr &&& ~~~pin }

/-- `gpio_unregisterFor_interrupt` once the handle is found; the mask has all its pins here. -/
def releaseLine (s : GpioState) (line : Fin gpioMaxPin) (port : Port) (pin : BitVec 32) :
    GpioState :=
  let s := { s with
    interruptHandles := s.interruptHandles.set line { callback := none, info := none } }
  let s := gpioDisableInterrupt s port pin
  { s with extiRtsr := s.extiRtsr &&& ~~~pin, extiFtsr := s.extiFtsr &&& ~~~pin }

/-- `gpio_unregisterFor_interrupt` -/
def gpioUnregisterForInterrupt (s : GpioState) (callback : Option InterruptCallback) (port : Port)
    (pin : BitVec 32) : GpioState :=
  if hline : pinIdx pin < gpioMaxPin then
    let handle := s.interruptHandles[pinIdx pin]
    if callback = handle.callback then releaseLine s ⟨pinIdx pin, hline⟩ port pin else s
  else s

/-- `gpio_interrupts_init` -/
def gpioInterruptsInit (s : GpioState) : GpioState :=
  { s with
    rccApb2enr := s.rccApb2enr ||| 1#32
    interruptHandles := Vector.replicate gpioMaxPin { callback := none, info := none } }

/-! ## Calls -/

/-- A call of one of the functions -/
inductive GpioCall
  | registerFor (callback : Option InterruptCallback) (port : Port) (pin triggerLevel : BitVec 32)
    (info : Option ℕ)
  | unregisterFor (callback : Option InterruptCallback) (port : Port) (pin : BitVec 32)
  | enable (port : Port) (pin : BitVec 32)
  | disable (port : Port) (pin : BitVec 32)

/-- The state after a call, if it keeps to `g_interruptHandles`. -/
def gpioStep (s : GpioState) : GpioCall → Option GpioState
  | .registerFor callback port pin triggerLevel info =>
    gpioRegisterForInterrupt s callback port pin triggerLevel info
  | .unregisterFor callback port pin => some (gpioUnregisterForInterrupt s callback port pin)
  | .enable port pin => some (gpioEnableInterrupt s port pin)
  | .disable port pin => some (gpioDisableInterrupt s port pin)

/-! ## Lines -/

/-- What belongs to one line: its handle, its bits in the trigger and mask registers and its four
bits of the port selection. -/
structure Line where
  handle : Option GpioInterruptInfo
  rising : Bool
  falling : Bool
  unmasked : Bool
  portSelection : Option (BitVec 4)
  deriving DecidableEq

/-- Line `j`. A line from 16 on has no handle and no port selection. -/
def GpioState.line (s : GpioState) (j : ℕ) : Line where
  handle := s.interruptHandles[j]?
  rising := s.extiRtsr.getLsbD j
  falling := s.extiFtsr.getLsbD j
  unmasked := s.extiImr.getLsbD j
  portSelection := s.syscfgExticr[j / 4]?.map (·.extractLsb' (j % 4 * 4) 4)

/-- The handle of a line has a callback other than this one. -/
def Line.BelongsToOther (line : Line) (callback : Option InterruptCallback) : Prop :=
  ∃ handle, line.handle = some handle ∧ handle.callback ≠ none ∧ handle.callback ≠ callback

/-- Pin `i` is the lowest of the mask. -/
def LowestPin (pin : BitVec 32) (i : ℕ) : Prop :=
  pin.getLsbD i = true ∧ ∀ j < i, pin.getLsbD j = false

/-- What a call with this callback and this mask may do: nothing if the mask has no pin below 16,
else something to the line of its lowest pin, if this line does not belong to another callback. -/
structure KeepsOtherLines (callback : Option InterruptCallback) (pin : BitVec 32)
    (s t : GpioState) : Prop where
  refused : (∀ i < gpioMaxPin, pin.getLsbD i = false) → t = s
  other_line : ∀ j, ¬LowestPin pin j → t.line j = s.line j
  other_callback : ∀ j, (s.line j).BelongsToOther callback → t.line j = s.line j

/-- A registration or its removal uses no handle behind `g_interruptHandles`, and touches one line
only. -/
def TouchesOneLine (s : GpioState) (call : GpioCall) : Prop :=
  match call with
  | .registerFor callback _ pin _ _ | .unregisterFor callback _ pin =>
    ∃ t, gpioStep s call = some t ∧ KeepsOtherLines callback pin s t
  | .enable _ _ | .disable _ _ => True

/-- A line that triggers on nothing and is masked. -/
def Line.Idle (line : Line) : Prop :=
  line.rising = false ∧ line.falling = false ∧ line.unmasked = false

/-- The mask of a registration has a pin with a handle. If the removal finds its callback, the
lines of the other pins of its mask are idle. -/
def MaskFits (s : GpioState) : GpioCall → Prop
  | .registerFor _ _ pin _ _ => ∃ i < gpioMaxPin, pin.getLsbD i = true
  | .unregisterFor callback _ pin =>
    ∀ i handle, LowestPin pin i → (s.line i).handle = some handle → handle.callback = callback →
      ∀ j ≠ i, pin.getLsbD j = true → (s.line j).Idle
  | .enable _ _ | .disable _ _ => True

end Powerboard.GpioInterrupts
