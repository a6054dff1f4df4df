import Powerboard.Library.Machine
import Powerboard.Library.Registers

/-!
# Pins

`gpio_common_all.c` and `gpio_common_f0234.c`: the registers of a port, the functions that read and
write its pins, and those that configure them. Pins are given as masks.
-/

namespace Powerboard.Gpio

open Registers

/-! ## Reading and writing -/

/-- A write to `GPIO_BSRR`: the lower half sets pins of `GPIO_ODR`, the upper half clears pins, and
a pin in both is set. -/
def writeBsrr (odr v : BitVec 32) : BitVec 32 := (odr &&& ~~~(v >>> 16)) ||| (v &&& 0xffff#32)

/-- `GPIO_ODR` after `gpio_set` -/
def gpioSet (odr : BitVec 32) (gpios : BitVec 16) : BitVec 32 := writeBsrr odr (gpios.setWidth 32)

/-- `GPIO_ODR` after `gpio_clear` -/
def gpioClear (odr : BitVec 32) (gpios : BitVec 16) : BitVec 32 :=
  writeBsrr odr (gpios.setWidth 32 <<< 16)

/-- `gpio_port_read`, from `GPIO_IDR` -/
def gpioPortRead (idr : BitVec 32) : BitVec 16 := idr.setWidth 16

/-- `gpio_get` -/
def gpioGet (idr : BitVec 32) (gpios : BitVec 16) : BitVec 16 := gpioPortRead idr &&& gpios

/-- `GPIO_ODR` after the write of `gpio_toggle`, which has read `port` from it before. -/
def gpioToggle (odr port : BitVec 32) (gpios : BitVec 16) : BitVec 32 :=
  writeBsrr odr (((port &&& gpios.setWidth 32) <<< 16) ||| (~~~port &&& gpios.setWidth 32))

/-! ## Configuring -/

/-- The registers that configure a port -/
structure PortRegisters where
  moder : BitVec 32
  otyper : BitVec 32
  ospeedr : BitVec 32
  pupdr : BitVec 32
  afrl : BitVec 32
  afrh : BitVec 32

/-- `gpio_mode_setup` -/
def gpioModeSetup (p : PortRegisters) (mode pullUpDown : BitVec 8) (gpios : BitVec 16) :
    PortRegisters :=
  { p with
    moder := setFields 0x3#32 (mode.setWidth 32) gpios (2 * ·) (List.range 16) p.moder
    pupdr := setFields 0x3#32 (pullUpDown.setWidth 32) gpios (2 * ·) (List.range 16) p.pupdr }

/-- `gpio_set_output_options` -/
def gpioSetOutputOptions (p : PortRegisters) (otype speed : BitVec 8) (gpios : BitVec 16) :
    PortRegisters :=
  { p with
    otyper :=
      if otype = 0x1#8 then p.otyper ||| gpios.setWidth 32
      else p.otyper &&& ~~~(gpios.setWidth 32)
    ospeedr := setFields 0x3#32 (speed.setWidth 32) gpios (2 * ·) (List.range 16) p.ospeedr }

/-- `gpio_set_af` -/
def gpioSetAf (p : PortRegisters) (altFuncNum : BitVec 8) (gpios : BitVec 16) : PortRegisters :=
  { p with
    afrl := setFields 0xf#32 (altFuncNum.setWidth 32) gpios (4 * ·) (List.range 8) p.afrl
    afrh :=
      setFields 0xf#32 (altFuncNum.setWidth 32) gpios (fun i => 4 * (i - 8)) (List.range' 8 8)
        p.afrh }

/-- A call of a function that configures pins -/
inductive Configure
  | modeSetup (mode pullUpDown : BitVec 8) (gpios : BitVec 16)
  | setOutputOptions (otype speed : BitVec 8) (gpios : BitVec 16)
  | setAf (altFuncNum : BitVec 8) (gpios : BitVec 16)

def configure (p : PortRegisters) : Configure → PortRegisters
  | .modeSetup mode pullUpDown gpios => gpioModeSetup p mode pullUpDown gpios
  | .setOutputOptions otype speed gpios => gpioSetOutputOptions p otype speed gpios
  | .setAf altFuncNum gpios => gpioSetAf p altFuncNum gpios

/-- The values are those of the fields: `GPIO_MODE_*`, `GPIO_PUPD_*`, `GPIO_OSPEED_*`, `GPIO_AF*`. -/
def Configure.Fits : Configure → Prop
  | .modeSetup mode pullUpDown _ => mode.toNat < 4 ∧ pullUpDown.toNat < 4
  | .setOutputOptions _ speed _ => speed.toNat < 4
  | .setAf altFuncNum _ => altFuncNum.toNat < 16

/-! ## One pin -/

/-- The configuration of one pin -/
structure PinConfig where
  mode : BitVec 2
  pullUpDown : BitVec 2
  openDrain : Bool
  speed : BitVec 2
  alternateFunction : BitVec 4
  deriving DecidableEq

/-- Pin `i` of a port -/
def PortRegisters.pin (p : PortRegisters) (i : ℕ) : PinConfig where
  mode := p.moder.extractLsb' (2 * i) 2
  pullUpDown := p.pupdr.extractLsb' (2 * i) 2
  openDrain := p.otyper.getLsbD i
  speed := p.ospeedr.extractLsb' (2 * i) 2
  alternateFunction :=
    if i < 8 then p.afrl.extractLsb' (4 * i) 4 else p.afrh.extractLsb' (4 * (i - 8)) 4

/-- What a call should do to pin `i`. -/
def PinConfig.after (i : ℕ) (c : PinConfig) : Configure → PinConfig
  | .modeSetup mode pullUpDown gpios =>
    if gpios.getLsbD i then
      { c with mode := mode.setWidth 2, pullUpDown := pullUpDown.setWidth 2 }
    else c
  | .setOutputOptions otype speed gpios =>
    if gpios.getLsbD i then
      { c with openDrain := decide (otype = 0x1#8), speed := speed.setWidth 2 }
    else c
  | .setAf altFuncNum gpios =>
    if gpios.getLsbD i then { c with alternateFunction := altFuncNum.setWidth 4 } else c

/-! ## Several contexts on one port -/

/-- A completed operation on outputs -/
inductive PinOp
  | set (gpios : BitVec 16)
  | clear (gpios : BitVec 16)
  | toggle (gpios : BitVec 16)

/-- What an operation should do to pin `i`. -/
def PinOp.apply (i : ℕ) (level : Bool) : PinOp → Bool
  | .set gpios => gpios.getLsbD i || level
  | .clear gpios => !gpios.getLsbD i && level
  | .toggle gpios => gpios.getLsbD i ^^ level

/-- `GPIO_ODR`, and what the contexts that are inside of `gpio_toggle` have read from it. -/
structure Outputs where
  odr : BitVec 32
  port : ℕ → Option (BitVec 32)

/-- The accesses of the contexts to `GPIO_ODR` and `GPIO_BSRR` -/
inductive Access
  | set (context : ℕ) (gpios : BitVec 16)
  | clear (context : ℕ) (gpios : BitVec 16)
  | toggleRead (context : ℕ)
  | toggleWrite (context : ℕ) (gpios : BitVec 16)

/-- A context does nothing else between the read and the write of a toggle. -/
def access (s : Outputs) : Access → Option Outputs
  | .set context gpios =>
    if s.port context = none then some { s with odr := gpioSet s.odr gpios } else none
  | .clear context gpios =>
    if s.port context = none then some { s with odr := gpioClear s.odr gpios } else none
  | .toggleRead context =>
    if s.port context = none then
      some { s with port := Function.update s.port context (some s.odr) }
    else none
  | .toggleWrite context gpios =>
    (s.port context).map fun port =>
      { odr := gpioToggle s.odr port gpios
        port := Function.update s.port context none }

/-- The operation that a context completes with an access -/
def Access.completes (context : ℕ) : Access → Option PinOp
  | .set c gpios => if c = context then some (.set gpios) else none
  | .clear c gpios => if c = context then some (.clear gpios) else none
  | .toggleRead _ => none
  | .toggleWrite c gpios => if c = context then some (.toggle gpios) else none

/-- A context works on its own pins. -/
def Access.OnOwnPins (owner : ℕ → ℕ) : Access → Prop
  | .set c gpios | .clear c gpios | .toggleWrite c gpios =>
    ∀ i, gpios.getLsbD i = true → owner i = c
  | .toggleRead _ => True

end Powerboard.Gpio
