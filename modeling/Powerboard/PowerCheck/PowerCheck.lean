import Powerboard.Measuring.Exact

/-!
# The battery check

`powerCheck.c`: the battery voltage of each power state is compared with two thresholds. At the low one
the board switches itself off. Above it, a relative level is shown by the LED and posted, and `buck.c`
switches the converter on when it gets a level that is not 0.
-/

namespace Powerboard.PowerCheck

open Bytes Measuring Checked

/-! ## The message -/

/-- The `systemPowerState_t` at these bytes. -/
def systemPowerStateAt (content : List UInt8) : SystemPowerState :=
  { batteryVoltcV := readWord content 0
    motorVoltcV := readWord content 4
    systemVoltcV := readWord content 8
    motorCurrentcA := (readWord content 12).toInt32
    systemCurrentcA := (readWord content 16).toInt32 }

/-! ## The check -/

/-- The globals of `powerCheck.c`. -/
structure Globals where
  /-- `g_lowThresh` -/
  lowThresh : UInt32
  /-- `g_highThresh` -/
  highThresh : UInt32
  deriving DecidableEq

/-- The globals with `DEFAULT_LOW_THRESHOLD_VAL_V` and `DEFAULT_HIGH_THRESHOLD_VAL_V`. -/
def defaultThresholds : Globals := { lowThresh := 970, highThresh := 1200 }

/-- The arguments of `setLEDColor`. -/
structure LedColor where
  red : UInt8
  green : UInt8
  blue : UInt8
  deriving DecidableEq

/-- The `relativeBatteryLevel_t` of a voltage. -/
def relativeLevel (g : Globals) (curLevel : UInt32) : UInt8 :=
  if curLevel < g.lowThresh then 0x00
  else if curLevel > g.highThresh then 0xff
  else (255 * (curLevel - g.lowThresh) / (g.highThresh - g.lowThresh)).toUInt8

/-- Red for an empty battery, green for a full one. -/
def ledColor (level : UInt8) : LedColor :=
  if level ≥ 128 then { red := 2 * (255 - level), green := 0xff, blue := 0 }
  else { red := 0xff, green := 2 * level, blue := 0 }

/-- What a callback does with a measurement. -/
inductive Reaction
  /-- `switchAllOff`, which does not return -/
  | switchAllOff
  /-- `setLEDColor`, and the post of the level -/
  | post (color : LedColor) (level : UInt8)
  deriving DecidableEq

/-- `onNewPwrMeasurement` -/
def onNewPwrMeasurement (g : Globals) (buf : List UInt8) : Reaction :=
  let systemPwr := systemPowerStateAt buf
  let curLevel := systemPwr.batteryVoltcV
  if g.lowThresh ≥ curLevel then .switchAllOff
  else
    let level := relativeLevel g curLevel
    .post (ledColor level) level

/-! ## The check over the integers -/

/-- The level, with a test behind every operation and every conversion. The quotient becomes an 8-bit
number, and there is none for a divisor of 0. -/
def relativeLevelExact (lowThresh highThresh curLevel : ℤ) : Option ℤ :=
  if curLevel < lowThresh then some 0x00
  else if curLevel > highThresh then some 0xff
  else do
    let above ← uint32.fit (curLevel - lowThresh)
    let dividend ← uint32.fit (255 * above)
    let divisor ← uint32.fit (highThresh - lowThresh)
    if divisor = 0 then none
    else do
      let quotient ← uint32.fit (dividend / divisor)
      uint8.fit quotient

/-- Red and green of a level. They are first set to `0xff - level` and to the level. -/
def ledColorExact (level : ℤ) : Option (ℤ × ℤ) := do
  let first ← int32.fit (0xff - level)
  let _ ← uint8.fit first
  if level ≥ 128 then do
    let rest ← int32.fit (255 - level)
    let product ← int32.fit (2 * rest)
    let red ← uint8.fit product
    return (red, 0xff)
  else do
    let product ← int32.fit (2 * level)
    let green ← uint8.fit product
    return (0xff, green)

/-! ## The endpoints -/

/-- `setLowerVoltageEndoint`, with whether it calls `config_updateToFlash`. -/
def setLowerVoltageEndoint (g : Globals) (ipacket : List UInt8) (packetLen : UInt16) :
    Globals × Bool :=
  if packetLen = 2 then ({ g with lowThresh := (rawDataAt ipacket 0).toUInt32 }, true)
  else (g, false)

/-- `setUpperVoltageEndoint`, with whether it calls `config_updateToFlash`. -/
def setUpperVoltageEndoint (g : Globals) (ipacket : List UInt8) (packetLen : UInt16) :
    Globals × Bool :=
  if packetLen = 2 then ({ g with highThresh := (rawDataAt ipacket 0).toUInt32 }, true)
  else (g, false)

/-- The thresholds that two packets for the endpoints set. -/
def Globals.set (g : Globals) (lower upper : List UInt8) : Globals :=
  (setUpperVoltageEndoint (setLowerVoltageEndoint g lower 2).1 upper 2).1

/-! ## The converter -/

/-- The state of `buck.c`. -/
structure Buck where
  /-- `BUCK_ENABLE_SWITCHER_PIN` -/
  enableSwitcher : Bool
  /-- `g_switcherStarted` -/
  switcherStarted : Bool
  deriving DecidableEq

/-- `onRelativeBatteryVoltage` -/
def onRelativeBatteryVoltage (b : Buck) (buf : List UInt8) : Buck :=
  let level := buf.getD 0 0
  if level > 0 then { b with enableSwitcher := true, switcherStarted := true } else b

/-- A level is posted that is not 0, so that the converter is enabled by it, whatever else there is in
its message. -/
def PostsNonzero (g : Globals) (buf : List UInt8) : Prop :=
  ∃ color level, onNewPwrMeasurement g buf = .post color level ∧ 1 ≤ level ∧
    ∀ b rest, onRelativeBatteryVoltage b (level :: rest) =
      { enableSwitcher := true, switcherStarted := true }

/-- The power state of these samples behind this calibration. -/
def measured (calibration samples : List UInt16) : SystemPowerState :=
  powerState (smooth (ofHalfWords calibration)) (ofHalfWords samples)

/-- What is computed from a calibration and from a measurement are the numbers of the source, no
operation and no conversion of which changes them, and the battery voltage decides between switching
off and a level. -/
structure ComputesExactly (g : Globals) (calibration samples : List UInt16) : Prop where
  offsetVoltages : smoothExact (ofHalfWords calibration) =
    some ((smooth (ofHalfWords calibration)).map Int32.toInt)
  powerState : powerStateExact ((smooth (ofHalfWords calibration)).map Int32.toInt)
    (ofHalfWords samples) = some (measured calibration samples).numbers
  batteryVoltcV_le : (measured calibration samples).batteryVoltcV.toNat ≤ 3629
  switchAllOff_iff : onNewPwrMeasurement g (measured calibration samples).encode = .switchAllOff ↔
    (measured calibration samples).batteryVoltcV ≤ g.lowThresh
  post : ∀ color level,
    onNewPwrMeasurement g (measured calibration samples).encode = .post color level →
      relativeLevelExact g.lowThresh.toNat g.highThresh.toNat
          (measured calibration samples).batteryVoltcV.toNat = some (level.toNat : ℤ) ∧
        ledColorExact level.toNat = some ((color.red.toNat : ℤ), (color.green.toNat : ℤ))

end Powerboard.PowerCheck
