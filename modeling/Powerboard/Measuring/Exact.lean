import Powerboard.Library.Checked
import Powerboard.Measuring.Measuring

/-!
# The arithmetic of the measurements over the integers

`onRawCalibMeasurement` and `onRawMeasurement` of `measuring.c`, with a test behind every operation and
every conversion whether the result is a value of its type.
-/

namespace Powerboard.Measuring

open Checked

/-- A step of the loop that sums the samples up. -/
def smoothStepExact (content : List UInt8) (voltages : List ℤ) (i : ℕ) : Option (List ℤ) := do
  let sample ← int32.fit (rawDataAt content i).toNat
  let sum ← int32.fit (voltages.getD (i % measuringChannelCount) 0 + sample)
  return voltages.set (i % measuringChannelCount) sum

/-- The division by the number of samples of a channel, for which the sum becomes unsigned. -/
def averageExact (sum : ℤ) : Option ℤ := do
  let dividend ← uint32.fit sum
  let quotient ← uint32.fit (dividend / (rawMeasurementCount / measuringChannelCount : ℕ))
  int32.fit quotient

/-- "smooth the data" -/
def smoothExact (content : List UInt8) : Option (List ℤ) := do
  let sums ← (List.range rawMeasurementCount).foldlM (smoothStepExact content)
    (List.replicate measuringChannelCount 0)
  sums.mapM averageExact

/-- A voltage in centivolts, which becomes unsigned. -/
def voltageExact (voltage : ℤ) : Option ℤ := do
  let millivolts ← int32.fit (voltage * 330)
  let undivided ← int32.fit (millivolts * 11)
  let centivolts ← int32.fit (undivided.tdiv 4096)
  uint32.fit centivolts

/-- A current in milliamperes. -/
def currentExact (offsetVoltage voltage : ℤ) : Option ℤ := do
  let difference ← int32.fit (offsetVoltage - voltage)
  let product ← int32.fit (difference * 330000)
  let undivided ← int32.fit (product.tdiv 9)
  int32.fit (undivided.tdiv 4096)

/-- The numbers of a `systemPowerState_t`. -/
structure ExactPowerState where
  batteryVoltcV : ℤ
  motorVoltcV : ℤ
  systemVoltcV : ℤ
  motorCurrentcA : ℤ
  systemCurrentcA : ℤ
  deriving DecidableEq

/-- The power state that `onRawMeasurement` computes from the raw data. -/
def powerStateExact (offsetVoltages : List ℤ) (content : List UInt8) : Option ExactPowerState := do
  let voltages ← smoothExact content
  let batteryVoltcV ← voltageExact (voltages.getD 0 0)
  let systemVoltcV ← voltageExact (voltages.getD 1 0)
  let motorVoltcV ← voltageExact (voltages.getD 2 0)
  let systemCurrentcA ← currentExact (offsetVoltages.getD 3 0) (voltages.getD 3 0)
  let motorCurrentcA ← currentExact (offsetVoltages.getD 4 0) (voltages.getD 4 0)
  return { batteryVoltcV, motorVoltcV, systemVoltcV, motorCurrentcA, systemCurrentcA }

/-- The numbers that the power state holds. -/
def SystemPowerState.numbers (p : SystemPowerState) : ExactPowerState :=
  { batteryVoltcV := p.batteryVoltcV.toNat
    motorVoltcV := p.motorVoltcV.toNat
    systemVoltcV := p.systemVoltcV.toNat
    motorCurrentcA := p.motorCurrentcA.toInt
    systemCurrentcA := p.systemCurrentcA.toInt }

end Powerboard.Measuring
