import Powerboard.Measuring.Measuring

/-!
# The calibration before the measurements

The first conversion is not a measurement. `onLateInit` registers `triggerCalibration` on a timer,
which runs once and then leaves the timer to `triggerMeasurement`; the interrupt at the end of the
first conversion posts it to `onRawCalibMeasurement`, and those of the later ones to
`onRawMeasurement`. The offsets that the currents are computed with are the averages of the first
conversion, if `onRawCalibMeasurement` runs before `onRawMeasurement`.
-/

namespace Powerboard.Measuring

open Bytes MsgPump

/-- `measuring.c` from `init_measuring` on. -/
structure Startup where
  globals : Globals
  /-- `onLateInit` is registered on a timer -/
  lateInitRegistered : Bool
  /-- `triggerCalibration` is registered on a timer -/
  calibrationRegistered : Bool
  /-- not in the source: the samples of the first conversion, when it is completed -/
  calibrationSamples : Option (List UInt16)

inductive StartupAction
  | onLateInit
  | measuring (a : MeasuringAction)

/-- The state after the action. The timers for `onLateInit` and `triggerCalibration` are one-shot. -/
def startupStep (dataAddress : MsgId → ℤ) (s : Startup) : StartupAction → Option Startup
  | .onLateInit =>
    if s.lateInitRegistered then
      some { s with lateInitRegistered := false, calibrationRegistered := true }
    else none
  | .measuring .triggerCalibration =>
    if s.calibrationRegistered then
      (measuringStep dataAddress s.globals .triggerCalibration).map fun globals =>
        { s with globals := globals, calibrationRegistered := false }
    else none
  | .measuring (.dma1Ch1Isr samples) =>
    (measuringStep dataAddress s.globals (.dma1Ch1Isr samples)).map fun globals =>
      { s with
        globals := globals
        calibrationSamples :=
          if s.globals.calibrationMeasurementDone then s.calibrationSamples else some samples }
  | .measuring a =>
    (measuringStep dataAddress s.globals a).map fun globals => { s with globals := globals }

/-- The state after `init_measuring`. -/
def startupStart (callbackVector : MsgId → ℕ → Option Callback) (data : Elem → List UInt8) :
    Startup :=
  { globals := measuringStart callbackVector data
    lateInitRegistered := true
    calibrationRegistered := false
    calibrationSamples := none }

/-! ## What the calibration is for -/

/-- `init_measuring` registers the two callbacks, and nothing else registers that of the
calibration. -/
structure CalibrationRegistered (callbackVector : MsgId → ℕ → Option Callback) : Prop where
  raw : ∃ i < maxReceivers, callbackVector msgIdVoltageRaw i = some onRawMeasurement
  calibration : ∃ i < maxReceivers,
    callbackVector msgIdVoltageCalibration i = some onRawCalibMeasurement
  noOther : ∀ id i, callbackVector id i = some onRawCalibMeasurement →
    id = msgIdVoltageCalibration

/-- The call of `onRawCalibMeasurement` with the samples. -/
def calibrationCall (samples : List UInt16) : Call :=
  { callback := onRawCalibMeasurement
    id := msgIdVoltageCalibration
    content := some (ofHalfWords samples) }

/-- `onRawCalibMeasurement` ran on the first conversion, and the offsets are its averages. -/
structure Calibrated (s : Globals) (samples : List UInt16) : Prop where
  called : calibrationCall samples ∈ s.calls
  offsets : s.offsetVoltages = smooth (ofHalfWords samples)

/-- When `onRawMeasurement` has been called for a raw measurement, the calibration was before. -/
def CalibratedFirst (s : Startup) : Prop :=
  (∃ call ∈ s.globals.calls, call.callback = onRawMeasurement ∧ call.id = msgIdVoltageRaw) →
    ∃ samples, s.calibrationSamples = some samples ∧ Calibrated s.globals samples

/-- The interrupt at the end of the first conversion does not find the queue full. -/
def CalibrationSafe (s : Startup) : StartupAction → Prop
  | .measuring (.dma1Ch1Isr _) =>
    s.globals.calibrationMeasurementDone = false → ¬ s.globals.state.pump.Full
  | _ => True

instance (s : Startup) : (a : StartupAction) → Decidable (CalibrationSafe s a)
  | .measuring (.dma1Ch1Isr _) => inferInstanceAs (Decidable (_ → _))
  | .onLateInit => isTrue trivial
  | .measuring .triggerCalibration | .measuring .triggerMeasurement
  | .measuring .runRawMeasurement | .measuring .dispatch | .measuring (.post _ _)
  | .measuring (.getFreeBuffer _) | .measuring (.lock _) | .measuring (.unlock _) => isTrue trivial

end Powerboard.Measuring
