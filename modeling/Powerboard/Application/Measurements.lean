import Powerboard.Application.DeliveriesTheorems
import Powerboard.Measuring.MeasuringTheorems

/-!
# The way to a power state

`measuring.c` among other clients of the message pump: from the samples of a conversion, through the
two queued messages and `onRawMeasurement`, to what the callbacks of the power state are given.

The other clients keep the rules of the pump and keep off the pools of this module. No assumption is
made on the queue, so that a message of this module can be lost together with its element.
-/

namespace Powerboard.Application

open Bytes Machine MsgPump Measuring

/-! ## The machine -/

/-- `measuring.c` with what the other clients of the pump know. -/
structure Measurements where
  globals : Measuring.Globals
  /-- what the other clients have reserved -/
  reserved : Elem → Bool
  /-- the number of locks the other clients hold -/
  locks : Elem → ℕ
  /-- the samples of the conversions so far -/
  conversions : List (List UInt16)

namespace Measurements

/-- The other clients. -/
def others (s : Measurements) : Clients :=
  { state := s.globals.state
    reserved := s.reserved
    locks := s.locks
    posted := []
    calls := s.globals.calls }

/-- The calls of callbacks that have returned. -/
def returned (s : Measurements) : List Call :=
  if s.globals.running.isSome then s.globals.calls.dropLast else s.globals.calls

end Measurements

/-- The action is one of `measuring.c` or of the loop of the pump. -/
def OfMeasuring : MeasuringAction → Prop
  | .triggerCalibration | .triggerMeasurement | .dma1Ch1Isr _ | .runRawMeasurement | .dispatch => True
  | .post _ _ | .getFreeBuffer _ | .lock _ | .unlock _ => False

instance : DecidablePred OfMeasuring
  | .triggerCalibration | .triggerMeasurement | .dma1Ch1Isr _ | .runRawMeasurement | .dispatch =>
    isTrue trivial
  | .post _ _ | .getFreeBuffer _ | .lock _ | .unlock _ => isFalse id

/-- The action of another client, on other pools than those of `measuring.c`. -/
def KeepsOff : ClientAction → Prop
  | .postOwn id _ | .getFreeBuffer id => ¬ MeasuringMessage id
  | .postReserved e | .write e _ | .release e | .lock e | .unlock e => ¬ MeasuringMessage e.id
  | .dispatch => False

instance : DecidablePred KeepsOff
  | .postOwn id _ | .getFreeBuffer id => inferInstanceAs (Decidable (¬ MeasuringMessage id))
  | .postReserved e | .write e _ | .release e | .lock e | .unlock e =>
    inferInstanceAs (Decidable (¬ MeasuringMessage e.id))
  | .dispatch => isFalse id

/-- What a completed conversion has sampled. -/
def samplesOf : MeasuringAction → List (List UInt16)
  | .dma1Ch1Isr samples => [samples]
  | _ => []

inductive MeasurementAction
  | measuring (a : MeasuringAction)
  | client (a : ClientAction)

/-- The state after the action, if it can be taken. -/
def measurementStep (dataAddress : MsgId → ℤ) (s : Measurements) :
    MeasurementAction → Option Measurements
  | .measuring a =>
    if OfMeasuring a then
      (measuringStep dataAddress s.globals a).map fun globals =>
        { s with globals := globals, conversions := s.conversions ++ samplesOf a }
    else none
  | .client a =>
    if KeepsOff a then
      (clientStep firmware s.others a).map fun c =>
        { s with
          globals := { s.globals with state := c.state }
          reserved := c.reserved
          locks := c.locks }
    else none

/-- The start, with nothing reserved. -/
def measurementStart (callbackVector : MsgId → ℕ → Option Callback) (data : Elem → List UInt8) :
    Measurements :=
  { globals := measuringStart callbackVector data
    reserved := fun _ => false
    locks := fun _ => 0
    conversions := [] }

/-! ## What holds in every run -/

/-- The two callbacks of `measuring.c` are registered for their messages, once. -/
structure MeasuringCallbacks (callbackVector : MsgId → ℕ → Option Callback) : Prop where
  raw : ∃ k, OneEntry callbackVector msgIdVoltageRaw onRawMeasurement k
  calibration : ∃ k, OneEntry callbackVector msgIdVoltageCalibration onRawCalibMeasurement k
  onlyRaw : ∀ id, ∀ i < maxReceivers, callbackVector id i = some onRawMeasurement →
    id = msgIdVoltageRaw
  onlyCalibration : ∀ id, ∀ i < maxReceivers, callbackVector id i = some onRawCalibMeasurement →
    id = msgIdVoltageCalibration

/-- The offsets after these calibrations. -/
def offsetsOf (calibrations : List (List UInt8)) : List Int32 :=
  match calibrations.getLast? with
  | some content => smooth content
  | none => List.replicate measuringChannelCount 0

/-- The bytes of the power state that `onRawMeasurement` makes of a raw measurement. -/
def powerStateOf (offsetVoltages : List Int32) (content : List UInt8) : List UInt8 :=
  (powerState offsetVoltages content).encode

namespace Measurements

/-- The calibrations that `onRawCalibMeasurement` was given. -/
def calibrations (s : Measurements) : List (List UInt8) :=
  givenTo s.globals.calls msgIdVoltageCalibration onRawCalibMeasurement

/-- The power states of the conversions after the first one. -/
def converted (s : Measurements) : List (List UInt8) :=
  (s.conversions.drop 1).map fun samples =>
    powerStateOf s.globals.offsetVoltages (ofHalfWords samples)

end Measurements

/-- What the callback for the power state is given was measured. -/
structure Measured (s : Measurements) (callback : Callback) : Prop where
  /-- the first conversion is the calibration, if it is not lost -/
  calibrated : s.calibrations.Sublist ((s.conversions.take 1).map ofHalfWords)
  offsets : s.globals.offsetVoltages = offsetsOf s.calibrations
  /-- the others are power states with these offsets, in order, each once at most -/
  given : (givenTo s.globals.calls msgIdSystemPowerState callback).Sublist s.converted

/-- Everything that was measured has come to the callback. -/
structure Complete (s : Measurements) (callback : Callback) : Prop where
  calibrated : s.calibrations = (s.conversions.take 1).map ofHalfWords
  given : givenTo s.globals.calls msgIdSystemPowerState callback = s.converted

/-- No message of this module is lost in the step: the queue has room for it, and there is a free
element for the power state. -/
def KeepsMessage (s : Measurements) : MeasurementAction → Prop
  | .measuring (.dma1Ch1Isr _) => ¬ s.globals.state.pump.Full
  | .measuring .runRawMeasurement =>
    match s.globals.running with
    | some (.entered _) => ∃ i < systemPowerState.msgAmount,
        (s.globals.state.pump.header ⟨msgIdSystemPowerState, i⟩).IsFree
    | some (.posting _) => ¬ s.globals.state.pump.Full
    | _ => True
  | _ => True

instance (s : Measurements) : DecidablePred (KeepsMessage s)
  | .measuring (.dma1Ch1Isr _) => inferInstanceAs (Decidable (¬ _))
  | .measuring .runRawMeasurement =>
    match hrunning : s.globals.running with
    | some (.entered _) =>
      decidable_of_iff (∃ i < systemPowerState.msgAmount,
        (s.globals.state.pump.header ⟨msgIdSystemPowerState, i⟩).IsFree)
        (by simp only [KeepsMessage, hrunning])
    | some (.posting _) =>
      decidable_of_iff (¬ s.globals.state.pump.Full) (by simp only [KeepsMessage, hrunning])
    | none | some (.filling _ _) => isTrue (by simp only [KeepsMessage, hrunning])
  | .measuring .triggerCalibration | .measuring .triggerMeasurement | .measuring .dispatch
  | .measuring (.post _ _) | .measuring (.getFreeBuffer _) | .measuring (.lock _)
  | .measuring (.unlock _) | .client _ => isTrue trivial

end Powerboard.Application
