import Powerboard.Library.Bytes
import Powerboard.Library.Machine
import Powerboard.MsgPump.Accounting
import Powerboard.MsgPump.Firmware

/-!
# Measuring the voltages

`measuring.c`: a timer starts a conversion into an element of the pool of `MSG_ID_VOLTAGE_RAW`, the
interrupt at the end of the DMA transfer posts it, `onRawMeasurement` turns it into an element of the
pool of `MSG_ID_SYSTEM_POWER_STATE` and posts that. The first conversion goes to
`MSG_ID_VOLTAGE_CALIBRATION` instead.

The timer functions and the interrupt lock the mutex and are single steps. `onRawMeasurement` runs in
the loop of the pump and can be interrupted, so that it is cut between its calls of the pump.
-/

namespace Powerboard.Measuring

open Bytes MsgPump

/-! ## From samples to voltages -/

/-- `MEASURING_CHANNEL_COUNT` -/
def measuringChannelCount : ℕ := 5

/-- The number of elements of a `voltageMeasurementsRaw_t`. -/
def rawMeasurementCount : ℕ := measuringChannelCount * 20

/-- `RESISTANCE_FACTOR_BATTERY`, `RESISTANCE_FACTOR_5V` and `RESISTANCE_FACTOR_SERVO` -/
def resistanceFactor : Int32 := 11

/-- An element of the `voltageMeasurementsRaw_t` at these bytes. -/
def rawDataAt (content : List UInt8) (i : ℕ) : UInt16 :=
  readHalfWord content (2 * i)

/-- "smooth the data": the average of the samples of each channel, in `onRawCalibMeasurement` and in
`onRawMeasurement`. The division is one of unsigned numbers. -/
def smooth (content : List UInt8) : List Int32 :=
  let sums := (List.range rawMeasurementCount).foldl
    (fun voltages i => voltages.modify (i % measuringChannelCount)
      (· + (rawDataAt content i).toUInt32.toInt32))
    (List.replicate measuringChannelCount 0)
  sums.map fun sum =>
    (sum.toUInt32 / UInt32.ofNat (rawMeasurementCount / measuringChannelCount)).toInt32

/-- `systemPowerState_t` -/
structure SystemPowerState where
  batteryVoltcV : UInt32
  motorVoltcV : UInt32
  systemVoltcV : UInt32
  motorCurrentcA : Int32
  systemCurrentcA : Int32
  deriving DecidableEq

/-- The power state that `onRawMeasurement` computes from the raw data. -/
def powerState (offsetVoltages : List Int32) (content : List UInt8) : SystemPowerState :=
  let voltages := smooth content
  let voltage (i : ℕ) : Int32 := voltages.getD i 0 * 330 * resistanceFactor / 4096
  let current (i : ℕ) : Int32 :=
    (offsetVoltages.getD i 0 - voltages.getD i 0) * 330000 / 9 / 4096
  -- battery, 5V and motor voltage, 5V and motor current are the channels 0 to 4
  { batteryVoltcV := (voltage 0).toUInt32
    motorVoltcV := (voltage 2).toUInt32
    systemVoltcV := (voltage 1).toUInt32
    motorCurrentcA := current 4
    systemCurrentcA := current 3 }

/-- The bytes of a `systemPowerState_t`. -/
def SystemPowerState.encode (p : SystemPowerState) : List UInt8 :=
  ofWord p.batteryVoltcV ++ ofWord p.motorVoltcV ++ ofWord p.systemVoltcV ++
    ofWord p.motorCurrentcA.toUInt32 ++ ofWord p.systemCurrentcA.toUInt32

/-! ## The state -/

/-- The callback `onRawMeasurement` -/
def onRawMeasurement : Callback := 6

/-- The callback `onRawCalibMeasurement` -/
def onRawCalibMeasurement : Callback := 7

/-- The callback `onNewPwrMeasurement` of `powerCheck.c`: the low-battery check -/
def onNewPwrMeasurement : Callback := 2

/-- Where a running `onRawMeasurement` is. -/
inductive RawMeasurementPc
  | entered (dataPtr : Option Elem)
  /-- it has a free buffer -/
  | filling (dataPtr : Option Elem) (powerStatePtr : Elem)
  /-- the buffer is filled -/
  | posting (powerStatePtr : Elem)
  deriving DecidableEq

/-- The element that a running `onRawMeasurement` has reserved. -/
def RawMeasurementPc.powerStatePtr : RawMeasurementPc → Option Elem
  | .entered _ => none
  | .filling _ e => some e
  | .posting e => some e

/-- The globals of `measuring.c`, with the message pump. -/
structure Globals where
  state : PumpState
  /-- `g_curBuffer` -/
  curBuffer : Option Elem
  /-- `g_calibrationMeasurementDone` -/
  calibrationMeasurementDone : Bool
  /-- `g_offsetVoltages` -/
  offsetVoltages : List Int32
  /-- `triggerMeasurement` is registered on a timer, and `triggerCalibration` no longer -/
  timerRegistered : Bool
  /-- the conversion is started and its DMA transfer is not completed -/
  converting : Bool
  /-- the running `onRawMeasurement` -/
  running : Option RawMeasurementPc
  /-- the calls of callbacks so far -/
  calls : List Call

namespace Globals

/-- The state with another pump. -/
def setPump (s : Globals) (p : Pump) : Globals := { s with state := { s.state with pump := p } }

/-- The element is `g_curBuffer`, or the one that the running callback fills. -/
def Owns (s : Globals) (e : Elem) : Prop :=
  s.curBuffer = some e ∨ (s.running.bind RawMeasurementPc.powerStatePtr) = some e

/-- The queue is empty, and no callback of this module is running. -/
def Drained (s : Globals) : Prop := s.state.pump.msgQueueSize = 0 ∧ s.running = none

end Globals

/-! ## The functions -/

/-- A pointer to an element, for a post with this id: how far the element is from the pool of the id
depends on where the linker has put the pools. -/
def pointerFrom (dataAddress : MsgId → ℤ) (p : Pump) (id : MsgId) (e : Elem) : Pointer :=
  let msgSize := ((firmware.messageBuffers e.id).map BufDescription.msgSize).getD 0
  { ptrOffset := dataAddress e.id - dataAddress id +
      (e.index * (msgSize + msgOverhead) + msgOverhead : ℤ)
    bytes := fun k => (p.data e).getD k 0 }

/-- The common part of `triggerMeasurement` and `triggerCalibration`: start a conversion into a free
buffer, if none is running. -/
def startConversion (s : Globals) (id : MsgId) : Option Globals :=
  if s.curBuffer.isNone then
    match MsgPump.getFreeBuffer firmware s.state.pump id with
    | .ok (some e, p) => some { s.setPump p with curBuffer := some e, converting := true }
    | .ok (none, p) => some (s.setPump p)
    | .error _ => none
  else some s

/-- `triggerMeasurement` -/
def triggerMeasurement (s : Globals) : Option Globals := startConversion s msgIdVoltageRaw

/-- `triggerCalibration` -/
def triggerCalibration (s : Globals) : Option Globals :=
  (startConversion s msgIdVoltageCalibration).map fun s => { s with timerRegistered := true }

/-- `dma1_ch1_isr`, when the DMA has written the samples. -/
def dma1Ch1Isr (dataAddress : MsgId → ℤ) (s : Globals) (samples : List UInt16) :
    Option Globals :=
  let p := match s.curBuffer with
    | some e => s.state.pump.setData e (ofHalfWords samples)
    | none => s.state.pump
  let id := if s.calibrationMeasurementDone then msgIdVoltageRaw else msgIdVoltageCalibration
  match MsgPump.postMessage firmware p id (s.curBuffer.map (pointerFrom dataAddress p id)) with
  | .ok (_, p) =>
    some { s.setPump p with
      calibrationMeasurementDone := true, curBuffer := none, converting := false }
  | .error _ => none

/-- The next step of a running `onRawMeasurement`. -/
def runRawMeasurement (dataAddress : MsgId → ℤ) (s : Globals) : RawMeasurementPc → Option Globals
  | .entered dataPtr =>
    match MsgPump.getFreeBuffer firmware s.state.pump msgIdSystemPowerState with
    | .ok (some e, p) => some { s.setPump p with running := some (.filling dataPtr e) }
    | .ok (none, p) => some { s.setPump p with running := none }
    | .error _ => none
  | .filling dataPtr e =>
    let rawData := (dataPtr.map s.state.pump.data).getD []
    let content := (powerState s.offsetVoltages rawData).encode
    some { s.setPump (s.state.pump.setData e content) with running := some (.posting e) }
  | .posting e =>
    match MsgPump.postMessage firmware s.state.pump msgIdSystemPowerState
        (some (pointerFrom dataAddress s.state.pump msgIdSystemPowerState e)) with
    | .ok (_, p) => some { s.setPump p with running := none }
    | .error _ => none

/-- The call of a callback by the loop of the pump. `onRawCalibMeasurement` sets the offsets,
`onRawMeasurement` begins to run. The callbacks of other modules do nothing here but post other
messages, at any time. -/
def callback (s : Globals) (dataPtr : Option Elem) (call : Call) : Globals :=
  if call.callback = onRawMeasurement then { s with running := some (.entered dataPtr) }
  else if call.callback = onRawCalibMeasurement then
    { s with offsetVoltages := smooth ((dataPtr.map s.state.pump.data).getD []) }
  else s

/-- A step of the loop of `msgPump_pumpMessage`, which waits for a running callback. -/
def dispatchStep (s : Globals) : Option Globals :=
  if s.running.isSome then none
  else
    match MsgPump.dispatch s.state with
    | .ok (state, none) => some { s with state := state }
    | .ok (state, some call) =>
      let dataPtr := (s.state.pump.msgQueue s.state.pump.msgQueueFront).buffer
      some (callback { s with state := state, calls := s.calls ++ [call] } dataPtr call)
    | .error _ => none

/-! ## The machine -/

/-- The messages of this module. -/
def MeasuringMessage (id : MsgId) : Prop :=
  id = msgIdVoltageRaw ∨ id = msgIdSystemPowerState ∨ id = msgIdVoltageCalibration

instance (id : MsgId) : Decidable (MeasuringMessage id) :=
  inferInstanceAs (Decidable (_ ∨ _ ∨ _))

inductive MeasuringAction
  | triggerCalibration
  | triggerMeasurement
  | dma1Ch1Isr (samples : List UInt16)
  /-- a step of the running `onRawMeasurement` -/
  | runRawMeasurement
  | dispatch
  /-- another module posts another message -/
  | post (id : MsgId) (messageToPost : Pointer)
  /-- another module reserves an element of another pool -/
  | getFreeBuffer (id : MsgId)
  | lock (e : Elem)
  | unlock (e : Elem)

/-- The state after the action. `triggerCalibration` runs once, then `triggerMeasurement` does;
`dma1_ch1_isr` runs only after a start. -/
def measuringStep (dataAddress : MsgId → ℤ) (s : Globals) : MeasuringAction → Option Globals
  | .triggerCalibration => if s.timerRegistered then none else triggerCalibration s
  | .triggerMeasurement => if s.timerRegistered then triggerMeasurement s else none
  | .dma1Ch1Isr samples => if s.converting then dma1Ch1Isr dataAddress s samples else none
  | .runRawMeasurement => s.running.bind (runRawMeasurement dataAddress s)
  | .dispatch => dispatchStep s
  | .post id ptr =>
    if MeasuringMessage id then none
    else
      match MsgPump.postMessage firmware s.state.pump id (some ptr) with
      | .ok (_, p) => some (s.setPump p)
      | .error _ => none
  | .getFreeBuffer id =>
    if MeasuringMessage id then none
    else
      match MsgPump.getFreeBuffer firmware s.state.pump id with
      | .ok (_, p) => some (s.setPump p)
      | .error _ => none
  | .lock e =>
    if MeasuringMessage e.id then none
    else some (s.setPump (lockMessage s.state.pump (some e)).2)
  | .unlock e =>
    if MeasuringMessage e.id then none
    else some (s.setPump (unlockMessage s.state.pump (some e)).2)

/-- The state after `init_measuring` and `onLateInit`. -/
def measuringStart (callbackVector : MsgId → ℕ → Option Callback) (data : Elem → List UInt8) :
    Globals :=
  { state := initial callbackVector data
    curBuffer := none
    calibrationMeasurementDone := false
    offsetVoltages := List.replicate measuringChannelCount 0
    timerRegistered := false
    converting := false
    running := none
    calls := [] }

/-! ## What measuring should keep -/

/-- The two pools that measurements go through. -/
def MeasuringId (id : MsgId) : Prop := id = msgIdVoltageRaw ∨ id = msgIdSystemPowerState

/-- What the callbacks of the two messages are: `onRawMeasurement` for raw measurements, and
`onNewPwrMeasurement` among those for the power state. -/
structure CallbacksRegistered (callbackVector : MsgId → ℕ → Option Callback) : Prop where
  raw : ∀ i < maxReceivers,
    callbackVector msgIdVoltageRaw i = if i = 0 then some onRawMeasurement else none
  powerState : ∃ i < maxReceivers, callbackVector msgIdSystemPowerState i = some onNewPwrMeasurement
  noOther : ∀ i, callbackVector msgIdSystemPowerState i ≠ some onRawMeasurement

/-- One measurement, from the start of the conversion, if none is running, to the calls of the
callbacks for the power state. -/
def measurementRound (s : Globals) (samples : List UInt16) : List MeasuringAction :=
  (if s.curBuffer.isNone then [.triggerMeasurement] else []) ++
    [.dma1Ch1Isr samples, .dispatch, .dispatch, .runRawMeasurement, .runRawMeasurement,
      .runRawMeasurement] ++ List.replicate 11 .dispatch

/-- The call of the low-battery check for the samples. -/
def lowBatteryCheck (s : Globals) (samples : List UInt16) : Call :=
  { callback := onNewPwrMeasurement
    id := msgIdSystemPowerState
    content := some (powerState s.offsetVoltages (ofHalfWords samples)).encode }

/-- Every element of the two pools is free, or is `g_curBuffer`, or is in the queue, or is being
filled. After the queue has drained the pools are free but for `g_curBuffer`, and a measurement
reaches the low-battery check. -/
structure MeasuringOk (dataAddress : MsgId → ℤ) (s : Globals) : Prop where
  accounted : Accounted firmware MeasuringId s.Owns s.state
  drained : s.Drained → ∀ e d, MeasuringId e.id → firmware.messageBuffers e.id = some d →
    e.index < d.msgAmount → (s.state.pump.header e).IsFree ∨ s.curBuffer = some e
  measures : s.Drained → s.calibrationMeasurementDone → ∀ samples, ∃ s' calls,
    Machine.exec (measuringStep dataAddress) s (measurementRound s samples) = some s' ∧
      s'.calls = s.calls ++ calls ∧ lowBatteryCheck s samples ∈ calls

/-- If the action hands an element over to the queue, then the queue has room: `dma1_ch1_isr` its
raw measurement, `onRawMeasurement` its power state. -/
def HandoverSafe (s : Globals) : MeasuringAction → Prop
  | .dma1Ch1Isr _ => s.calibrationMeasurementDone → ¬ s.state.pump.Full
  | .runRawMeasurement => ∀ e, s.running = some (.posting e) → ¬ s.state.pump.Full
  | _ => True

instance (s : Globals) : DecidablePred (HandoverSafe s)
  | .dma1Ch1Isr _ => inferInstanceAs (Decidable (_ → ¬ _))
  | .runRawMeasurement =>
    match hrunning : s.running with
    | some (.posting _) => decidable_of_iff (¬ s.state.pump.Full) (by simp [HandoverSafe, hrunning])
    | none | some (.entered _) | some (.filling _ _) =>
      isTrue (by simp [HandoverSafe, hrunning])
  | .triggerCalibration | .triggerMeasurement | .dispatch | .post _ _ | .getFreeBuffer _ | .lock _
  | .unlock _ => isTrue trivial

end Powerboard.Measuring
