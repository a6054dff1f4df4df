import Powerboard.PowerCheck.PowerCheck
import Powerboard.Protocol.MessageMap

/-!
# The way of a level

`onNewPwrMeasurement` posts the level, `buck.c` and `dataDistribution.c` get the message, every 50th
is posted once more for the outside, and `msgCallback` of the proxy sends this one.

A post copies as many bytes as an element of the pool has. The level is a local variable of one
byte, and what lies behind it in memory is part of what a step reads: its `Memory`.
-/

namespace Powerboard.PowerCheck

open MsgPump GenericProtocol Measuring

/-- `DISTRIBUTION_INTERVAL` -/
def distributionInterval : UInt32 := 50

/-- The address of `onRelativeMeasurement` -/
def onRelativeMeasurementAddress : Callback := 3

/-- The address of `onRelativeBatteryVoltage` -/
def onRelativeBatteryVoltageAddress : Callback := 4

/-- The bytes in memory from the local variable `level` on, before it is written. -/
abbrev Memory := ℕ → UInt8

/-! ## The state -/

/-- The callback that runs. -/
inductive LevelPc
  | onNewPwrMeasurement (buf : Option Elem)
  /-- in the endless loop of `switchAllOff` -/
  | switchedOff
  | onRelativeMeasurement (dataPtr : Option Elem)
  | msgCallback (id : MsgId) (data : Option Elem)
  deriving DecidableEq

/-- The message pump with the clients of a level. -/
structure Levels where
  state : PumpState
  thresholds : Globals
  /-- what `setLEDColor` was last called with -/
  color : LedColor
  buck : Buck
  /-- `counter` of `onRelativeMeasurement` -/
  counter : UInt32
  sendState : ℕ → SendState
  running : Option LevelPc
  /-- the calls of callbacks so far -/
  calls : List Call
  /-- the frames that the proxy has sent -/
  frames : List (List UInt8)

namespace Levels

/-- The state with another pump. -/
def setPump (s : Levels) (p : Pump) : Levels := { s with state := { s.state with pump := p } }

/-- The bytes that a callback gets. -/
def content (s : Levels) (buf : Option Elem) : List UInt8 := (buf.map s.state.pump.data).getD []

end Levels

/-! ## The functions -/

/-- `&level`, for a post of the level. It is so far from the pool. -/
def levelPointer (ptrOffset : ℤ) (level : UInt8) (memory : Memory) : Pointer :=
  { ptrOffset := ptrOffset, bytes := Function.update memory 0 level }

section Functions
variable (dataAddress : MsgId → ℤ) (levelOffset : ℤ) (s : Levels)

/-- `onNewPwrMeasurement` -/
def runNewPwrMeasurement (buf : Option Elem) (memory : Memory) : Option Levels :=
  match onNewPwrMeasurement s.thresholds (s.content buf) with
  | .switchAllOff => some { s with running := some .switchedOff }
  | .post color level =>
    match postMessage firmware s.state.pump msgIdRelativeBatteryVoltage
        (some (levelPointer levelOffset level memory)) with
    | .ok r => some { s.setPump r.2 with color := color, running := none }
    | .error _ => none

/-- `onRelativeMeasurement` -/
def runRelativeMeasurement (dataPtr : Option Elem) : Option Levels :=
  let counter := s.counter + 1
  if counter = distributionInterval then
    match postMessage firmware s.state.pump msgIdRelativeBatteryVoltageOut
        (dataPtr.map (pointerFrom dataAddress s.state.pump msgIdRelativeBatteryVoltageOut)) with
    | .ok r => some { s.setPump r.2 with counter := 0, running := none }
    | .error _ => none
  else some { s with counter := counter, running := none }

/-- `msgCallback` of the proxy -/
def runMsgCallback (id : MsgId) (data : Option Elem) : Levels :=
  let sent := MsgProxy.powerboardMap.msgCallback firmware s.sendState id
    fun k => (s.content data).getD k 0
  { s with frames := s.frames ++ sent.1, sendState := sent.2, running := none }

/-- The next step of the callback that runs. -/
def runLevels (memory : Memory) : LevelPc → Option Levels
  | .onNewPwrMeasurement buf => runNewPwrMeasurement levelOffset s buf memory
  | .switchedOff => none
  | .onRelativeMeasurement dataPtr => runRelativeMeasurement dataAddress s dataPtr
  | .msgCallback id data => some (runMsgCallback s id data)

/-- The call of a callback by the loop of the pump. `onRelativeBatteryVoltage` has no other step. -/
def calledLevels (dataPtr : Option Elem) (call : Call) : Levels :=
  if call.callback = Measuring.onNewPwrMeasurement then
    { s with running := some (.onNewPwrMeasurement dataPtr) }
  else if call.callback = onRelativeMeasurementAddress then
    { s with running := some (.onRelativeMeasurement dataPtr) }
  else if call.callback = onRelativeBatteryVoltageAddress then
    { s with buck := onRelativeBatteryVoltage s.buck (s.content dataPtr) }
  else if call.callback = MsgProxy.msgCallback then
    { s with running := some (.msgCallback call.id dataPtr) }
  else s

/-- A step of the loop of `msgPump_pumpMessage`, which waits for a running callback. -/
def dispatchLevels : Option Levels :=
  if s.running.isSome then none
  else
    match MsgPump.dispatch s.state with
    | .ok (state, none) => some { s with state := state }
    | .ok (state, some call) =>
      let dataPtr := (s.state.pump.msgQueue s.state.pump.msgQueueFront).buffer
      some (calledLevels { s with state := state, calls := s.calls ++ [call] } dataPtr call)
    | .error _ => none

end Functions

/-! ## The machine -/

inductive LevelAction
  /-- a step of the callback that runs -/
  | run
  | dispatch
  | setLowerVoltageEndoint (ipacket : List UInt8) (packetLen : UInt16)
  | setUpperVoltageEndoint (ipacket : List UInt8) (packetLen : UInt16)
  /-- another client posts a message -/
  | post (id : MsgId) (messageToPost : Pointer)
  | getFreeBuffer (id : MsgId)
  | lock (e : Elem)
  | unlock (e : Elem)
  /-- a client stores into an element -/
  | write (e : Elem) (content : List UInt8)

/-- The state after the action, in which the memory holds these bytes. -/
def levelStep (dataAddress : MsgId → ℤ) (levelOffset : ℤ) (s : Levels) (a : LevelAction)
    (memory : Memory) : Option Levels :=
  match a with
  | .run => s.running.bind (runLevels dataAddress levelOffset s memory)
  | .dispatch => dispatchLevels s
  | .setLowerVoltageEndoint ipacket len =>
    some { s with thresholds := (setLowerVoltageEndoint s.thresholds ipacket len).1 }
  | .setUpperVoltageEndoint ipacket len =>
    some { s with thresholds := (setUpperVoltageEndoint s.thresholds ipacket len).1 }
  | .post id ptr =>
    match postMessage firmware s.state.pump id (some ptr) with
    | .ok r => some (s.setPump r.2)
    | .error _ => none
  | .getFreeBuffer id =>
    match MsgPump.getFreeBuffer firmware s.state.pump id with
    | .ok r => some (s.setPump r.2)
    | .error _ => none
  | .lock e => some (s.setPump (lockMessage s.state.pump (some e)).2)
  | .unlock e => some (s.setPump (unlockMessage s.state.pump (some e)).2)
  | .write e content => some (s.setPump (s.state.pump.setData e content))

/-! ## What two runs should have in common -/

/-- The messages with a level that the callbacks have seen. -/
def Levels.levelCalls (s : Levels) : List Call :=
  s.calls.filter fun call =>
    call.id = msgIdRelativeBatteryVoltage ∨ call.id = msgIdRelativeBatteryVoltageOut

/-- In both runs the callbacks see the same messages with a level, and the proxy sends the same
frames. -/
def SamePublished (p : Levels × Levels) : Prop :=
  p.1.levelCalls = p.2.levelCalls ∧ p.1.frames = p.2.frames

/-- The pool of `MSG_ID_RELATIVE_BATTERY_VOLTAGE`, declared with `batteryVoltageLevel_t`. -/
def relativeBatteryVoltageBuf : BufDescription :=
  MessageType.batteryVoltageLevel.pool 2 msgIdRelativeBatteryVoltage

/-- `onNewPwrMeasurement` posts a level, and it is copied into an element of the pool: the queue has
room, the local variable is not in the pool, and an element is free. -/
def PostCopies (levelOffset : ℤ) (s : Levels) (buf : Option Elem) : Prop :=
  s.thresholds.lowThresh < (systemPowerStateAt (s.content buf)).batteryVoltcV ∧
    ¬ (s.state.pump.msgQueueFront = s.state.pump.msgQueueTail ∧ s.state.pump.msgQueueSize ≠ 0) ∧
    ¬ ((msgOverhead : ℤ) ≤ levelOffset ∧
      levelOffset < relativeBatteryVoltageBuf.msgAmount *
        (msgOverhead + relativeBatteryVoltageBuf.msgSize : ℤ)) ∧
    ∃ i < relativeBatteryVoltageBuf.msgAmount,
      (s.state.pump.header ⟨msgIdRelativeBatteryVoltage, i⟩).IsFree

instance (levelOffset : ℤ) (s : Levels) (buf : Option Elem) :
    Decidable (PostCopies levelOffset s buf) :=
  inferInstanceAs (Decidable (_ ∧ _ ∧ _ ∧ ∃ _ < _, _))

/-- The step is one in which a level is copied. -/
def CopiesLevel (levelOffset : ℤ) (s : Levels) (a : LevelAction) : Prop :=
  match a, s.running with
  | .run, some (.onNewPwrMeasurement buf) => PostCopies levelOffset s buf
  | _, _ => False

instance (levelOffset : ℤ) (s : Levels) :
    (a : LevelAction) → Decidable (CopiesLevel levelOffset s a)
  | .run =>
    match hpc : s.running with
    | some (.onNewPwrMeasurement buf) =>
      decidable_of_iff (PostCopies levelOffset s buf) (by simp [CopiesLevel, hpc])
    | none | some .switchedOff | some (.onRelativeMeasurement _) | some (.msgCallback _ _) =>
      isFalse (by simp [CopiesLevel, hpc])
  | .dispatch | .setLowerVoltageEndoint _ _ | .setUpperVoltageEndoint _ _ => isFalse id
  | .post _ _ | .getFreeBuffer _ | .lock _ | .unlock _ | .write _ _ => isFalse id

/-- If the level is copied, the bytes behind it up to the size of an element are the same in both
runs. -/
def SameBehindLevel (levelOffset : ℤ) (p : Levels × Levels) (a : LevelAction × Memory × Memory) :
    Prop :=
  CopiesLevel levelOffset p.1 a.1 →
    ∀ k < relativeBatteryVoltageBuf.msgSize, 1 ≤ k → a.2.1 k = a.2.2 k

instance (levelOffset : ℤ) (p : Levels × Levels) (a : LevelAction × Memory × Memory) :
    Decidable (SameBehindLevel levelOffset p a) :=
  inferInstanceAs (Decidable (CopiesLevel levelOffset p.1 a.1 → _))

end Powerboard.PowerCheck
