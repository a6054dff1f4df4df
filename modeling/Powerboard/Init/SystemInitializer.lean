import Powerboard.MsgPump.Callbacks
import Powerboard.PowerCheck.Distribution
import Powerboard.Protocol.Commands

/-!
# The start of the board

`systemInitializer.c` with the initialisation functions of the modules, as far as they touch the
message pump. The linker collects the pointers to these functions level by level, and in any order
inside a level; `main` calls them, and then the loop of the pump.

Interrupts come between the calls: clients of the pump, and the software timer, which registers one
more callback 100 ms after the level of `buck.c`. Before `memory_init` the RAM holds anything.
-/

namespace Powerboard.SystemInitializer

open MsgPump GenericProtocol PowerCheck

/-! ## The callbacks -/

/-- The address of `onSystemMeasurement` -/
def onSystemMeasurementAddress : Callback := 5

/-! ## The modules -/

/-- What an initialisation function calls. -/
inductive InitCall
  /-- the body of `memory_init` -/
  | memoryInit
  /-- the body of `msgPump_init` -/
  | msgPumpInit
  /-- the body of `init` of the hardware timer -/
  | hwTimerInit
  /-- the body of `swTimerInit` -/
  | swTimerInit
  /-- `msgPump_registerOnMessage` -/
  | registerOnMessage (id : MsgId) (callback : Callback)
  /-- the body of `genericProtocol_init` -/
  | genericProtocolInit
  /-- `swTimer_registerOnTimer` with `onLateInitTimer` -/
  | registerOnLateInitTimer
  deriving DecidableEq

/-- The names in the `MODULE_INIT_FUNCTION` lines. -/
inductive Module
  | clockInit
  | memory
  | system
  | timer
  | msgPump
  | gpioInterrupts
  | swTimer
  | genericFlawLessProtocolPacketDispatcher
  | genericProtocol
  | pwrCheck1
  | led
  | buck
  | ledLate
  | configuration
  | motorPWR
  | measuring
  | comm2pwrBrd
  | dataDistribution
  deriving DecidableEq

/-- The modules of the firmware. -/
def modules : List Module :=
  [.clockInit, .memory, .system, .timer, .msgPump, .gpioInterrupts, .swTimer,
    .genericFlawLessProtocolPacketDispatcher, .genericProtocol, .pwrCheck1, .led, .buck, .ledLate,
    .configuration, .motorPWR, .measuring, .comm2pwrBrd, .dataDistribution]

namespace Module

/-- `initLevel` of `MODULE_INIT_FUNCTION` -/
def initLevel : Module → ℕ
  | clockInit => 0
  | memory => 1
  | system | timer | msgPump => 2
  | gpioInterrupts => 3
  | swTimer => 4
  | genericFlawLessProtocolPacketDispatcher | genericProtocol | pwrCheck1 | led => 5
  | buck => 8
  | ledLate | configuration | motorPWR | measuring | comm2pwrBrd | dataDistribution => 9

/-- `function` of `MODULE_INIT_FUNCTION` -/
def initFunction : Module → List InitCall
  | memory => [.memoryInit]
  | timer => [.hwTimerInit]
  | msgPump => [.msgPumpInit]
  | swTimer => [.swTimerInit]
  | genericFlawLessProtocolPacketDispatcher =>
    [.registerOnMessage msgIdGenericProtocolPacketReady onReceivedPacketMsgPumpCallback]
  | genericProtocol => [.genericProtocolInit]
  | pwrCheck1 => [.registerOnMessage msgIdSystemPowerState Measuring.onNewPwrMeasurement]
  | buck => [.registerOnLateInitTimer]
  | motorPWR => [.registerOnMessage msgIdUserMotorSwitch MsgProxy.msgCallback]
  | measuring =>
    [ .registerOnMessage msgIdVoltageRaw Measuring.onRawMeasurement,
      .registerOnMessage msgIdVoltageCalibration Measuring.onRawCalibMeasurement ]
  | dataDistribution =>
    [ .registerOnMessage msgIdSystemPowerState onSystemMeasurementAddress,
      .registerOnMessage msgIdRelativeBatteryVoltage onRelativeMeasurementAddress,
      .registerOnMessage msgIdSystemPowerStateOut MsgProxy.msgCallback,
      .registerOnMessage msgIdRelativeBatteryVoltageOut MsgProxy.msgCallback ]
  -- they touch neither the pump nor the timer of `buck.c`
  | clockInit | system | gpioInterrupts | led | ledLate | configuration | comm2pwrBrd => []

end Module

/-- The calls of the function behind a pointer, which may be null. -/
def callsOf (funcPtr : Option Module) : List InitCall := (funcPtr.map Module.initFunction).getD []

/-- What the linker puts between `_initFunctions_Begin` and `_initFunctions_End`: every module once,
level by level. -/
structure Linked (initFunctions : List (Option Module)) : Prop where
  perm : (initFunctions.filterMap id).Perm modules
  sorted : (initFunctions.filterMap id).Pairwise fun m m' => m.initLevel ≤ m'.initLevel

instance (initFunctions : List (Option Module)) : Decidable (Linked initFunctions) :=
  decidable_of_iff
    ((initFunctions.filterMap id).Perm modules ∧
      (initFunctions.filterMap id).Pairwise fun m m' => m.initLevel ≤ m'.initLevel)
    ⟨fun h => ⟨h.1, h.2⟩, fun h => ⟨h.perm, h.sorted⟩⟩

/-! ## `g_messageBuffers` -/

section Declare
variable {t : BufTable} {d : BufDescription}

lemma id_eq_of_declared (id : MsgId) (d' : BufDescription)
    (h : Function.update t.messageBuffers d.id (some d) id = some d') : d'.id = id := by
  by_cases hid : id = d.id
  · subst hid
    rw [Function.update_self, Option.some.injEq] at h
    rw [h]
  · rw [Function.update_of_ne hid] at h
    exact t.id_eq id d' h

lemma id_range_of_declared (hd : systemFirstId ≤ d.id ∧ d.id < lastId) (id : MsgId)
    (d' : BufDescription) (h : Function.update t.messageBuffers d.id (some d) id = some d') :
    systemFirstId ≤ id ∧ id < lastId := by
  by_cases hid : id = d.id
  · subst hid
    exact hd
  · rw [Function.update_of_ne hid] at h
    exact t.id_range id d' h

end Declare

/-- An assignment to `g_messageBuffers`. -/
def declare (t : BufTable) (d : BufDescription) : BufTable :=
  if hd : systemFirstId ≤ d.id ∧ d.id < lastId then
    { messageBuffers := Function.update t.messageBuffers d.id (some d)
      id_eq := id_eq_of_declared
      id_range := id_range_of_declared hd }
  else t

/-- `g_messageBuffers` with nothing but null pointers. -/
def nothingDeclared : BufTable where
  messageBuffers _ := none
  id_eq := by
    intro id d h
    cases h
  id_range := by
    intro id d h
    cases h

/-! ## The state -/

/-- The board while `main` runs. -/
structure Boot where
  /-- the pointers from `funcPtr` on -/
  initFunctions : List (Option Module)
  /-- what the running initialisation function still calls -/
  calls : List InitCall
  /-- `g_messageBuffers`, if each of its entries is null or points to the description of its id -/
  messageBuffers : Option BufTable
  state : PumpState
  /-- the hardware timer can interrupt -/
  hwTimer : Bool
  /-- `onLateInitTimer` is in a handle of the software timer -/
  lateInitTimer : Bool
  /-- `onLateInitTimer` was called -/
  lateInitDone : Bool
  /-- a registration was refused -/
  refused : Bool
  /-- the pump was used by its clients or its loop -/
  used : Bool

namespace Boot

/-- `systemInitialize` has returned. -/
def Initialized (s : Boot) : Prop := s.initFunctions = [] ∧ s.calls = []

instance (s : Boot) : Decidable s.Initialized :=
  inferInstanceAs (Decidable (_ ∧ _))

/-- The calls that are still to come. -/
def toCall (s : Boot) : List InitCall := s.calls ++ s.initFunctions.flatMap callsOf

end Boot

/-- Zeros in every element. -/
def zeroData (e : Elem) : List UInt8 :=
  List.replicate (((firmware.messageBuffers e.id).map (·.msgSize)).getD 0) 0

/-- The globals of the message pump after `memory_init`. -/
def zeroPump : Pump :=
  { msgQueueFront := 0
    msgQueueTail := 0
    msgQueueSize := 0
    msgQueue := fun _ => { id := 0, buffer := none, bufferDescription := none }
    header := fun _ => { headerMagic := 0, refCnt := 0, flags := .nothing }
    data := zeroData
    callbackVector := fun _ _ => none
    nullHeaderWrites := 0 }

/-! ## The functions -/

/-- `memory_init` -/
def memoryInit (s : Boot) : Boot :=
  { s with
    messageBuffers := some nothingDeclared
    state := { s.state with pump := zeroPump }
    lateInitTimer := false }

/-- `msgPump_init`: every description is entered, every element of its pool gets the magic and zeros,
and the queue is emptied. -/
def msgPumpInit (s : Boot) : Boot :=
  let pump := { s.state.pump with
    header := fun _ => { headerMagic := magic, refCnt := 0, flags := .nothing }
    data := zeroData
    msgQueue := fun _ => { id := 0, buffer := none, bufferDescription := none }
    msgQueueFront := 0
    msgQueueSize := 0
    msgQueueTail := 0 }
  { s with
    messageBuffers := s.messageBuffers.map fun t => msgPumpDescriptions.foldl declare t
    state := { s.state with pump := pump } }

/-- A call of `msgPump_registerOnMessage`. -/
def register (s : Boot) (id : MsgId) (callback : Callback) : Option Boot :=
  match s.messageBuffers with
  | none => none
  | some t =>
    match registerOnMessage t s.state.pump id (some callback) with
    | .ok r =>
      some { s with
        state := { s.state with pump := r.2 }
        refused := s.refused || !r.1 }
    | .error _ => none

/-- `genericProtocol_init`, for the one interface: the receiver takes a packet, if one is free. -/
def genericProtocolInit (s : Boot) : Option Boot :=
  s.messageBuffers.map fun t =>
    let receiving := GenericProtocol.init (pumpPool t) 0 s.state.pump
    { s with state := { s.state with pump := receiving.world } }

/-- One call of an initialisation function. -/
def runInitCall (s : Boot) : InitCall → Option Boot
  | .memoryInit => some (memoryInit s)
  | .msgPumpInit => some (msgPumpInit s)
  | .hwTimerInit => some { s with hwTimer := true }
  | .swTimerInit => some { s with lateInitTimer := false }
  | .registerOnMessage id callback => register s id callback
  | .genericProtocolInit => genericProtocolInit s
  | .registerOnLateInitTimer => some { s with lateInitTimer := true }

/-- The next step of `systemInitialize`. -/
def systemInitialize (s : Boot) : Option Boot :=
  match s.calls with
  | call :: calls => runInitCall { s with calls := calls } call
  | [] =>
    match s.initFunctions with
    | some m :: rest => some { s with initFunctions := rest, calls := m.initFunction }
    | none :: rest => some { s with initFunctions := rest }
    | [] => none

/-- `onLateInitTimer`, called by the software timer once. -/
def onLateInitTimer (s : Boot) : Option Boot :=
  if s.hwTimer ∧ s.lateInitTimer then
    register { s with lateInitTimer := false, lateInitDone := true }
      msgIdRelativeBatteryVoltage onRelativeBatteryVoltageAddress
  else none

inductive BootAction
  /-- the next step of `systemInitialize` -/
  | next
  /-- `onLateInitTimer` interrupts -/
  | timeout
  /-- a client of the pump, or after `systemInitialize` its loop -/
  | pump (a : Action)

/-- The action is not a step of the loop of the pump. -/
def OfClient : Action → Prop
  | .dispatch => False
  | .post _ _ | .getFreeBuffer _ | .lock _ | .unlock _ => True

instance : DecidablePred OfClient
  | .dispatch => isFalse id
  | .post _ _ | .getFreeBuffer _ | .lock _ | .unlock _ => isTrue trivial

/-- The state after the action, if it has no undefined behaviour. -/
def bootStep (s : Boot) : BootAction → Option Boot
  | .next => systemInitialize s
  | .timeout => onLateInitTimer s
  | .pump a =>
    if s.Initialized ∨ OfClient a then
      s.messageBuffers.bind fun t =>
        (step t s.state a).map fun state => { s with state := state, used := true }
    else none

/-! ## What holds while the board runs -/

/-- What the initialisation functions register. -/
def registrations : List (MsgId × Callback) :=
  [ (msgIdGenericProtocolPacketReady, onReceivedPacketMsgPumpCallback),
    (msgIdSystemPowerState, Measuring.onNewPwrMeasurement),
    (msgIdUserMotorSwitch, MsgProxy.msgCallback),
    (msgIdVoltageRaw, Measuring.onRawMeasurement),
    (msgIdVoltageCalibration, Measuring.onRawCalibMeasurement),
    (msgIdSystemPowerState, onSystemMeasurementAddress),
    (msgIdRelativeBatteryVoltage, onRelativeMeasurementAddress),
    (msgIdSystemPowerStateOut, MsgProxy.msgCallback),
    (msgIdRelativeBatteryVoltageOut, MsgProxy.msgCallback) ]

/-- What `onLateInitTimer` registers. -/
def lateRegistration : MsgId × Callback :=
  (msgIdRelativeBatteryVoltage, onRelativeBatteryVoltageAddress)

/-- The board after a reset: the RAM holds anything, and the timer does not run. -/
structure AtReset (s : Boot) : Prop where
  linked : Linked s.initFunctions
  calls : s.calls = []
  pc : s.state.pc = .waiting
  hwTimer : s.hwTimer = false
  lateInitDone : s.lateInitDone = false
  refused : s.refused = false
  used : s.used = false

/-- What `systemInitialize` leaves, and the running board keeps. -/
structure Started (s : Boot) : Prop where
  declared : s.messageBuffers = some firmware
  wellFormed : WellFormed firmware s.state
  /-- nothing else is registered -/
  registered : ∀ id callback, s.state.pump.Registered id callback ↔
    (id, callback) ∈ registrations ∨ s.lateInitDone = true ∧ (id, callback) = lateRegistration
  differ : s.state.pump.CallbacksDiffer
  accepted : s.refused = false
  /-- the power check sees a power state before it is distributed -/
  powerCheckFirst :
    s.state.pump.callbackVector msgIdSystemPowerState 0 = some Measuring.onNewPwrMeasurement
  dispatcher : ∃ slot, DispatcherRegistered s.state.pump.callbackVector slot
  /-- the registration of `buck.c` is done, or it is waited for -/
  late : s.lateInitTimer = !s.lateInitDone
  /-- as long as no one else has used the pump, it is as the runs of the receiver begin: only the
  packet of the receiver is reserved -/
  fresh : s.used = false →
    s.state = (receptionStart firmware 0 s.state.pump.callbackVector zeroData).pumpState

end Powerboard.SystemInitializer
