import Powerboard.Init.SystemInitializerTheorems
import Powerboard.Library.Sampling
import Powerboard.MsgPump.DeliveryTheorems
import Powerboard.MsgPump.Memory
import Powerboard.PowerCheck.Limits

/-!
# The way of a power state

What becomes of a power state on the board: `onNewPwrMeasurement` of `powerCheck.c` switches the board
off or posts a level, `dataDistribution.c` posts every 50th state and every 50th level for the outside,
`buck.c` starts the converter at the first level that is not 0, `msgCallback` of the proxy sends what is
for the outside, and the packet dispatcher calls the endpoints of `powerCheck.c`.

The callbacks run in the loop of the pump, whose next step waits for them. Interrupts that keep the
rules of the pump come between all steps, and one of them is the timer with which `buck.c` registers.
What other modules do in the loop (the measurement, other endpoints) keeps these rules as well.
-/

namespace Powerboard.Application

open MsgPump GenericProtocol PowerCheck SystemInitializer

/-! ## The distribution -/

/-- The two callbacks of `dataDistribution.c`. -/
inductive Distributor
  | onSystemMeasurement
  | onRelativeMeasurement
  deriving DecidableEq

namespace Distributor

def address : Distributor → Callback
  | onSystemMeasurement => onSystemMeasurementAddress
  | onRelativeMeasurement => onRelativeMeasurementAddress

/-- The message that the callback is registered for. -/
def source : Distributor → MsgId
  | onSystemMeasurement => msgIdSystemPowerState
  | onRelativeMeasurement => msgIdRelativeBatteryVoltage

/-- The message that the callback posts. -/
def out : Distributor → MsgId
  | onSystemMeasurement => msgIdSystemPowerStateOut
  | onRelativeMeasurement => msgIdRelativeBatteryVoltageOut

end Distributor

/-! ## The state -/

/-- The callback that runs. -/
inductive AppPc
  | onNewPwrMeasurement (buf : Option Elem)
  /-- in the endless loop of `switchAllOff` -/
  | switchedOff
  | distributing (d : Distributor) (dataPtr : Option Elem)
  | msgCallback (id : MsgId) (data : Option Elem)
  /-- the packet dispatcher -/
  | receivedPacket (id : MsgId) (buffer : Option Elem)
  deriving DecidableEq

/-- A power state that `onNewPwrMeasurement` has let pass. -/
structure Passed where
  thresholds : Globals
  content : List UInt8
  /-- its level was posted -/
  accepted : Bool
  deriving DecidableEq

namespace Passed

def batteryVoltcV (p : Passed) : UInt32 := (systemPowerStateAt p.content).batteryVoltcV

def level (p : Passed) : UInt8 := relativeLevel p.thresholds p.batteryVoltcV

end Passed

/-- The message pump with its clients and the callbacks of a power state. -/
structure App where
  clients : Clients
  thresholds : Globals
  /-- what `setLEDColor` was last called with -/
  color : LedColor
  buck : Buck
  /-- `counter` of the callback -/
  counter : Distributor → UInt32
  sendState : ℕ → SendState
  running : Option AppPc
  passed : List Passed
  /-- what was posted for the outside, and whether it was accepted -/
  offers : Distributor → List (List UInt8 × Bool)
  /-- the frames that the proxy has sent -/
  frames : List (List UInt8)
  /-- the frames that `getLimitsEndoint` has replied with -/
  replies : List (List UInt8)
  /-- `onLateInitTimer` is still to come -/
  lateInitTimer : Bool
  /-- of how many levels the loop was past the callback of `buck.c` when that was registered -/
  missed : ℕ

namespace App

/-- The bytes that a callback gets. -/
def content (s : App) (buf : Option Elem) : List UInt8 :=
  (buf.map s.clients.state.pump.data).getD []

end App

/-! ## What a callback is still to get -/

/-- The contents of the messages with this id. -/
def contentsOf (messages : List (MsgId × List UInt8)) (id : MsgId) : List (List UInt8) :=
  messages.filterMap fun message => if message.1 = id then some message.2 else none

/-- With the loop there, the callback was called for the message at the front. -/
def Past (p : Pump) (id : MsgId) (callback : Callback) : DispatchPc → Prop
  | .calling i => ∃ k < i, p.callbackVector id k = some callback
  | .cleared => True
  | .waiting | .unlocked => False

instance (p : Pump) (id : MsgId) (callback : Callback) : DecidablePred (Past p id callback)
  | .calling i => inferInstanceAs (Decidable (∃ k < i, p.callbackVector id k = some callback))
  | .cleared => isTrue trivial
  | .waiting | .unlocked => isFalse not_false

/-- The messages with this id that the callback is still to get. -/
def ahead (s : PumpState) (id : MsgId) (callback : Callback) : List Elem :=
  (if Past s.pump id callback s.pc then s.held.tail else s.held).filter fun e => e.id = id

/-! ## The functions -/

/-- `msgPump_postMessage` with a pointer to something outside of the pool of the id. -/
def postOwn (c : Clients) (id : MsgId) (ptr : Pointer) : Option (Bool × Clients) :=
  (firmware.messageBuffers id).bind fun d =>
    match postMessage firmware c.state.pump id (some ptr) with
    | .ok r => some (r.1, c.post (id, copied d ptr) r)
    | .error _ => none

section Functions
variable (layout : Layout firmware) (levelOffset : ℤ) (s : App)

/-- `onNewPwrMeasurement`, with what lies behind its local variable `level` in memory -/
def runNewPwrMeasurement (buf : Option Elem) (memory : Memory) : Option App :=
  match PowerCheck.onNewPwrMeasurement s.thresholds (s.content buf) with
  | .switchAllOff => some { s with running := some .switchedOff }
  | .post color level =>
    (postOwn s.clients msgIdRelativeBatteryVoltage (levelPointer levelOffset level memory)).map
      fun r =>
        { s with
          clients := r.2
          color := color
          running := none
          passed := s.passed ++
            [{ thresholds := s.thresholds, content := s.content buf, accepted := r.1 }] }

/-- The common body of `onSystemMeasurement` and `onRelativeMeasurement`. No client posts a null
pointer, so that there is an element. -/
def distribute (d : Distributor) (dataPtr : Option Elem) : Option App :=
  let counter := s.counter d + 1
  if counter = distributionInterval then
    dataPtr.bind fun e =>
      (postOwn s.clients d.out
        (Measuring.pointerFrom (fun id => layout.data id) s.clients.state.pump d.out e)).map fun r =>
          { s with
            clients := r.2
            counter := Function.update s.counter d 0
            running := none
            offers := Function.update s.offers d (s.offers d ++ [(s.content dataPtr, r.1)]) }
  else some { s with counter := Function.update s.counter d counter, running := none }

/-- `onSystemMeasurement` -/
def onSystemMeasurement (dataPtr : Option Elem) : Option App :=
  distribute layout s .onSystemMeasurement dataPtr

/-- `onRelativeMeasurement` -/
def onRelativeMeasurement (dataPtr : Option Elem) : Option App :=
  distribute layout s .onRelativeMeasurement dataPtr

/-- `msgCallback` of the proxy -/
def runMsgCallback (id : MsgId) (data : Option Elem) : App :=
  let sent := MsgProxy.powerboardMap.msgCallback firmware s.sendState id
    fun k => (s.content data).getD k 0
  { s with frames := s.frames ++ sent.1, sendState := sent.2, running := none }

/-- The endpoint for a command. What the first two save is read at the next start of the board. -/
def callEndpoint (c : Command) : App :=
  if c.callback = setLowerVoltageEndointAddress then
    { s with
      thresholds := (setLowerVoltageEndoint s.thresholds c.payload c.packetLen).1
      running := none }
  else if c.callback = setUpperVoltageEndointAddress then
    { s with
      thresholds := (setUpperVoltageEndoint s.thresholds c.payload c.packetLen).1
      running := none }
  else if c.callback = getLimitsEndointAddress then
    { s with
      replies := s.replies ++
        [sendMessage s.sendState c.interface 100 (limitsReply s.thresholds)]
      running := none }
  else if c.callback = masterOffAddress ∧ 0 < c.packetLen ∧ c.payload.getD 0 0 ≠ 0 then
    { s with running := some .switchedOff }
  else { s with running := none }

/-- `onReceivedPacket_msgPumpCallback` -/
def runReceivedPacket (id : MsgId) (buffer : Option Elem) : App :=
  let packet := Packet.decode (s.content buffer)
  match if id = msgIdGenericProtocolPacketReady then commandOf packet else none with
  | some c => callEndpoint s c
  | none => { s with running := none }

/-- The next step of the callback that runs. -/
def runCallback (memory : Memory) : AppPc → Option App
  | .onNewPwrMeasurement buf => runNewPwrMeasurement levelOffset s buf memory
  | .switchedOff => none
  | .distributing .onSystemMeasurement dataPtr => onSystemMeasurement layout s dataPtr
  | .distributing .onRelativeMeasurement dataPtr => onRelativeMeasurement layout s dataPtr
  | .msgCallback id data => some (runMsgCallback s id data)
  | .receivedPacket id buffer => some (runReceivedPacket s id buffer)

/-- The callback that is called, if it has steps: `onRelativeBatteryVoltage` is one with its call, and
the other callbacks have none here. -/
def entered (dataPtr : Option Elem) (call : Call) : Option AppPc :=
  if call.callback = Measuring.onNewPwrMeasurement then some (.onNewPwrMeasurement dataPtr)
  else if call.callback = onSystemMeasurementAddress then
    some (.distributing .onSystemMeasurement dataPtr)
  else if call.callback = onRelativeMeasurementAddress then
    some (.distributing .onRelativeMeasurement dataPtr)
  else if call.callback = MsgProxy.msgCallback then some (.msgCallback call.id dataPtr)
  else if call.callback = onReceivedPacketMsgPumpCallback then
    some (.receivedPacket call.id dataPtr)
  else none

/-- The call of a callback by the loop of the pump. -/
def called (dataPtr : Option Elem) (call : Call) : App :=
  if call.callback = onRelativeBatteryVoltageAddress then
    { s with buck := onRelativeBatteryVoltage s.buck (s.content dataPtr) }
  else { s with running := entered dataPtr call }

/-- A step of the loop of `msgPump_pumpMessage`, which waits for a running callback. -/
def dispatchNext : Option App :=
  if s.running.isSome then none
  else
    match MsgPump.dispatch s.clients.state with
    | .ok (state, none) => some { s with clients := { s.clients with state := state } }
    | .ok (state, some call) =>
      let dataPtr := (s.clients.state.pump.msgQueue s.clients.state.pump.msgQueueFront).buffer
      some (called
        { s with clients := { s.clients with state := state, calls := s.clients.calls ++ [call] } }
        dataPtr call)
    | .error _ => none

/-- `onLateInitTimer` -/
def onLateInitTimer : Option App :=
  match registerOnMessage firmware s.clients.state.pump msgIdRelativeBatteryVoltage
      (some onRelativeBatteryVoltageAddress) with
  | .ok r =>
    let clients := s.clients.setPump r.2
    some { s with
      clients := clients
      lateInitTimer := false
      missed := (contentsOf clients.posted msgIdRelativeBatteryVoltage).length -
        (ahead clients.state msgIdRelativeBatteryVoltage onRelativeBatteryVoltageAddress).length }
  | .error _ => none

end Functions

/-! ## The machine -/

inductive AppAction
  /-- a step of the callback that runs, in which the memory behind its local variables is this -/
  | run (memory : Memory)
  | dispatch
  /-- another client of the pump -/
  | client (a : ClientAction)
  /-- the timer interrupts, 100 ms after the start -/
  | onLateInitTimer

/-- A client posts a message with this id. -/
def Posts (id : MsgId) : ClientAction → Prop
  | .postOwn id' _ => id' = id
  | .postReserved e => e.id = id
  | _ => False

/-- The state after the action, if it can be taken. -/
def appStep (layout : Layout firmware) (levelOffset : ℤ) (s : App) :
    AppAction → Option App
  | .run memory => s.running.bind (runCallback layout levelOffset s memory)
  | .dispatch => dispatchNext s
  | .client .dispatch => none
  | .client a => (clientStep firmware s.clients a).map fun clients => { s with clients := clients }
  | .onLateInitTimer => if s.lateInitTimer then onLateInitTimer s else none

/-- The start, with any thresholds from the configuration. -/
def appStart (callbackVector : MsgId → ℕ → Option Callback) (lateInitTimer : Bool)
    (data : Elem → List UInt8) (thresholds : Globals) : App :=
  { clients := Clients.initial callbackVector data
    thresholds := thresholds
    color := { red := 0, green := 0, blue := 0 }
    buck := { enableSwitcher := false, switcherStarted := false }
    counter := fun _ => 0
    sendState := fun _ => .zeroed
    running := none
    passed := []
    offers := fun _ => []
    frames := []
    replies := []
    lateInitTimer := lateInitTimer
    missed := 0 }

/-- The local variable `level` of `onNewPwrMeasurement` is outside of the pool of its message. -/
def LevelOutside (levelOffset : ℤ) : Prop :=
  ¬ ((msgOverhead : ℤ) ≤ levelOffset ∧ levelOffset <
    relativeBatteryVoltageBuf.msgAmount * (msgOverhead + relativeBatteryVoltageBuf.msgSize : ℤ))

/-! ## What holds in every run -/

/-- The contents with which the calls call the callback for the message. -/
def givenTo (calls : List Call) (id : MsgId) (callback : Callback) : List (List UInt8) :=
  calls.filterMap fun call =>
    if call.id = id ∧ call.callback = callback then call.content else none

namespace App

/-- The calls of callbacks that have returned. -/
def returned (s : App) : List Call :=
  if s.running.isSome then s.clients.calls.dropLast else s.clients.calls

/-- The contents posted with this id. -/
def posted (s : App) (id : MsgId) : List (List UInt8) := contentsOf s.clients.posted id

/-- The contents that the callback was given for the message. -/
def given (s : App) (id : MsgId) (callback : Callback) : List (List UInt8) :=
  givenTo s.clients.calls id callback

end App

/-- The first bytes of a message, as many as the pool of this id has room for. -/
def firstBytes (id : MsgId) (content : List UInt8) : List UInt8 :=
  (List.range (((firmware.messageBuffers id).map (·.msgSize)).getD 0)).map fun k => content.getD k 0

/-- The frame that the proxy sends in a call. -/
def framesOf (call : Call) : List (List UInt8) :=
  if call.callback = MsgProxy.msgCallback then
    ((MsgProxy.outgoingMessage firmware call.id (firstBytes call.id (call.content.getD []))).map
      fun payload => sendMessage (fun _ => .zeroed) 0 MsgProxy.msgProxyEndpointId payload).toList
  else []

/-- The callbacks as the start of the board leaves them, with that of `buck.c` or before it. -/
structure FirmwareCallbacks (callbackVector : MsgId → ℕ → Option Callback) (lateInitTimer : Bool) :
    Prop where
  registered : ∀ r ∈ registrations, ∃ i < maxReceivers, callbackVector r.1 i = some r.2
  known : ∀ id i callback, i < maxReceivers → callbackVector id i = some callback →
    (id, callback) ∈ known
  differ : ∀ id i j callback, i < maxReceivers → j < maxReceivers →
    callbackVector id i = some callback → callbackVector id j = some callback → i = j
  powerCheckFirst : callbackVector msgIdSystemPowerState 0 = some Measuring.onNewPwrMeasurement
  late : (∃ i < maxReceivers, callbackVector msgIdRelativeBatteryVoltage i =
    some onRelativeBatteryVoltageAddress) ↔ lateInitTimer = false

/-- What is sent, from the post of a message to the frame on the wire. -/
structure Distributed (s : App) : Prop where
  /-- a callback gets what is posted, in order, except for what is still queued -/
  given : ∀ d : Distributor, s.given d.source d.address <+: s.posted d.source
  missing : ∀ d : Distributor, (s.posted d.source).length ≤
    (s.given d.source d.address).length + s.clients.state.pump.msgQueueSize
  /-- of what the callback got, every 50th is posted for the outside -/
  offered : ∀ d, (s.offers d).map (·.1) =
    Sampling.everyNth 50 (givenTo s.returned d.source d.address)
  /-- and queued, unless the post fails -/
  accepted : ∀ d, (((s.offers d).filter (·.2)).map fun offer => firstBytes d.out offer.1).Sublist
    (s.posted d.out)
  /-- the proxy gets what is posted for the outside -/
  forwarded : ∀ d : Distributor, s.given d.out MsgProxy.msgCallback <+: s.posted d.out
  unsent : ∀ d : Distributor, (s.posted d.out).length ≤
    (s.given d.out MsgProxy.msgCallback).length + s.clients.state.pump.msgQueueSize
  /-- and sends a frame for each message it gets -/
  sent : s.frames = s.returned.flatMap framesOf

/-- What is let pass, and what is not. -/
structure Checked (s : App) : Prop where
  /-- every power state is checked, and let pass but for the last one -/
  checked : ∃ last : List (List UInt8), last.length ≤ 1 ∧
    s.given msgIdSystemPowerState Measuring.onNewPwrMeasurement =
      s.passed.map (·.content) ++ last ∧
    (last = [] ∨ s.running = some .switchedOff ∨
      ∃ buf, s.running = some (.onNewPwrMeasurement buf))
  /-- each was above the low threshold when it was let pass -/
  above : ∀ p ∈ s.passed, p.thresholds.lowThresh < p.batteryVoltcV
  /-- nothing else is distributed -/
  distributed : s.given msgIdSystemPowerState onSystemMeasurementAddress <+:
    s.passed.map (·.content)

/-- A packet with which `masterOff` switches the board off. -/
def MasterOff (packet : Packet) : Prop :=
  packet.subProtocolID = 100 ∧ 0 < packet.payloadLen ∧ packet.payload.getD 0 0 ≠ 0

/-- The call switches the board off: the voltage is not above the low threshold, or it is for
`masterOff`. -/
def SwitchesOff (lowThresh : UInt32) (call : Call) : Prop :=
  ∃ content, call.content = some content ∧
    (call.callback = Measuring.onNewPwrMeasurement ∧ call.id = msgIdSystemPowerState ∧
        (systemPowerStateAt content).batteryVoltcV ≤ lowThresh ∨
      call.callback = onReceivedPacketMsgPumpCallback ∧
        call.id = msgIdGenericProtocolPacketReady ∧ MasterOff (Packet.decode content))

/-- The board switches itself off in such a call only. -/
def OffForReason (s : App) : Prop :=
  s.running = some .switchedOff → ∃ before call,
    s.clients.calls = before ++ [call] ∧ SwitchesOff s.thresholds.lowThresh call

/-- From here on nothing is called, sent, posted by a callback or set. -/
structure StaysOff (s t : App) : Prop where
  running : t.running = some .switchedOff
  calls : t.clients.calls = s.clients.calls
  thresholds : t.thresholds = s.thresholds
  passed : t.passed = s.passed
  offers : t.offers = s.offers
  frames : t.frames = s.frames
  replies : t.replies = s.replies
  buck : t.buck = s.buck

/-- The levels posted are those of the power states let pass. -/
def LevelsPosted (s : App) : Prop :=
  (s.posted msgIdRelativeBatteryVoltage).map (fun content => content.getD 0 0) =
    (s.passed.filter (·.accepted)).map Passed.level

/-- No other client posts this message. -/
def OthersKeepOff (id : MsgId) (_ : App) (a : AppAction) : Prop :=
  ∀ b, a = .client b → ¬ Posts id b

end Powerboard.Application
