import Powerboard.Protocol.Dispatcher

/-!
# Commands

The way of a packet from the wire to an endpoint: the receiver fills an element of the packet pool
and posts it, the loop of the message pump calls the packet dispatcher, and that calls the endpoint
with a pointer into the element. The loop waits until the endpoint returns; interrupts, the receiver
among them, may come between any two steps.

The state carries, besides the firmware, three histories: the bytes that were received, the packets
that were posted, each with the number of the byte that ended it, and the calls of the endpoints.
-/

namespace Powerboard.GenericProtocol

open MsgPump

/-- What an endpoint is called with: the payload are the `packetLen` bytes at its pointer. -/
structure Command where
  callback : ApplicationCallback
  payload : List UInt8
  packetLen : UInt16
  interface : UInt8
  deriving DecidableEq

/-- What the endpoint finds in memory during the call. -/
def EndpointCall.command (call : EndpointCall) (p : Pump) : Command :=
  { callback := call.callback
    payload := (Packet.decode (p.data call.ipacket)).packet.toList.take call.packetLen.toNat
    packetLen := call.packetLen
    interface := call.interface }

/-- Where `onReceivedPacket_msgPumpCallback` is. -/
inductive DispatcherPc
  /-- before it reads the id of the packet in this element -/
  | entered (buffer : Elem)
  /-- before it looks for the endpoint with this id -/
  | searching (buffer : Elem) (targetID : UInt8)
  /-- while the endpoint runs -/
  | calling (call : EndpointCall)
  deriving DecidableEq

/-- The receiver, the message pump and the dispatcher, and what has happened. -/
structure Commands where
  reception : Reception
  running : Option DispatcherPc
  received : List UInt8
  posted : List (ℕ × Packet)
  commands : List Command

/-- The message pump. -/
def Commands.pump (s : Commands) : Pump := s.reception.receiving.world

inductive CommandAction
  /-- a byte is received, another client uses the message pump, or the loop of the pump runs -/
  | reception (a : ReceptionAction)
  /-- another client stores into an element of another pool -/
  | write (e : Elem) (content : List UInt8)
  /-- the dispatcher runs, or the endpoint returns -/
  | runDispatcher

section Functions
variable (t : BufTable) (i_interface : UInt8) (handles : List EndpointHandle)

/-- What the loop of the pump calls: the dispatcher, for a packet. It returns at once when it is
called for another message, and the other callbacks call no endpoint. -/
def calledDispatcher (p : Pump) (call : Call) : Option DispatcherPc :=
  if call.callback = onReceivedPacketMsgPumpCallback ∧ call.id = msgIdGenericProtocolPacketReady then
    (p.msgQueue p.msgQueueFront).buffer.map .entered
  else none

/-- The next step of the dispatcher. -/
def runDispatcher (s : Commands) : DispatcherPc → Commands
  | .entered buffer =>
    let targetID := (Packet.decode (s.pump.data buffer)).subProtocolID
    { s with running := some (.searching buffer targetID) }
  | .searching buffer targetID =>
    -- the id is the one that was read before, the length and the interface are read now
    let packet := { Packet.decode (s.pump.data buffer) with subProtocolID := targetID }
    match onReceivedPacket handles msgIdGenericProtocolPacketReady buffer packet with
    | some call =>
      { s with running := some (.calling call), commands := s.commands ++ [call.command s.pump] }
    | none => { s with running := none }
  | .calling _ => { s with running := none }

/-- The state after the action. -/
def commandStep (s : Commands) : CommandAction → Option Commands
  | .reception (.receive b) =>
    let r := receiveByte (pumpPool t) i_interface s.reception.receiving b
    some { s with
      reception := { s.reception with receiving := r.1 }
      received := s.received ++ [b]
      posted := s.posted ++ (posted r.2).map fun packet => (s.received.length, packet) }
  | .reception .dispatch =>
    if s.running.isSome then none
    else
      match MsgPump.dispatch s.reception.pumpState with
      | .ok (state, call) =>
        some { s with
          reception := s.reception.setPump state
          running := call.bind (calledDispatcher s.pump) }
      | .error _ => none
  | .reception a =>
    (receptionStep t i_interface s.reception a).map fun reception =>
      { s with reception := reception }
  | .write e content =>
    if e.id = msgIdGenericProtocolPacketReady then none
    else
      some { s with
        reception := s.reception.setPump ⟨s.pump.setData e content, s.reception.pc⟩ }
  | .runDispatcher => s.running.map (runDispatcher handles s)

end Functions

/-- The state after the initialisation: nothing was received. -/
def commandStart (t : BufTable) (i_interface : UInt8)
    (callbackVector : MsgId → ℕ → Option Callback) (data : Elem → List UInt8) : Commands :=
  { reception := receptionStart t i_interface callbackVector data
    running := none
    received := []
    posted := []
    commands := [] }

/-- The dispatcher is registered for packets, once. -/
def DispatcherRegistered (callbackVector : MsgId → ℕ → Option Callback) (slot : ℕ) : Prop :=
  slot < maxReceivers ∧ ∀ i < maxReceivers,
    callbackVector msgIdGenericProtocolPacketReady i = some onReceivedPacketMsgPumpCallback ↔ i = slot

instance (callbackVector : MsgId → ℕ → Option Callback) (slot : ℕ) :
    Decidable (DispatcherRegistered callbackVector slot) :=
  inferInstanceAs (Decidable (_ ∧ _))

end Powerboard.GenericProtocol
