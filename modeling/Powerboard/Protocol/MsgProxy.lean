import Powerboard.Library.Bytes
import Powerboard.MsgPump.Callbacks
import Powerboard.Protocol.Dispatcher

/-!
# The message proxy

`msgProxy.c` on the message pump and the packet dispatcher. What arrives at the endpoint of the proxy
is posted as an internal message and forwarded to the other interfaces; internal messages that are
registered for it are broadcast to all interfaces.

The callbacks run in the loop of the pump, one after the other, so that no frame is open when one of
them begins a frame; interrupts may post messages between their steps. A frame is recorded with the
cause for which it is sent: the interface of the packet that is handled, if it is the endpoint or a
message posted by the endpoint that is handled.
-/

namespace Powerboard.MsgProxy

open Bytes MsgPump GenericProtocol

/-! ## Configuration -/

/-- `GENERIC_PROTOCOL_MSG_PROXY_ENDPOINT_ID` -/
def msgProxyEndpointId : UInt8 := 4

/-- `extIDtoIntIDPair_t` -/
structure ExtIdToIntIdPair where
  externalID : UInt16
  internalID : MsgId

/-- `MSG_PROXY_EXT_2_INT_MSG_ID_MAP` -/
def ext2intMap : List ExtIdToIntIdPair :=
  [ { externalID := 1, internalID := msgIdSystemPowerStateOut },
    { externalID := 2, internalID := msgIdRelativeBatteryVoltageOut },
    { externalID := 3, internalID := msgIdUserMotorSwitch } ]

/-- The address of `msgCallback` -/
def msgCallback : Callback := 1

/-- The address of `incommingEndpoint` -/
def incommingEndpoint : ApplicationCallback := 0

/-- The entry of the proxy among the endpoint handles. -/
def incommingEndpointHandle : EndpointHandle :=
  { endpointIdentifier := msgProxyEndpointId, callback := incommingEndpoint }

/-! ## The state -/

/-- A frame that the proxy sends. -/
structure Frame where
  interface : ℕ
  subProtocolID : UInt8
  payload : List UInt8
  /-- the interface of the packet whose handling sends the frame -/
  cause : Option UInt8
  deriving DecidableEq

/-- Where a running function of the proxy is. -/
inductive ProxyPc
  /-- `incommingEndpoint` before it looks the message up -/
  | entered (call : EndpointCall)
  /-- `incommingEndpoint` in its second loop -/
  | forwarding (call : EndpointCall) (i : ℕ)
  /-- `msgCallback` in its loop, for a message that the endpoint has posted for a packet from an
  interface, or for one of another origin -/
  | broadcasting (id : MsgId) (data : Option Elem) (origin : Option UInt8) (i : ℕ)
  deriving DecidableEq

/-- The message pump, the running function of the proxy, and what the proxy has sent. -/
structure Proxy where
  state : PumpState
  /-- for each entry of the queue, the interface of the packet for which the endpoint posted it -/
  origin : ℕ → Option UInt8
  running : Option ProxyPc
  frames : List Frame

namespace Proxy

/-- The state with another pump. -/
def setPump (s : Proxy) (p : Pump) : Proxy := { s with state := { s.state with pump := p } }

/-- The state after a post, which has put an entry of this origin at the tail of the queue if it
succeeded. -/
def posted (s : Proxy) (origin : Option UInt8) (r : Bool × Pump) : Proxy :=
  { s.setPump r.2 with
    origin :=
      if r.1 then Function.update s.origin s.state.pump.msgQueueTail origin else s.origin }

/-- The message at the front of the queue. -/
def front (s : Proxy) : QueueEntry := s.state.pump.msgQueue s.state.pump.msgQueueFront

/-- The origin of the message at the front of the queue. -/
def frontOrigin (s : Proxy) : Option UInt8 := s.origin s.state.pump.msgQueueFront

end Proxy

/-! ## The functions -/

/-- The message that `incommingEndpoint` finds in a packet: the id it is known by here, if the packet
has the size of such a message. The size of the data is a `uint16_t`, which wraps. -/
def incommingMessage (t : BufTable) (packet : List UInt8) (packetLen : UInt16) : Option MsgId :=
  let incommingID := readHalfWord packet 0
  let incommingMessageSize := packetLen - 2
  (ext2intMap.find? fun pair => pair.externalID = incommingID).bind fun pair =>
    (t.messageBuffers pair.internalID).bind fun desc =>
      if desc.msgSize = incommingMessageSize.toNat then some pair.internalID else none

/-- What `msgCallback` sends to every interface: the external id and the data, if the message is
known outside. -/
def outgoingMessage (t : BufTable) (id : MsgId) (data : List UInt8) : Option (List UInt8) :=
  (ext2intMap.find? fun pair => pair.internalID = id).bind fun pair =>
    (t.messageBuffers id).map fun desc => ofHalfWord pair.externalID ++ data.take desc.msgSize

/-- `sizeof(genericProtocoll_Packet_t)` -/
def sizeofPacket : ℕ := 132

/-- `offsetof(genericProtocoll_Packet_t, packet)` -/
def offsetofPacket : ℕ := 4

/-- The pointer to the data of the message in a packet, behind the two bytes of the id, for a post
with this id. How far the pools are from each other depends on where the linker has put them. -/
def dataPtr (dataAddress : MsgId → ℤ) (ipacket : Elem) (packet : List UInt8) (id : MsgId) :
    Pointer :=
  { ptrOffset := dataAddress ipacket.id - dataAddress id +
      (ipacket.index * (sizeofPacket + msgOverhead) + msgOverhead + offsetofPacket + 2 : ℤ)
    bytes := fun k => packet.getD (2 + k) 0 }

/-- The `packet` array of the packet in an element. -/
def packetAt (p : Pump) (ipacket : Elem) : List UInt8 :=
  (Packet.decode (p.data ipacket)).packet.toList

section Functions
variable (t : BufTable) (dataAddress : MsgId → ℤ) (interfacesCount : ℕ)

/-- The next step of the running function of the proxy. -/
def runProxy (s : Proxy) : ProxyPc → Option Proxy
  | .entered call =>
    let packet := packetAt s.state.pump call.ipacket
    match incommingMessage t packet call.packetLen with
    | some id =>
      match postMessage t s.state.pump id (some (dataPtr dataAddress call.ipacket packet id)) with
      | .ok r => some { s.posted (some call.interface) r with running := some (.forwarding call 0) }
      | .error _ => none
    | none => some { s with running := some (.forwarding call 0) }
  | .forwarding call i =>
    if i < interfacesCount then
      let frame : Frame :=
        { interface := i
          subProtocolID := msgProxyEndpointId
          payload := (packetAt s.state.pump call.ipacket).take call.packetLen.toNat
          cause := some call.interface }
      -- "dont send the message to the device which has just send it to us"
      some { s with
        frames := if call.interface.toNat ≠ i then s.frames ++ [frame] else s.frames
        running := some (.forwarding call (i + 1)) }
    else some { s with running := none }
  | .broadcasting id data origin i =>
    match outgoingMessage t id ((data.map s.state.pump.data).getD []) with
    | some payload =>
      if i < interfacesCount then
        let frame : Frame :=
          { interface := i
            subProtocolID := msgProxyEndpointId
            payload := payload
            cause := origin }
        some { s with
          frames := s.frames ++ [frame]
          running := some (.broadcasting id data origin (i + 1)) }
      else some { s with running := none }
    | none => some { s with running := none }

/-- `msgProxy_addMsgForBroadcast` -/
def addMsgForBroadcast (p : Pump) (msgID : MsgId) : Except Fault (Bool × Pump) :=
  registerOnMessage t p msgID (some msgCallback)

/-- `msgProxy_rmMsgForBroadcast` -/
def rmMsgForBroadcast (p : Pump) (msgID : MsgId) : Except Fault (Bool × Pump) :=
  unregisterFromMessage t p msgID (some msgCallback)

end Functions

/-- What the loop of the pump calls: `msgCallback`, or the endpoint of the proxy through the packet
dispatcher. The other callbacks and endpoints send nothing for the proxy. -/
def calledProxy (handles : List EndpointHandle) (s : Proxy) (call : Call) : Option ProxyPc :=
  if call.callback = msgCallback then
    some (.broadcasting call.id s.front.buffer s.frontOrigin 0)
  else if call.callback = onReceivedPacketMsgPumpCallback then do
    let buffer ← s.front.buffer
    let packet := Packet.decode (s.state.pump.data buffer)
    let endpoint ← onReceivedPacket handles call.id buffer packet
    if endpoint.callback = incommingEndpoint then some (.entered endpoint) else none
  else none

/-! ## The system -/

inductive ProxyAction
  | addMsgForBroadcast (msgID : MsgId)
  | rmMsgForBroadcast (msgID : MsgId)
  /-- a step of the running function of the proxy -/
  | runProxy
  /-- a step of the loop of the pump -/
  | dispatch
  /-- another client posts a message, the receiver its packets among them -/
  | post (id : MsgId) (messageToPost : Pointer)
  | getFreeBuffer (id : MsgId)
  | lock (e : Elem)
  | unlock (e : Elem)
  /-- a client stores into an element -/
  | write (e : Elem) (content : List UInt8)

/-- The state after the action. The loop of the pump waits for a running function. -/
def proxyStep (t : BufTable) (dataAddress : MsgId → ℤ) (interfacesCount : ℕ)
    (handles : List EndpointHandle) (s : Proxy) : ProxyAction → Option Proxy
  | .addMsgForBroadcast msgID =>
    match addMsgForBroadcast t s.state.pump msgID with
    | .ok r => some (s.setPump r.2)
    | .error _ => none
  | .rmMsgForBroadcast msgID =>
    match rmMsgForBroadcast t s.state.pump msgID with
    | .ok r => some (s.setPump r.2)
    | .error _ => none
  | .runProxy => s.running.bind (runProxy t dataAddress interfacesCount s)
  | .dispatch =>
    if s.running.isSome then none
    else
      match MsgPump.dispatch s.state with
      | .ok (state, call) =>
        some { s with state := state, running := call.bind (calledProxy handles s) }
      | .error _ => none
  | .post id ptr =>
    match postMessage t s.state.pump id (some ptr) with
    | .ok r => some (s.posted none r)
    | .error _ => none
  | .getFreeBuffer id =>
    match MsgPump.getFreeBuffer t s.state.pump id with
    | .ok r => some (s.setPump r.2)
    | .error _ => none
  | .lock e => some (s.setPump (lockMessage s.state.pump (some e)).2)
  | .unlock e => some (s.setPump (unlockMessage s.state.pump (some e)).2)
  | .write e content => some (s.setPump (s.state.pump.setData e content))

/-- The state before anything was received. -/
def proxyStart (callbackVector : MsgId → ℕ → Option Callback) (data : Elem → List UInt8) : Proxy :=
  { state := initial callbackVector data, origin := fun _ => none, running := none, frames := [] }

/-! ## No echo -/

/-- No packet is sent back to the interface it came from, neither by the endpoint nor by the dispatch
of the message that the endpoint has posted for it. -/
def NoEcho (s : Proxy) : Prop :=
  ∀ frame ∈ s.frames, ∀ interface, frame.cause = some interface →
    frame.interface ≠ interface.toNat

/-- If the message in dispatch is one that the endpoint has posted for a packet from an interface,
then the callback that the pump comes to next is not the one of the proxy. -/
def BroadcastSafe (interfacesCount : ℕ) (s : Proxy) : ProxyAction → Prop
  | .dispatch =>
    match s.state.pc, s.frontOrigin with
    | .calling i, some interface =>
      i < maxReceivers → interface.toNat < interfacesCount →
        s.state.pump.callbackVector s.front.id i ≠ some msgCallback
    | _, _ => True
  | _ => True

instance (interfacesCount : ℕ) (s : Proxy) : ∀ a, Decidable (BroadcastSafe interfacesCount s a)
  | .dispatch =>
    match hpc : s.state.pc, horigin : s.frontOrigin with
    | .calling i, some interface =>
      decidable_of_iff (i < maxReceivers → interface.toNat < interfacesCount →
        s.state.pump.callbackVector s.front.id i ≠ some msgCallback)
        (by simp only [BroadcastSafe, hpc, horigin])
    | .calling i, none => isTrue (by simp only [BroadcastSafe, hpc, horigin])
    | .waiting, _ | .cleared, _ | .unlocked, _ => isTrue (by simp only [BroadcastSafe, hpc])
  | .addMsgForBroadcast _ | .rmMsgForBroadcast _ | .runProxy | .post _ _ | .getFreeBuffer _
  | .lock _ | .unlock _ | .write _ _ => isTrue trivial

end Powerboard.MsgProxy
