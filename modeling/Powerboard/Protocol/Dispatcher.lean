import Powerboard.Protocol.PacketBuffers

/-!
# The packet dispatcher

`genericFlawLessProtocolPacketDispatcher.c`: the callback of the message that a packet is ready,
which calls the endpoint that the packet is for.
-/

namespace Powerboard.GenericProtocol

open MsgPump

/-- A `flawLess_protocolApplicationCallback`. -/
abbrev ApplicationCallback := ℕ

/-- `flawLess_genericProtocolHandle_t` -/
structure EndpointHandle where
  endpointIdentifier : UInt8
  callback : ApplicationCallback
  deriving DecidableEq

/-- The call of an endpoint: it gets a pointer to the `packet` of the element. -/
structure EndpointCall where
  callback : ApplicationCallback
  ipacket : Elem
  packetLen : UInt16
  interface : UInt8
  deriving DecidableEq

/-- The address of `onReceivedPacket_msgPumpCallback` -/
def onReceivedPacketMsgPumpCallback : Callback := 0

/-- `onReceivedPacket_msgPumpCallback` on the table of endpoint handles: which endpoint it calls, for
the packet in this element. -/
def onReceivedPacket (handles : List EndpointHandle) (id : MsgId) (buffer : Elem)
    (packet : Packet) : Option EndpointCall :=
  if id = msgIdGenericProtocolPacketReady then
    (handles.find? fun iter => packet.subProtocolID = iter.endpointIdentifier).map fun iter =>
      { callback := iter.callback
        ipacket := buffer
        packetLen := packet.payloadLen
        interface := packet.interface }
  else none

end Powerboard.GenericProtocol
