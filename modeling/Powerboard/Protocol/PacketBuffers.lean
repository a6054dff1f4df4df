import Powerboard.Library.Bytes
import Powerboard.MsgPump.Accounting
import Powerboard.MsgPump.Firmware
import Powerboard.Protocol.Receive

/-!
# The receiver on the message pump

The receiver of `genericFlawLessProtocol.c` with the pool of `MSG_ID_GENERIC_PROTOCOL_PACKET_READY`,
and the rest of the firmware around it: other clients of the message pump, which use other pools,
and the loop of the pump.

`flawLess_ReceiveIndication` is called from the interrupt of the serial interface. All interrupts
have the same priority, so that nothing comes between the parts of `genericProtocol_receiveByte`.
-/

namespace Powerboard.GenericProtocol

open Bytes MsgPump

/-! ## Packets in memory -/

/-- The bytes of a `genericProtocoll_Packet_t`, the length with its low byte first. -/
def Packet.encode (p : Packet) : List UInt8 :=
  p.payloadLen.toUInt8 :: (p.payloadLen >>> 8).toUInt8 :: p.interface :: p.subProtocolID ::
    p.packet.toList

/-- The `genericProtocoll_Packet_t` at these bytes. -/
def Packet.decode (content : List UInt8) : Packet :=
  { payloadLen := readHalfWord content 0
    interface := content.getD 2 0
    subProtocolID := content.getD 3 0
    packet := Vector.ofFn fun i => content.getD (4 + i) 0 }

/-! ## The receiver's view of the pump -/

/-- The message pump as the receiver uses it. The pool is declared, so that the calls have a
result. -/
def pumpPool (t : BufTable) : PacketPool Pump Elem where
  getFreeBuffer p :=
    match MsgPump.getFreeBuffer t p msgIdGenericProtocolPacketReady with
    | .ok r => r
    | .error _ => (none, p)
  postMessage buf p :=
    match t.messageBuffers msgIdGenericProtocolPacketReady with
    | some d =>
      let pointer := d.pointerTo buf.index fun k => (p.data buf).getD k 0
      match MsgPump.postMessage t p msgIdGenericProtocolPacketReady (some pointer) with
      | .ok r => r
      | .error _ => (false, p)
    | none => (false, p)
  read buf p := Packet.decode (p.data buf)
  write buf packet p := p.setData buf packet.encode

/-! ## The firmware around the receiver -/

/-- The receiver, the message pump, which is its world, and where the loop of the pump is. -/
structure Reception where
  receiving : Receiving Pump Elem
  pc : DispatchPc

/-- The message pump and its loop. -/
def Reception.pumpState (s : Reception) : PumpState := ⟨s.receiving.world, s.pc⟩

/-- The same receiver with another state of the pump. -/
def Reception.setPump (s : Reception) (p : PumpState) : Reception :=
  { receiving := { s.receiving with world := p.pump }, pc := p.pc }

inductive ReceptionAction
  /-- a byte is received on the interface -/
  | receive (i_received : UInt8)
  /-- another client posts another message -/
  | post (id : MsgId) (messageToPost : Pointer)
  /-- another client reserves an element of another pool -/
  | getFreeBuffer (id : MsgId)
  | lock (e : Elem)
  | unlock (e : Elem)
  /-- a step of the loop of `msgPump_pumpMessage` -/
  | dispatch

/-- The state after the action. The packets are the receiver's own: the other clients use other
pools, and no endpoint locks a packet. -/
def receptionStep (t : BufTable) (i_interface : UInt8) (s : Reception) :
    ReceptionAction → Option Reception
  | .receive b =>
    some { s with receiving := (receiveByte (pumpPool t) i_interface s.receiving b).1 }
  | .post id ptr =>
    if id = msgIdGenericProtocolPacketReady then none
    else
      match MsgPump.postMessage t s.receiving.world id (some ptr) with
      | .ok r => some (s.setPump ⟨r.2, s.pc⟩)
      | .error _ => none
  | .getFreeBuffer id =>
    if id = msgIdGenericProtocolPacketReady then none
    else
      match MsgPump.getFreeBuffer t s.receiving.world id with
      | .ok r => some (s.setPump ⟨r.2, s.pc⟩)
      | .error _ => none
  | .lock e =>
    if e.id = msgIdGenericProtocolPacketReady then none
    else some (s.setPump ⟨(lockMessage s.receiving.world (some e)).2, s.pc⟩)
  | .unlock e =>
    if e.id = msgIdGenericProtocolPacketReady then none
    else some (s.setPump ⟨(unlockMessage s.receiving.world (some e)).2, s.pc⟩)
  | .dispatch =>
    match MsgPump.dispatch s.pumpState with
    | .ok r => some (s.setPump r.1)
    | .error _ => none

/-- The state after `msgPump_init` and `genericProtocol_init`. -/
def receptionStart (t : BufTable) (i_interface : UInt8)
    (callbackVector : MsgId → ℕ → Option Callback) (data : Elem → List UInt8) : Reception :=
  { receiving := init (pumpPool t) i_interface (initial callbackVector data).pump, pc := .waiting }

/-- Every packet element is free, or the queue holds it, or it is the buffer of the receiver. -/
def PacketsAccounted (t : BufTable) (s : Reception) : Prop :=
  Accounted t (· = msgIdGenericProtocolPacketReady) (fun e => s.receiving.buffer = some e)
    s.pumpState

/-- The byte ends a frame with the right checksum and enough bytes, so that it is posted. -/
def EndsFrame {σ Ref : Type} (s : Receiving σ Ref) (b : UInt8) : Prop :=
  ¬ (s.mode ≠ .receivedEscapeChar ∧ b = packetCharBeginning) ∧
    (s.mode ≠ .receivedEscapeChar ∧ b = packetCharEnd ∨ s.mode = .receivingPacketEnd) ∧
    s.receivedPayloadBytes < maxPacketLen ∧ s.checkSum + b - packetCharEnd = 0 ∧
    sizeofChecksum + sizeofSubProtocolIdentifier ≤ s.receivedPayloadBytes

instance {σ Ref : Type} (s : Receiving σ Ref) (b : UInt8) : Decidable (EndsFrame s b) :=
  inferInstanceAs (Decidable (_ ∧ _ ∧ _ ∧ _ ∧ _))

/-- If the action is the last byte of a frame, then the queue has room for the packet, or no element
is free that the receiver could take instead. -/
def FrameEndSafe (d : BufDescription) (s : Reception) (a : ReceptionAction) : Prop :=
  ∀ b, a = .receive b → s.receiving.buffer.isSome → EndsFrame s.receiving b →
    s.receiving.world.Full →
    ∀ i < d.msgAmount, ¬ (s.receiving.world.header ⟨msgIdGenericProtocolPacketReady, i⟩).IsFree

instance (d : BufDescription) (s : Reception) : DecidablePred (FrameEndSafe d s)
  | .receive b =>
    decidable_of_iff (s.receiving.buffer.isSome → EndsFrame s.receiving b →
      s.receiving.world.Full → ∀ i < d.msgAmount,
        ¬ (s.receiving.world.header ⟨msgIdGenericProtocolPacketReady, i⟩).IsFree)
      ⟨fun h _ hb => by cases hb; exact h, fun h => h b rfl⟩
  | .post _ _ | .getFreeBuffer _ | .lock _ | .unlock _ | .dispatch =>
    isTrue (by intro b hb; cases hb)

end Powerboard.GenericProtocol
