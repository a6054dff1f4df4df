import Mathlib.Data.UInt
import Powerboard.Library.Machine
import Powerboard.Library.Stuffing

/-!
# The frame receiver of `genericFlawLessProtocol.c`

`receiveByte` is `genericProtocol_receiveByte`, one received byte at a time. What the receiver uses
of the message pump (reserving a buffer, storing through the pointer it got, posting it) is the
parameter `PacketPool`, so that the same definition runs on the message pump itself and on an
arbitrary pattern of buffer availability (`Pattern`).

Besides the new state, a step says what it did that can be observed: the stores into `packet[]` and
the packets handed to `msgPump_postMessage`, each with the result of the call.

There is one physical interface (`FLAWLESS_PROTOCOL_PHY_INTERFACES_COUNT` is 1), so `g_receiveState`
is one `Receiving`. The interface statistics are compiled out.
-/

namespace Powerboard.GenericProtocol

open Machine Stuffing

/-- `FLAWLESS_PROTOCOL_MAX_PACKET_LEN` -/
def maxPacketLen : ℕ := 128

/-- `FLAWLESS_PROTOCOL_PACKET_CHAR_ESCAPE` -/
def packetCharEscape : UInt8 := 0x3c

/-- `FLAWLESS_PROTOCOL_PACKET_CHAR_BEGINNING` -/
def packetCharBeginning : UInt8 := 0xf0

/-- `FLAWLESS_PROTOCOL_PACKET_CHAR_END` -/
def packetCharEnd : UInt8 := 0x0f

/-- The three synchronization characters. -/
def IsControl (b : UInt8) : Prop :=
  b = packetCharBeginning ∨ b = packetCharEnd ∨ b = packetCharEscape

instance : DecidablePred IsControl := fun b =>
  inferInstanceAs (Decidable (b = packetCharBeginning ∨ b = packetCharEnd ∨ b = packetCharEscape))

/-- `sizeof(genericProtocol_Checksum_t)` -/
def sizeofChecksum : ℕ := 1

/-- `sizeof(genericProtocol_subProtocolIdentifier_t)` -/
def sizeofSubProtocolIdentifier : ℕ := 1

/-- `genericProtocoll_Packet_t` -/
structure Packet where
  payloadLen : UInt16
  interface : UInt8
  subProtocolID : UInt8
  packet : Vector UInt8 maxPacketLen
  deriving DecidableEq

/-- The first `payloadLen` bytes of `packet`. -/
def Packet.payload (p : Packet) : List UInt8 := p.packet.toList.take p.payloadLen.toNat

/-- The packet with its length set for this many received bytes, the id and the checksum among
them. -/
def Packet.withPayloadLen (p : Packet) (receivedPayloadBytes : ℕ) : Packet :=
  { p with payloadLen :=
      UInt16.ofNat (receivedPayloadBytes - sizeofChecksum - sizeofSubProtocolIdentifier) }

/-- What a receiver of the packet sees as the message: its id and its payload. -/
def Packet.message (p : Packet) : UInt8 × List UInt8 := (p.subProtocolID, p.payload)

/-- The message pump as the receiver uses it, for `MSG_ID_GENERIC_PROTOCOL_PACKET_READY`: `σ` is
everything outside the receive state, `Ref` the pointers to pool elements. -/
structure PacketPool (σ Ref : Type) where
  /-- `msgPump_getFreeBuffer` -/
  getFreeBuffer : σ → Option Ref × σ
  /-- `msgPump_postMessage` -/
  postMessage : Ref → σ → Bool × σ
  /-- the packet a pointer points to -/
  read : Ref → σ → Packet
  /-- a store through the pointer -/
  write : Ref → Packet → σ → σ

/-- What is stored through a pointer is read back from it. -/
def PacketPool.Lawful {σ Ref : Type} (pool : PacketPool σ Ref) : Prop :=
  ∀ buf p w, pool.read buf (pool.write buf p w) = p

/-- `genericProtocolReceiveModus_t` -/
inductive ReceiveModus
  | receivingUnknown
  | receivedEscapeChar
  | receivingPayload
  | receivingPacketEnd
  deriving DecidableEq

/-- `genericProtocolReceiveState_t`, with the world the receiver acts on. -/
structure Receiving (σ Ref : Type) where
  buffer : Option Ref
  receivedPayloadBytes : ℕ
  mode : ReceiveModus
  checkSum : UInt8
  world : σ

/-- What a step of the receiver does besides changing its state. -/
inductive Effect
  /-- a store into `packet[]` at this index -/
  | store (index : ℕ)
  /-- a call of `msgPump_postMessage` on this packet, with its result -/
  | post (packet : Packet) (success : Bool)
  deriving DecidableEq

variable {σ Ref : Type} (pool : PacketPool σ Ref) (i_interface : UInt8)

/-- `genericProtocoll_resetBuffer` -/
def resetBuffer (s : Receiving σ Ref) : Bool × Receiving σ Ref :=
  match pool.getFreeBuffer s.world with
  | (some bufPtr, world) =>
    (true, { buffer := some bufPtr, receivedPayloadBytes := 0, mode := .receivingUnknown,
             checkSum := 0,
             world := pool.write bufPtr
               { pool.read bufPtr world with
                 interface := i_interface, payloadLen := 0, subProtocolID := 0 } world })
  | (none, world) =>
    (false, { s with receivedPayloadBytes := 0, mode := .receivingUnknown, checkSum := 0,
                     world := world })

/-- The two stores of a received byte, in `GENERIC_PROTOCOL_RECEIVING_PAYLOAD` and in
`GENERIC_PROTOCOL_RECEIVED_ESCAPE_CHAR`: the first byte is the target endpoint, the others are
the packet. -/
def storeReceived (buf : Ref) (i_received : UInt8) (s : Receiving σ Ref) :
    Receiving σ Ref × List Effect :=
  let p := pool.read buf s.world
  if s.receivedPayloadBytes = 0 then
    ({ s with receivedPayloadBytes := 1,
              world := pool.write buf { p with subProtocolID := i_received } s.world }, [])
  else
    ({ s with receivedPayloadBytes := s.receivedPayloadBytes + 1,
              world := pool.write buf
                { p with packet := p.packet.setIfInBounds (s.receivedPayloadBytes - 1) i_received }
                s.world },
      [.store (s.receivedPayloadBytes - 1)])

/-- The end of a packet with the right checksum and enough bytes: set the length, post the buffer,
and get a new one. -/
def postReceived (buf : Ref) (s : Receiving σ Ref) : Receiving σ Ref × List Effect :=
  let packet := (pool.read buf s.world).withPayloadLen s.receivedPayloadBytes
  match pool.postMessage buf (pool.write buf packet s.world) with
  | (postSuccess, world) =>
    let buffer := if postSuccess then none else s.buffer
    ((resetBuffer pool i_interface { s with buffer := buffer, world := world }).2,
      [.post packet postSuccess])

/-- `case (GENERIC_PROTOCOL_RECEIVING_PACKET_END)`: the checksum already includes the end
character. -/
def packetEnd (buf : Ref) (s : Receiving σ Ref) : Receiving σ Ref × List Effect :=
  let checkSum := s.checkSum - packetCharEnd
  let r : Receiving σ Ref × List Effect :=
    if checkSum = 0 then
      let world := pool.write buf { pool.read buf s.world with interface := i_interface } s.world
      if sizeofChecksum + sizeofSubProtocolIdentifier ≤ s.receivedPayloadBytes then
        postReceived pool i_interface buf { s with checkSum := checkSum, world := world }
      else ({ s with checkSum := checkSum, world := world, mode := .receivingUnknown }, [])
    else ({ s with checkSum := checkSum }, [])
  ({ r.1 with checkSum := 0, receivedPayloadBytes := 0 }, r.2)

/-- `genericProtocol_receiveByte` from the point where there is a buffer. -/
def receiveInto (buf : Ref) (s : Receiving σ Ref) (i_received : UInt8) :
    Receiving σ Ref × List Effect :=
  if s.mode ≠ .receivedEscapeChar ∧ i_received = packetCharBeginning then
    ({ s with mode := .receivingPayload, checkSum := 0, receivedPayloadBytes := 0 }, [])
  else
    let mode := if s.mode ≠ .receivedEscapeChar ∧ i_received = packetCharEnd
      then .receivingPacketEnd else s.mode
    if maxPacketLen ≤ s.receivedPayloadBytes then
      ({ s with mode := .receivingUnknown }, [])
    else
      let s := { s with mode := mode, checkSum := s.checkSum + i_received }
      match mode with
      | .receivingPayload =>
        if i_received = packetCharEscape then ({ s with mode := .receivedEscapeChar }, [])
        else storeReceived pool buf i_received s
      | .receivedEscapeChar =>
        storeReceived pool buf i_received { s with mode := .receivingPayload }
      | .receivingPacketEnd => packetEnd pool i_interface buf s
      | .receivingUnknown => (s, [])

/-- `genericProtocol_receiveByte` -/
def receiveByte (s : Receiving σ Ref) (i_received : UInt8) : Receiving σ Ref × List Effect :=
  let s := if s.buffer.isNone then (resetBuffer pool i_interface s).2 else s
  match s.buffer with
  | some buf => receiveInto pool i_interface buf s i_received
  | none => (s, [])

/-- `flawLess_ReceiveIndication` -/
def receiveIndication (s : Receiving σ Ref) (i_data : List UInt8) :
    Receiving σ Ref × List Effect :=
  feed (receiveByte pool i_interface) s i_data

section ReceiveIndication
variable (s : Receiving σ Ref)

@[simp] lemma receiveIndication_nil : receiveIndication pool i_interface s [] = (s, []) := rfl

@[simp] lemma receiveIndication_singleton (b : UInt8) :
    receiveIndication pool i_interface s [b] = receiveByte pool i_interface s b :=
  feed_singleton _ _ _

lemma receiveIndication_append (as bs : List UInt8) :
    receiveIndication pool i_interface s (as ++ bs) =
      ((receiveIndication pool i_interface (receiveIndication pool i_interface s as).1 bs).1,
        (receiveIndication pool i_interface s as).2 ++
          (receiveIndication pool i_interface (receiveIndication pool i_interface s as).1 bs).2) :=
  feed_append _ _ _ _

lemma receiveIndication_cons (b : UInt8) (bytes : List UInt8) :
    receiveIndication pool i_interface s (b :: bytes) =
      ((receiveIndication pool i_interface (receiveByte pool i_interface s b).1 bytes).1,
        (receiveByte pool i_interface s b).2 ++
          (receiveIndication pool i_interface (receiveByte pool i_interface s b).1 bytes).2) := rfl

end ReceiveIndication

/-- The receive state before `genericProtocol_init`: static storage is zero. -/
def zeroed (w : σ) : Receiving σ Ref :=
  { buffer := none, receivedPayloadBytes := 0, mode := .receivingUnknown, checkSum := 0,
    world := w }

/-- The receive half of `genericProtocol_init`. -/
def init (w : σ) : Receiving σ Ref := (resetBuffer pool i_interface (zeroed w)).2

/-! ## Arbitrary buffer availability and post results -/

/-- A world in which the next calls of `msgPump_getFreeBuffer` and of `msgPump_postMessage` have
the given results, and the elements have the given contents. -/
structure Pattern where
  /-- the results of the coming `msgPump_getFreeBuffer` calls, as element numbers -/
  available : ℕ → Option ℕ
  /-- the results of the coming `msgPump_postMessage` calls -/
  accepted : ℕ → Bool
  /-- the contents of the elements -/
  memory : ℕ → Packet

/-- A packet as it is in static storage. -/
def Packet.zeroed : Packet :=
  { payloadLen := 0, interface := 0, subProtocolID := 0, packet := Vector.replicate _ 0 }

/-- There is always a buffer and a queue slot. -/
def Pattern.unlimited : Pattern :=
  { available := fun _ => some 0, accepted := fun _ => true, memory := fun _ => .zeroed }

/-- The message pump that follows a pattern. -/
def patternPool : PacketPool Pattern ℕ where
  getFreeBuffer w := (w.available 0, { w with available := fun n => w.available (n + 1) })
  postMessage _ w := (w.accepted 0, { w with accepted := fun n => w.accepted (n + 1) })
  read buf w := w.memory buf
  write buf p w := { w with memory := Function.update w.memory buf p }

theorem patternPool_lawful : patternPool.Lawful := by
  intro buf p w
  simp [patternPool]

/-- The packet of an effect that is a call of `msgPump_postMessage`. -/
def Effect.handedOver : Effect → Option Packet
  | .store _ => none
  | .post p _ => some p

/-- The packet of an effect that is a successful call of `msgPump_postMessage`. -/
def Effect.posted : Effect → Option Packet
  | .post p true => some p
  | _ => none

/-- The packets handed to `msgPump_postMessage`, whatever the result. -/
def handedOver (effects : List Effect) : List Packet := effects.filterMap Effect.handedOver

/-- The packets whose `msgPump_postMessage` succeeded. -/
def posted (effects : List Effect) : List Packet := effects.filterMap Effect.posted

@[simp] theorem handedOver_nil : handedOver [] = [] := rfl

@[simp] theorem handedOver_append (es es' : List Effect) :
    handedOver (es ++ es') = handedOver es ++ handedOver es' := List.filterMap_append

@[simp] theorem handedOver_store (i : ℕ) : handedOver [.store i] = [] := rfl

@[simp] theorem handedOver_post (p : Packet) (r : Bool) : handedOver [.post p r] = [p] := rfl

@[simp] theorem posted_append (es es' : List Effect) :
    posted (es ++ es') = posted es ++ posted es' := List.filterMap_append

/-- What is posted is among what is handed over, in the same order. -/
theorem posted_sublist_handedOver (es : List Effect) : (posted es).Sublist (handedOver es) := by
  induction es with
  | nil => exact List.Sublist.refl _
  | cons e es ih =>
    match e with
    | .store _ => exact ih
    | .post p true => exact ih.cons_cons p
    | .post p false => exact ih.cons p

lemma posted_eq_nil {es : List Effect} (h : handedOver es = []) : posted es = [] := by
  have hsub := posted_sublist_handedOver es
  rwa [h, List.sublist_nil] at hsub

end Powerboard.GenericProtocol
