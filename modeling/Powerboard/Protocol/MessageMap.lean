import Powerboard.Library.Bytes
import Powerboard.Protocol.MsgProxy
import Powerboard.Protocol.Send

/-!
# A message between two nodes

`msgCallback` and `incommingEndpoint` of `msgProxy.c` for any message map: what the first puts on the
wire for an internal message, and what the second posts for a packet.
-/

namespace Powerboard.MsgProxy

open Bytes MsgPump GenericProtocol

/-! ## The message map -/

/-- A `MSG_PROXY_EXT_2_INT_MSG_ID_MAP`. The internal ids are of `msgID_t`, so that there are less
entries than the `uint8_t` can count with which the loops go through the map. -/
structure MessageMap where
  ext2intMap : List ExtIdToIntIdPair
  externalID_nodup : (ext2intMap.map (·.externalID)).Nodup
  internalID_nodup : (ext2intMap.map (·.internalID)).Nodup
  internalID_range : ∀ pair ∈ ext2intMap, 0 ≤ pair.internalID ∧ pair.internalID ≤ lastId

/-- The message map of the power board. -/
def powerboardMap : MessageMap where
  ext2intMap := ext2intMap
  externalID_nodup := by decide
  internalID_nodup := by decide
  internalID_range := by
    intro pair hpair
    simp only [ext2intMap, List.mem_cons, List.not_mem_nil, or_false] at hpair
    rcases hpair with rfl | rfl | rfl <;> decide

/-- `g_messageBuffers`, where all pools come from `MSG_PUMP_DECLARE_MESSAGE_BUFFER_POOL`. -/
structure DeclaredTable extends BufTable where
  declared : ∀ id d, messageBuffers id = some d →
    ∃ sizeofMessageType bufferSize h, d = declarePool sizeofMessageType bufferSize id h

/-- The pools of the power board. -/
def declaredFirmware : DeclaredTable where
  toBufTable := firmware
  declared := by
    intro id d h
    have hid : d.id = id := firmware.id_eq id d h
    have hfind : msgPumpDescriptions.find? (fun d => d.id = id) = some d := h
    have hmem : d ∈ msgPumpDescriptions := List.mem_of_find?_eq_some hfind
    have hall : ∀ d ∈ msgPumpDescriptions, (d.msgSize + 3) / 4 * 4 = d.msgSize := by decide
    refine ⟨d.msgSize, d.msgAmount, d.msgSize_pos, ?_⟩
    simp only [declarePool, hall d hmem, ← hid]

/-! ## Sending -/

/-- `sizeof(msgID_t)` -/
def sizeofMsgId : ℕ := 1

namespace MessageMap
variable (m : MessageMap) (t : BufTable)

/-- The loop of `msgCallback` over the map: the external id of an internal message. -/
def externalID (i_id : MsgId) : Option UInt16 :=
  (m.ext2intMap.find? fun pair => pair.internalID = i_id).map (·.externalID)

/-- The loop of `incommingEndpoint` over the map: the internal id of an external message. -/
def internalID (incommingID : UInt16) : Option MsgId :=
  (m.ext2intMap.find? fun pair => pair.externalID = incommingID).map (·.internalID)

/-- The loop of `msgCallback` over these interfaces: the frame sent on each, and the send states
after them. -/
def broadcast (totalPackeLen : UInt16) (chunks : List (List UInt8)) :
    List UInt8 → (ℕ → SendState) → List (List UInt8) × (ℕ → SendState)
  | [], sendState => ([], sendState)
  | i :: rest, sendState =>
    let sent := streamFrame sendState i totalPackeLen msgProxyEndpointId chunks
    let after := broadcast totalPackeLen chunks rest sent.2
    (sent.1 :: after.1, after.2)

/-- The physical interfaces -/
def interfaces : List UInt8 := (List.range phyInterfacesCount).map UInt8.ofNat

/-- `msgCallback`: the frame sent on each interface, and the send states after them. -/
def msgCallback (sendState : ℕ → SendState) (i_id : MsgId) (i_data : ℕ → UInt8) :
    List (List UInt8) × (ℕ → SendState) :=
  match m.externalID i_id, t.messageBuffers i_id with
  | some externalID, some desc =>
    let size := desc.msgSize
    let totalPackeLen := UInt16.ofNat (size + sizeofMsgId)
    broadcast totalPackeLen [ofHalfWord externalID, (List.range size).map i_data] interfaces sendState
  | _, _ => ([], sendState)

/-! ## Receiving -/

/-- The id in front of a packet. -/
def incommingID (packet : List UInt8) : UInt16 := readHalfWord packet 0

/-- `incommingEndpoint` up to its second loop: the message that it gives to `msgPump_postMessage`,
with the bytes behind its pointer. -/
def incommingEndpoint (packet : List UInt8) (i_packetLen : UInt16) : Option (MsgId × (ℕ → UInt8)) :=
  let incommingMessageSize := i_packetLen - 2
  (m.internalID (incommingID packet)).bind fun internalID =>
    (t.messageBuffers internalID).bind fun desc =>
      if desc.msgSize = incommingMessageSize.toNat then
        some (internalID, fun k => packet.getD (2 + k) 0)
      else none

/-- `incommingEndpoint` up to its second loop, on the message pump: the call of
`msgPump_postMessage`, if there is one. -/
def incommingPost (dataAddress : MsgId → ℤ) (p : Pump) (call : EndpointCall) :
    Option (Except Fault (Bool × Pump)) :=
  let packet := packetAt p call.ipacket
  (m.incommingEndpoint t packet call.packetLen).map fun message =>
    postMessage t p message.1 (some (dataPtr dataAddress call.ipacket packet message.1))

/-- The endpoint that is called with the packet, wherever it is in memory, posts a message with this
id, from a pointer to these bytes. -/
def Posts (packet : Packet) (id : MsgId) (content : List UInt8) : Prop :=
  ∀ (dataAddress : MsgId → ℤ) (p : Pump) (ipacket : Elem), p.data ipacket = packet.encode →
    ∃ ptr : Pointer,
      m.incommingPost t dataAddress p
          { callback := MsgProxy.incommingEndpoint
            ipacket := ipacket
            packetLen := packet.payloadLen
            interface := packet.interface } =
        some (postMessage t p id (some ptr)) ∧
      (List.range content.length).map ptr.bytes = content

end MessageMap

end Powerboard.MsgProxy
