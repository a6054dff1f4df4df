import Powerboard.Protocol.Receive

/-!
# The frame sender of `genericFlawLessProtocol.c`

Each function gives the bytes it hands to the send function of the interface, in order, and what it
returns. The physical send function hands them on as they are.
-/

namespace Powerboard.GenericProtocol

/-- `FLAWLESS_PROTOCOL_PHY_INTERFACES_COUNT` -/
def phyInterfacesCount : ℕ := 1

/-- `genericProtocol_SendState_t` -/
structure SendState where
  payloadLen : UInt16
  bytesTransmitted : UInt16
  checksum : UInt8
  isSending : Bool
  deriving DecidableEq

/-- A send state as it is in static storage before anything was sent. -/
def SendState.zeroed : SendState :=
  { payloadLen := 0, bytesTransmitted := 0, checksum := 0, isSending := false }

/-- `genericProtocol_send`: the bytes sent, and their sum. -/
def send (i_data : UInt8) (i_escape : Bool) : List UInt8 × UInt8 :=
  if i_escape = true ∧ IsControl i_data then
    ([packetCharEscape, i_data], packetCharEscape + i_data)
  else ([i_data], i_data)

/-- `genericProtocol_sendChecksum`: when the checksum has to be escaped, the escape is summed up
too, which changes the checksum that is sent. -/
def sendChecksum (i_checksum : UInt8) : List UInt8 :=
  if IsControl (~~~i_checksum + 1) then
    [packetCharEscape, ~~~(i_checksum + packetCharEscape) + 1]
  else [~~~i_checksum + 1]

/-- The loop over the payload: the bytes sent, and the checksum after them. -/
def sendPayload (checksum : UInt8) : List UInt8 → List UInt8 × UInt8
  | [] => ([], checksum)
  | b :: data =>
    let sent := send b true
    let rest := sendPayload (checksum + sent.2) data
    (sent.1 ++ rest.1, rest.2)

/-- `genericProtocol_sendMessage` of the whole of `i_buffer`, on the interfaces with these send
states. -/
def sendMessage (sendState : ℕ → SendState) (i_interface : UInt8) (i_subProtocolID : UInt8)
    (i_buffer : List UInt8) : List UInt8 :=
  if i_interface.toNat < phyInterfacesCount then
    if (sendState i_interface.toNat).isSending = false then
      let header := (send packetCharBeginning false).1
      let id := send i_subProtocolID true
      let data := sendPayload (0 + id.2) i_buffer
      let tail := (send packetCharEnd false).1
      header ++ id.1 ++ data.1 ++ sendChecksum data.2 ++ tail
    else []
  else []

/-- `genericProtocol_BeginTransmittingFrame`: the bytes sent, and the send states after it. -/
def beginTransmittingFrame (sendState : ℕ → SendState) (i_interface : UInt8) (payloadLen : UInt16)
    (i_subProtocolID : UInt8) : List UInt8 × (ℕ → SendState) :=
  if i_interface.toNat < phyInterfacesCount then
    if (sendState i_interface.toNat).isSending = false then
      let header := (send packetCharBeginning false).1
      let id := send i_subProtocolID true
      (header ++ id.1, Function.update sendState i_interface.toNat
        { payloadLen := payloadLen, bytesTransmitted := 0, checksum := 0 + id.2, isSending := true })
    else ([], sendState)
  else ([], sendState)

/-- `genericProtocol_SendInsideFrame` of the whole of `buffer`: the bytes sent, and the send states
after it. -/
def sendInsideFrame (sendState : ℕ → SendState) (i_interface : UInt8) (buffer : List UInt8) :
    List UInt8 × (ℕ → SendState) :=
  if i_interface.toNat < phyInterfacesCount then
    let state := sendState i_interface.toNat
    let data := sendPayload state.checksum buffer
    (data.1, Function.update sendState i_interface.toNat
      { state with
        checksum := data.2
        bytesTransmitted := state.bytesTransmitted + UInt16.ofNat buffer.length })
  else ([], sendState)

/-- `genericProtocol_EndTransmittingFrame`: the bytes sent, and the send states after it. -/
def endTransmittingFrame (sendState : ℕ → SendState) (i_interface : UInt8) :
    List UInt8 × (ℕ → SendState) :=
  if i_interface.toNat < phyInterfacesCount then
    let tail := (send packetCharEnd false).1
    (sendChecksum (sendState i_interface.toNat).checksum ++ tail,
      Function.update sendState i_interface.toNat .zeroed)
  else ([], sendState)

/-- `genericProtocol_SendInsideFrame` for each of the chunks, in order: the bytes sent, and the send
states after it. -/
def sendChunks (sendState : ℕ → SendState) (i_interface : UInt8) :
    List (List UInt8) → List UInt8 × (ℕ → SendState)
  | [] => ([], sendState)
  | chunk :: chunks =>
    let sent := sendInsideFrame sendState i_interface chunk
    let rest := sendChunks sent.2 i_interface chunks
    (sent.1 ++ rest.1, rest.2)

/-- A frame sent in chunks, from `genericProtocol_BeginTransmittingFrame` to
`genericProtocol_EndTransmittingFrame`: the bytes sent, and the send states after it. -/
def streamFrame (sendState : ℕ → SendState) (i_interface : UInt8) (payloadLen : UInt16)
    (i_subProtocolID : UInt8) (chunks : List (List UInt8)) : List UInt8 × (ℕ → SendState) :=
  let began := beginTransmittingFrame sendState i_interface payloadLen i_subProtocolID
  let sent := sendChunks began.2 i_interface chunks
  let ended := endTransmittingFrame sent.2 i_interface
  (began.1 ++ sent.1 ++ ended.1, ended.2)

/-- What `genericProtocol_sendMessage` can be asked to send: `i_size` is a `uint16_t`. -/
structure Message where
  subProtocolID : UInt8
  payload : List UInt8
  size_lt : payload.length < 2 ^ 16

/-- The id and the payload. -/
def Message.content (m : Message) : UInt8 × List UInt8 := (m.subProtocolID, m.payload)

/-- The bytes of the message on the wire. -/
def Message.wire (m : Message) : List UInt8 :=
  sendMessage (fun _ => .zeroed) 0 m.subProtocolID m.payload

end Powerboard.GenericProtocol
