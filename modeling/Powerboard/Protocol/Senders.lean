import Powerboard.Library.Machine
import Powerboard.Protocol.Send

/-!
# Two senders on one interface

Two clients send on the same interface, each with `genericProtocol_sendMessage`, or with
`genericProtocol_BeginTransmittingFrame`, calls of `genericProtocol_SendInsideFrame` and
`genericProtocol_EndTransmittingFrame`. Their calls come in any order. None of the functions returns
whether it has sent anything, so that a client goes on in any case.
-/

namespace Powerboard.GenericProtocol

inductive Client
  | first
  | second
  deriving DecidableEq

def Client.other : Client → Client
  | first => second
  | second => first

/-- A message of a client: the id and the data it has given so far. -/
structure ClientMessage where
  subProtocolID : UInt8
  payload : List UInt8
  /-- when the client began, the interface existed and the other client was not sending -/
  accepted : Bool
  deriving DecidableEq

/-- The complete frame with the id and the data. -/
def ClientMessage.frame (m : ClientMessage) : List UInt8 :=
  sendMessage (fun _ => .zeroed) 0 m.subProtocolID m.payload

/-- The frame up to the checksum. -/
def ClientMessage.begun (m : ClientMessage) : List UInt8 :=
  (send packetCharBeginning false).1 ++ (sendPayload 0 (m.subProtocolID :: m.payload)).1

/-- `g_sendState`, the bytes on the wire, and what the clients want to send. -/
structure Senders where
  sendState : ℕ → SendState
  wire : List UInt8
  /-- the message of the client between `genericProtocol_BeginTransmittingFrame` and
  `genericProtocol_EndTransmittingFrame` -/
  current : Client → Option ClientMessage
  /-- the messages that clients are done with, in this order -/
  messages : List ClientMessage

namespace Senders

/-- The client is sending a message. -/
def sending (s : Senders) (c : Client) : Bool := (s.current c).any (·.accepted)

/-- A message of the client can be sent. -/
def canSend (s : Senders) (i_interface : UInt8) (c : Client) : Bool :=
  decide (i_interface.toNat < phyInterfacesCount) && !s.sending c.other

/-- What the client has sent of the message that it is sending. -/
def begun (s : Senders) (c : Client) : List UInt8 :=
  match s.current c with
  | some m => if m.accepted then m.begun else []
  | none => []

end Senders

/-! ## The machine -/

inductive SenderAction
  | sendMessage (c : Client) (i_subProtocolID : UInt8) (i_buffer : List UInt8)
  | beginTransmittingFrame (c : Client) (payloadLen : UInt16) (i_subProtocolID : UInt8)
  | sendInsideFrame (c : Client) (buffer : List UInt8)
  | endTransmittingFrame (c : Client)

/-- The state after the call. A size is a `uint16_t`. -/
def sendersStep (i_interface : UInt8) (s : Senders) : SenderAction → Option Senders
  | .sendMessage c id buffer =>
    if s.current c = none ∧ buffer.length < 2 ^ 16 then
      some { s with
        wire := s.wire ++ sendMessage s.sendState i_interface id buffer
        messages := s.messages ++ [⟨id, buffer, s.canSend i_interface c⟩] }
    else none
  | .beginTransmittingFrame c payloadLen id =>
    if s.current c = none then
      let r := beginTransmittingFrame s.sendState i_interface payloadLen id
      some { s with
        sendState := r.2
        wire := s.wire ++ r.1
        current := Function.update s.current c (some ⟨id, [], s.canSend i_interface c⟩) }
    else none
  | .sendInsideFrame c buffer =>
    match s.current c with
    | none => none
    | some m =>
      if buffer.length < 2 ^ 16 then
        let r := sendInsideFrame s.sendState i_interface buffer
        some { s with
          sendState := r.2
          wire := s.wire ++ r.1
          current := Function.update s.current c (some { m with payload := m.payload ++ buffer }) }
      else none
  | .endTransmittingFrame c =>
    match s.current c with
    | none => none
    | some m =>
      let r := endTransmittingFrame s.sendState i_interface
      some { s with
        sendState := r.2
        wire := s.wire ++ r.1
        current := Function.update s.current c none
        messages := s.messages ++ [m] }

/-- Nothing was sent. -/
def sendersStart : Senders :=
  { sendState := fun _ => .zeroed, wire := [], current := fun _ => none, messages := [] }

/-! ## Whole frames -/

/-- The wire has the complete frames of the accepted messages and what is begun of the message that
is being sent, and nothing of the others. -/
def FramesWhole (s : Senders) : Prop :=
  s.wire = (s.messages.filter (·.accepted)).flatMap ClientMessage.frame ++
    (s.begun .first ++ s.begun .second)

instance (s : Senders) : Decidable (FramesWhole s) := inferInstanceAs (Decidable (_ = _))

/-- A client whose message was not accepted does not go on with it: it sends no data inside the frame
and does not end it. -/
def GoesOnAccepted (i_interface : UInt8) (s : Senders) : SenderAction → Prop
  | .sendInsideFrame c buffer => i_interface.toNat < phyInterfacesCount →
    s.current c ≠ none → s.sending c = true ∨ buffer = []
  | .endTransmittingFrame c => i_interface.toNat < phyInterfacesCount →
    s.current c ≠ none → s.sending c = true
  | _ => True

end Powerboard.GenericProtocol
