import Powerboard.Communication.Reception
import Powerboard.Protocol.Commands
import Powerboard.Protocol.Send

/-!
# From board to board

What lies between a call of `genericProtocol_sendMessage` on another board with this firmware and the
call of an endpoint here: the transmit path of the other board, the line, the receive path, the
receiver, the message pump and the packet dispatcher of this one.

Both boards go on at any time, and so does everything else that uses the message pump of this board.
The line keeps its bytes in order and changes none.
-/

namespace Powerboard.Link

open Communication GenericProtocol MsgPump

/-! ## The state -/

structure Boards where
  /-- the messages that the other board sends, in the order of the calls -/
  messages : List Message
  /-- the bytes of the last one that were not passed to `phySendFunction0` -/
  unsent : List UInt8
  /-- the transmit path of the other board -/
  transmit : Globals
  /-- the receive path of this board -/
  receive : RxGlobals
  /-- the receiver of this board, its message pump and its dispatcher -/
  commands : Commands

/-- All is done on both boards: nothing is to be sent, on its way or in a queue. -/
structure Boards.AtRest (s : Boards) : Prop where
  unsent : s.unsent = []
  sendPc : s.transmit.sendPc = .idle
  count : s.transmit.count = 0
  line : s.receive.received.length = s.transmit.sent.length
  ended : s.receive.ended = true
  msgQueueSize : s.commands.pump.msgQueueSize = 0
  running : s.commands.running = none

/-! ## The steps -/

inductive LinkAction
  /-- the other board calls `genericProtocol_sendMessage` -/
  | sendMessage (m : Message)
  /-- it calls `phySendFunction0` with the next byte of the message -/
  | send
  /-- a step of `phySendFunction0`, of the DMA or of the interrupt of the other board -/
  | transmit (a : CommAction)
  /-- the DMA of this board writes the next byte of the line -/
  | receive
  | usart1Isr
  /-- the message pump of this board, its clients and the dispatcher -/
  | board (a : CommandAction)

section Functions
variable (t : BufTable) (i_interface : UInt8) (handles : List EndpointHandle)

/-- The state after the action, if it can be taken. -/
def linkStep (s : Boards) : LinkAction → Option Boards
  | .sendMessage m =>
    if s.unsent = [] ∧ s.transmit.sendPc = .idle then
      some { s with messages := s.messages ++ [m], unsent := m.wire }
    else none
  | .send =>
    match s.unsent with
    | [] => none
    | byte :: rest =>
      (commStep s.transmit (.call [byte])).map fun transmit =>
        { s with transmit := transmit, unsent := rest }
  | .transmit (.call _) => none
  | .transmit a => (commStep s.transmit a).map fun transmit => { s with transmit := transmit }
  | .receive =>
    (s.transmit.sent[s.receive.received.length]?).map fun byte =>
      { s with receive := s.receive.dmaWrite byte }
  | .usart1Isr =>
    match s.receive.isrPc with
    | .handing received =>
      (commandStep t i_interface handles s.commands (.reception (.receive received))).map
        fun commands => { s with receive := s.receive.usart1Isr, commands := commands }
    | _ => some { s with receive := s.receive.usart1Isr }
  | .board (.reception (.receive _)) => none
  | .board a =>
    (commandStep t i_interface handles s.commands a).map fun commands =>
      { s with commands := commands }

end Functions

/-- The state after the initialisation of both boards. -/
def linkStart (t : BufTable) (i_interface : UInt8) (callbackVector : MsgId → ℕ → Option Callback)
    (data : Elem → List UInt8) (memory : ℕ → UInt8) : Boards :=
  { messages := []
    unsent := []
    transmit := commStart memory
    receive := rxStart
    commands := commandStart t i_interface callbackVector data }

/-! ## What holds in every run -/

/-- The receiver finds what it needs for this byte: a buffer, and room in the queue for a packet that
the byte ends. -/
def Served (d : BufDescription) (s : Receiving Pump Elem) (b : UInt8) : Prop :=
  (s.buffer = none →
    ∃ i < d.msgAmount, (s.world.header ⟨msgIdGenericProtocolPacketReady, i⟩).IsFree) ∧
  (EndsFrame s b → ¬ s.world.Full)

instance (d : BufDescription) (s : Receiving Pump Elem) (b : UInt8) : Decidable (Served d s b) :=
  inferInstanceAs (Decidable ((_ → ∃ i < d.msgAmount, _) ∧ (_ → ¬ _)))

/-- The byte that the interrupt passes to `flawLess_ReceiveIndication`. -/
def handedByte (s : Boards) : LinkAction → Option UInt8
  | .usart1Isr =>
    match s.receive.isrPc with
    | .handing received => some received
    | _ => none
  | _ => none

/-- The interrupt keeps up with the line, and the receiver is served. -/
def KeepsUp (d : BufDescription) (s : Boards) (a : LinkAction) : Prop :=
  s.receive.unread < rxFifoSize ∧
    ∀ received ∈ handedByte s a, Served d s.commands.reception.receiving received

instance (d : BufDescription) (s : Boards) (a : LinkAction) : Decidable (KeepsUp d s a) :=
  inferInstanceAs (Decidable (_ ∧ ∀ received ∈ handedByte s a, _))

/-- What the endpoint for a message is called with, if there is one. -/
def commandOf (handles : List EndpointHandle) (i_interface : UInt8) (m : Message) : Option Command :=
  (handles.find? fun iter => m.subProtocolID = iter.endpointIdentifier).map fun iter =>
    { callback := iter.callback
      payload := m.payload
      packetLen := UInt16.ofNat m.payload.length
      interface := i_interface }

/-- The endpoints are called for the messages that were sent, for each one once, in order and with the
payload it was sent with; and for all of them when the boards are at rest. -/
structure Delivered (handles : List EndpointHandle) (i_interface : UInt8) (s : Boards) : Prop where
  commands : s.commands.commands <+: s.messages.filterMap (commandOf handles i_interface)
  commands_of_atRest : s.AtRest →
    s.commands.commands = s.messages.filterMap (commandOf handles i_interface)

end Powerboard.Link
