import Powerboard.Communication.Communication

/-!
# The receive path

`communication.c`: a DMA channel writes the bytes that come in to `g_rxFifoBuf`, over and over from its
beginning. `usart1_isr` reads behind it, with an index of its own, and hands each byte on to
`flawLess_ReceiveIndication`.

Bytes come in between any two accesses of the interrupt.
-/

namespace Powerboard.Communication

/-- `RX_FIFO_SIZE` -/
def rxFifoSize : ℕ := 128

/-- Where `usart1_isr` is. -/
inductive IsrPc
  /-- it does not run -/
  | idle
  /-- before the test of the loop -/
  | loop
  /-- before it reads the byte -/
  | reading
  /-- before it advances the index -/
  | advancing (received : UInt8)
  /-- before it hands the byte on -/
  | handing (received : UInt8)
  /-- behind the loop -/
  | behind
  deriving DecidableEq

/-- The globals of the receive path, and the bytes that went through it. -/
structure RxGlobals where
  /-- `g_rxFifoBuf` -/
  rxFifoBuf : ℕ → UInt8
  /-- `DMA1_CNDTR` of the channel `COM_2_PWR_RX_DMA_CHANNEL` -/
  cndtr : ℕ
  rxFifoReadIndex : ℕ
  isrPc : IsrPc
  /-- the bytes that the DMA has written -/
  received : List UInt8
  /-- the bytes passed to `flawLess_ReceiveIndication` -/
  handed : List UInt8
  /-- not in the source: the loop has ended, and no byte came in since -/
  ended : Bool

/-- The state after `comm2pwrBrd_init`. -/
def rxStart : RxGlobals :=
  { rxFifoBuf := fun _ => 0, cndtr := rxFifoSize, rxFifoReadIndex := 0, isrPc := .idle
    received := [], handed := [], ended := false }

namespace RxGlobals

/-- The DMA writes a byte. The register counts down, and from the beginning again behind the last
byte of the buffer. -/
def dmaWrite (s : RxGlobals) (byte : UInt8) : RxGlobals :=
  { s with
    rxFifoBuf := Function.update s.rxFifoBuf (rxFifoSize - s.cndtr) byte
    cndtr := if s.cndtr = 1 then rxFifoSize else s.cndtr - 1
    received := s.received ++ [byte]
    ended := false }

/-- The next step of `usart1_isr`. The dummy read on an overrun takes nothing that the DMA has
written. -/
def usart1Isr (s : RxGlobals) : RxGlobals :=
  match s.isrPc with
  | .idle => { s with isrPc := .loop }
  | .loop =>
    if s.rxFifoReadIndex ≠ subU32 rxFifoSize s.cndtr then { s with isrPc := .reading }
    else { s with isrPc := .behind, ended := true }
  | .reading => { s with isrPc := .advancing (s.rxFifoBuf s.rxFifoReadIndex) }
  | .advancing received =>
    { s with rxFifoReadIndex := (s.rxFifoReadIndex + 1) % rxFifoSize, isrPc := .handing received }
  | .handing received => { s with handed := s.handed ++ [received], isrPc := .loop }
  | .behind => { s with isrPc := .idle }

/-- The bytes that the interrupt has read from the buffer. -/
def taken (s : RxGlobals) : List UInt8 :=
  match s.isrPc with
  | .advancing received | .handing received => s.handed ++ [received]
  | .idle | .loop | .reading | .behind => s.handed

/-- How many bytes are in the buffer and not read yet. -/
def unread (s : RxGlobals) : ℕ := s.received.length - s.taken.length

end RxGlobals

inductive RxAction
  /-- a byte comes in -/
  | receive (byte : UInt8)
  | usart1Isr
  deriving DecidableEq

/-- One step. Every action is possible in every state. -/
def rxStep (s : RxGlobals) : RxAction → Option RxGlobals
  | .receive byte => some (s.dmaWrite byte)
  | .usart1Isr => some s.usart1Isr

/-- Each byte is handed on once and in order, and all of them when the loop has ended. -/
structure HandsOn (s : RxGlobals) : Prop where
  handed_isPrefix : s.handed <+: s.received
  handed_eq_of_ended : s.ended = true → s.handed = s.received
  rxFifoReadIndex_lt : s.rxFifoReadIndex < rxFifoSize

end Powerboard.Communication
