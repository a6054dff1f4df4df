import Powerboard.Library.Machine
import Powerboard.Library.RingBuffer

/-!
# The transmit path

`communication.c`: `phySendFunction0` stores the bytes to send in the ring `g_txFifo`, from which a
DMA transfer takes them; the interrupt at the end of a transfer removes what was sent and starts the
next one.

The sections with the mutex locked are single steps where nothing outside of them can tell the
difference. The DMA does not know the mutex: it reads the memory byte by byte, also between two bytes
of a `memcpy`.
-/

namespace Powerboard.Communication

/-- `TX_FIFO_SIZE` -/
def txFifoSize : ℕ := 128

/-- A value as a `uint16_t` holds it. -/
def toU16 (n : ℕ) : ℕ := n % 65536

/-- The difference of two `unsigned int`s. -/
def subU32 (a b : ℕ) : ℕ := (a + 4294967296 - b) % 4294967296

/-! ## The state -/

/-- The transfer that the enabled channel `COM_2_PWR_TX_DMA_CHANNEL` is programmed with. -/
structure DmaTransfer where
  /-- `DMA1_CMAR`, as an index into `g_txFifo.data` -/
  cmar : ℕ
  /-- `DMA1_CNDTR`, which the channel counts down -/
  cndtr : ℕ
  transferred : ℕ
  deriving DecidableEq

/-- Where a call of `phySendFunction0` is. -/
inductive SendPc
  | idle
  /-- before the test of the loop -/
  | loop (data : List UInt8) (packetBuffered : ℕ)
  /-- in the `memcpy`, with the mutex locked -/
  | storing (data : List UInt8) (packetBuffered elementsToStore copied : ℕ)
  /-- behind the unlock and before `trigger_transmision` -/
  | stored (data : List UInt8) (packetBuffered : ℕ)
  deriving DecidableEq

/-- The globals of the transmit path, and the bytes that went through it. -/
structure Globals where
  /-- `g_txFifo.data` -/
  data : ℕ → UInt8
  /-- `g_txFifo.count` -/
  count : ℕ
  /-- `g_txFifo.start` -/
  start : ℕ
  /-- `g_txFifo.end` -/
  endIndex : ℕ
  currentTXTransactionSize : ℕ
  /-- the channel, if it is enabled -/
  dma : Option DmaTransfer
  sendPc : SendPc
  /-- `dma1_ch2_3_isr` has removed bytes and not yet called `trigger_transmision` -/
  inIsr : Bool
  /-- the arguments of all calls of `phySendFunction0`, one behind the other -/
  given : List UInt8
  /-- the bytes that were put into the ring -/
  stored : List UInt8
  /-- the bytes that the DMA has read -/
  sent : List UInt8

/-- The state after `comm2pwrBrd_init`. -/
def commStart (data : ℕ → UInt8) : Globals :=
  { data := data, count := 0, start := 0, endIndex := 0, currentTXTransactionSize := 0
    dma := none, sendPc := .idle, inIsr := false, given := [], stored := [], sent := [] }

/-! ## The functions -/

/-- `trigger_transmision` -/
def triggerTransmision (s : Globals) : Globals :=
  let bytesToSendCurrently := toU16 (min (subU32 txFifoSize s.start) s.count)
  if 0 < bytesToSendCurrently ∧ s.currentTXTransactionSize = 0 then
    { s with
      dma := some { cmar := s.start, cndtr := bytesToSendCurrently, transferred := 0 }
      currentTXTransactionSize := bytesToSendCurrently }
  else s

/-- "how much of that packet can we send at once" -/
def elementsToStore (s : Globals) (packetLen packetBuffered : ℕ) : ℕ :=
  let spaceFree := toU16 (subU32 txFifoSize s.count)
  let spaceFreeTillWrap := toU16 (min (subU32 txFifoSize s.endIndex) spaceFree)
  toU16 (min (packetLen - packetBuffered) spaceFreeTillWrap)

/-- The next step of `phySendFunction0`. -/
def phySendFunction0 (s : Globals) : Option Globals :=
  match s.sendPc with
  | .idle => none
  | .loop data packetBuffered =>
    if packetBuffered < data.length then
      let n := elementsToStore s data.length packetBuffered
      some { s with sendPc := .storing data packetBuffered n 0 }
    else some { s with sendPc := .idle }
  | .storing data packetBuffered n copied =>
    if copied < n then
      some { s with
        data := Function.update s.data (s.endIndex + copied) (data.getD (packetBuffered + copied) 0)
        sendPc := .storing data packetBuffered n (copied + 1) }
    else
      some { s with
        endIndex := (s.endIndex + n) % txFifoSize
        count := toU16 (s.count + n)
        stored := s.stored ++ (data.drop packetBuffered).take n
        sendPc := .stored data (toU16 (packetBuffered + n)) }
  | .stored data packetBuffered =>
    some { triggerTransmision s with sendPc := .loop data packetBuffered }

/-- The DMA reads the next byte. -/
def dmaRead (s : Globals) : Option Globals :=
  match s.dma with
  | none => none
  | some d =>
    if 0 < d.cndtr then
      some { s with
        sent := s.sent ++ [s.data (d.cmar + d.transferred)]
        dma := some { d with cndtr := d.cndtr - 1, transferred := d.transferred + 1 } }
    else none

/-- `dma1_ch2_3_isr` up to the unlock. It is entered when the transfer is complete. -/
def dma1Ch23Isr (s : Globals) : Option Globals :=
  match s.dma with
  | none => none
  | some d =>
    if d.cndtr = 0 then
      some { s with
        dma := none
        start := (s.start + s.currentTXTransactionSize) % txFifoSize
        count := toU16 (subU32 s.count s.currentTXTransactionSize)
        currentTXTransactionSize := 0
        inIsr := true }
    else none

/-! ## The system -/

/-- What the caller, the DMA and the interrupt can do. -/
inductive CommAction
  /-- `phySendFunction0` is called with these bytes -/
  | call (data : List UInt8)
  | phySendFunction0
  | dmaRead
  | dma1Ch23Isr
  deriving DecidableEq

/-- The mutex is locked, so that no interrupt is served. -/
def Globals.locked (s : Globals) : Bool :=
  match s.sendPc with
  | .storing .. => true
  | _ => false

/-- One step. The length of a call is a `uint16_t`. The steps of the call and of the interrupt may
come in any order outside of the locked sections, in more orders than one processor allows. -/
def commStep (s : Globals) : CommAction → Option Globals
  | .call data =>
    if s.sendPc = .idle ∧ data.length < 65536 then
      some { s with sendPc := .loop data 0, given := s.given ++ data }
    else none
  | .phySendFunction0 => phySendFunction0 s
  | .dmaRead => dmaRead s
  | .dma1Ch23Isr =>
    if s.locked then none
    else if s.inIsr then some { triggerTransmision s with inIsr := false }
    else dma1Ch23Isr s

end Powerboard.Communication
