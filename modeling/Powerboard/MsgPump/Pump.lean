import Mathlib.Data.UInt
import Mathlib.Logic.Function.Basic
import Mathlib.Tactic

/-!
# The message pump

`msg_msgPump.c`: buffer pools with a header before each element, a ring of queued messages, and the
loop that dispatches them.

The functions that run with the mutex locked are single steps on the state `Pump`. The body of the
loop in `msgPump_pumpMessage` runs with the mutex open, so it is cut into the steps of `dispatch`
between which interrupts and callbacks may run.

The pools are declared at link time and do not change: they are the `BufTable`, which is what
`msgPump_init` leaves in `g_messageBuffers`. The sizes in a declaration are those of real memory, so
that the 16 and 32 bit computations with them do not wrap.
-/

namespace Powerboard.MsgPump

/-- `msgPump_MsgID_t` -/
abbrev MsgId := ℤ

/-- `MSG_ID_SYSTEM_FIRST_ID` -/
def systemFirstId : MsgId := -3

/-- `MSG_LAST_ID` -/
def lastId : MsgId := 7

/-- `MSG_PUMP_MSG_QUEUE_MAX_SIZE` -/
def msgQueueMaxSize : ℕ := 16

/-- `MAX_AMOUNT_OF_MSG_RECERIVER_PER_MESSAGE` -/
def maxReceivers : ℕ := 4

/-- `MSG_PUMP_MAGIC` -/
def magic : UInt32 := 0xDEADBEEF

/-- `MSG_BUFFER_MSG_OVERHEAD`: the magic, the reference count, the flags and the padding -/
def msgOverhead : ℕ := 8

/-- `msgPump_MessageBufferFlag_t` -/
inductive Flag
  | nothing
  | postedNotDispatched
  | inUse
  | bufferNotUsable
  deriving DecidableEq

/-- `msgPumpMsgHeader_t` -/
structure MsgHeader where
  headerMagic : UInt32
  refCnt : ℕ
  flags : Flag
  deriving DecidableEq

/-- The constant part of `msgBufDescription_t`. The size of a message is that of its type, rounded up
to a multiple of 4. -/
structure BufDescription where
  msgSize : ℕ
  msgAmount : ℕ
  id : MsgId
  msgSize_pos : 0 < msgSize
  deriving DecidableEq

/-- `g_messageBuffers` after `msgPump_init`. -/
structure BufTable where
  messageBuffers : MsgId → Option BufDescription
  id_eq : ∀ id d, messageBuffers id = some d → d.id = id
  id_range : ∀ id d, messageBuffers id = some d → systemFirstId ≤ id ∧ id < lastId

/-- An element of the pool of an id; a pointer to its data. -/
structure Elem where
  id : MsgId
  index : ℕ
  deriving DecidableEq

/-- What `msgPump_postMessage` gets as `messageToPost`: how far it is from the data of the pool of
the message id, and the bytes that are there. -/
structure Pointer where
  ptrOffset : ℤ
  bytes : ℕ → UInt8

/-- The pointer to an element of the pool. -/
def BufDescription.pointerTo (d : BufDescription) (index : ℕ) (bytes : ℕ → UInt8) : Pointer :=
  { ptrOffset := index * (d.msgSize + msgOverhead) + msgOverhead, bytes := bytes }

/-- `msgPumpMsgQueueEntry_t` -/
structure QueueEntry where
  id : MsgId
  buffer : Option Elem
  bufferDescription : Option BufDescription
  deriving DecidableEq

/-- A callback function. -/
abbrev Callback := ℕ

/-- The globals of the message pump, with the headers and the data of all pool elements. -/
structure Pump where
  msgQueueFront : ℕ
  msgQueueTail : ℕ
  msgQueueSize : ℕ
  msgQueue : ℕ → QueueEntry
  header : Elem → MsgHeader
  data : Elem → List UInt8
  callbackVector : MsgId → ℕ → Option Callback
  /-- how often the header in front of the null pointer was written -/
  nullHeaderWrites : ℕ

/-- What cannot happen on the device without undefined behaviour. -/
inductive Fault
  /-- `g_messageBuffers` is indexed out of its bounds -/
  | outOfBounds
  /-- a null descriptor is followed -/
  | nullDescriptor
  deriving DecidableEq

/-- An access to `g_messageBuffers`. -/
def BufTable.lookup (t : BufTable) (id : MsgId) : Except Fault (Option BufDescription) :=
  if systemFirstId ≤ id ∧ id < lastId then .ok (t.messageBuffers id) else .error .outOfBounds

/-- The test for a free element, as in `msgPump_postMessage` and in `msgPump_getFreeBuffer`. -/
def MsgHeader.IsFree (h : MsgHeader) : Prop :=
  h.refCnt = 0 ∧ h.headerMagic = magic ∧ h.flags = .nothing

instance : DecidablePred MsgHeader.IsFree := fun h =>
  inferInstanceAs (Decidable (h.refCnt = 0 ∧ h.headerMagic = magic ∧ h.flags = .nothing))

/-- The test for an element that is reserved and by no one else in use, in `msgPump_postMessage`. -/
def MsgHeader.IsReserved (h : MsgHeader) : Prop :=
  h.refCnt = 1 ∧ h.flags = .inUse ∧ h.headerMagic = magic

instance : DecidablePred MsgHeader.IsReserved := fun h =>
  inferInstanceAs (Decidable (h.refCnt = 1 ∧ h.flags = .inUse ∧ h.headerMagic = magic))

namespace Pump

/-- The state with another header of an element. -/
def setHeader (p : Pump) (e : Elem) (h : MsgHeader) : Pump :=
  { p with header := Function.update p.header e h }

/-- The state with other data of an element. -/
def setData (p : Pump) (e : Elem) (content : List UInt8) : Pump :=
  { p with data := Function.update p.data e content }

/-- The insertion of a message into the queue. -/
def enqueue (p : Pump) (entry : QueueEntry) : Pump :=
  { p with
    msgQueue := Function.update p.msgQueue p.msgQueueTail entry
    msgQueueTail := (p.msgQueueTail + 1) % msgQueueMaxSize
    msgQueueSize := p.msgQueueSize + 1 }

end Pump

/-- `setBufferFlag` -/
def setBufferFlag (p : Pump) (buffer : Option Elem) (flag : Flag) : Pump :=
  match buffer with
  | some e => p.setHeader e { p.header e with flags := flag }
  | none => { p with nullHeaderWrites := p.nullHeaderWrites + 1 }

/-- `msgPump_lockMessage` -/
def lockMessage (p : Pump) (messageToLock : Option Elem) : Bool × Pump :=
  match messageToLock with
  | some e =>
    let header := p.header e
    if header.refCnt < 255 ∧ header.flags ≠ .bufferNotUsable ∧ header.headerMagic = magic then
      (true, p.setHeader e { header with refCnt := header.refCnt + 1 })
    else (false, p)
  | none => (false, p)

/-- `msgPump_unlockMessage` -/
def unlockMessage (p : Pump) (messageToUnlock : Option Elem) : Bool × Pump :=
  match messageToUnlock with
  | some e =>
    let header := p.header e
    if 0 < header.refCnt ∧ header.flags ≠ .bufferNotUsable ∧ header.headerMagic = magic then
      (true, p.setHeader e { header with refCnt := header.refCnt - 1 })
    else (false, p)
  | none => (false, p)

/-! ## Posting -/

/-- `msgPump_postMessage` with a pointer to an element of the pool of the message. -/
def postReserved (d : BufDescription) (p : Pump) (id : MsgId) (e : Elem) : Bool × Pump :=
  if (p.header e).IsReserved then
    let p := p.setHeader e { p.header e with flags := .postedNotDispatched, refCnt := 1 }
    (true, p.enqueue { id := id, buffer := some e, bufferDescription := some d })
  else
    -- "magic recovery"
    (false, p.setHeader e { headerMagic := magic, refCnt := 0, flags := .nothing })

/-- The loop of `msgPump_postMessage` that looks for a free element and copies the message. -/
def postCopy (d : BufDescription) (p : Pump) (id : MsgId) (messageToPost : ℕ → UInt8) :
    List ℕ → Bool × Pump
  | [] => (false, p)
  | i :: rest =>
    let e : Elem := { id := id, index := i }
    if (p.header e).IsFree then
      match lockMessage p (some e) with
      | (true, p) =>
        let p := p.setHeader e { p.header e with flags := .postedNotDispatched }
        let p := p.setData e ((List.range d.msgSize).map messageToPost)
        (true, p.enqueue { id := id, buffer := some e, bufferDescription := some d })
      | (false, p) => postCopy d p id messageToPost rest
    else postCopy d p id messageToPost rest

/-- `msgPump_postMessage` for a pointer that is not null, from the point where there is room in the
queue and the message buffer is found. -/
def postPointer (d : BufDescription) (p : Pump) (id : MsgId) (messageToPost : Pointer) :
    Bool × Pump :=
  let ptrOffset := messageToPost.ptrOffset
  let bufLen : ℤ := d.msgAmount * (msgOverhead + d.msgSize)
  if (msgOverhead : ℤ) ≤ ptrOffset ∧ ptrOffset < bufLen then
    let msgLenWithOverhead : ℤ := d.msgSize + msgOverhead
    if ptrOffset % msgLenWithOverhead = msgOverhead then
      postReserved d p id { id := id, index := (ptrOffset / msgLenWithOverhead).toNat }
    else (false, p)
  else postCopy d p id messageToPost.bytes (List.range d.msgAmount)

/-- `msgPump_postMessage` -/
def postMessage (t : BufTable) (p : Pump) (id : MsgId) (messageToPost : Option Pointer) :
    Except Fault (Bool × Pump) :=
  if p.msgQueueFront = p.msgQueueTail ∧ p.msgQueueSize ≠ 0 then .ok (false, p)
  else if id < lastId then
    match t.lookup id with
    | .error fault => .error fault
    | .ok none => .error .nullDescriptor
    | .ok (some d) =>
      if id = d.id then
        match messageToPost with
        | some ptr => .ok (postPointer d p id ptr)
        | none =>
          .ok (true, p.enqueue { id := id, buffer := none, bufferDescription := some d })
      else .ok (false, p)
  else .ok (false, p)

/-! ## Reserving -/

/-- The loop of `msgPump_getFreeBuffer`. -/
def getFree (p : Pump) (id : MsgId) : List ℕ → Option Elem × Pump
  | [] => (none, p)
  | i :: rest =>
    let e : Elem := { id := id, index := i }
    if (p.header e).IsFree then
      match lockMessage p (some e) with
      | (true, p) => (some e, p.setHeader e { p.header e with flags := .inUse })
      | (false, p) => getFree p id rest
    else getFree p id rest

/-- `msgPump_getFreeBuffer`, for a destination that is not null. -/
def getFreeBuffer (t : BufTable) (p : Pump) (id : MsgId) : Except Fault (Option Elem × Pump) :=
  if id < lastId ∧ systemFirstId < id then
    match t.lookup id with
    | .error fault => .error fault
    | .ok none => .ok (none, p)
    | .ok (some d) => .ok (getFree p id (List.range d.msgAmount))
  else .ok (none, p)

/-! ## Dispatching -/

/-- Where `msgPump_pumpMessage` is in its loop body. -/
inductive DispatchPc
  /-- before the test for a queued message -/
  | waiting
  /-- before the test of callback `i`; the callback before it may still be running -/
  | calling (i : ℕ)
  /-- the flag is cleared -/
  | cleared
  /-- the message is unlocked -/
  | unlocked
  deriving DecidableEq

/-- A call of a callback, with what the buffer it gets holds at that time. -/
structure Call where
  callback : Callback
  id : MsgId
  content : Option (List UInt8)
  deriving DecidableEq

/-- The message pump and where its loop is. -/
structure PumpState where
  pump : Pump
  pc : DispatchPc

/-- The next step of `msgPump_pumpMessage`, and the callback it calls. -/
def dispatch (s : PumpState) : Except Fault (PumpState × Option Call) :=
  let message := s.pump.msgQueue s.pump.msgQueueFront
  match s.pc with
  | .waiting =>
    if s.pump.msgQueueSize ≠ 0 then
      .ok ({ pump := setBufferFlag s.pump message.buffer .inUse, pc := .calling 0 }, none)
    else .ok (s, none)
  | .calling i =>
    if i < maxReceivers then
      match message.bufferDescription with
      | none => .error .nullDescriptor
      | some d =>
        let call := (s.pump.callbackVector d.id i).map fun callback =>
          { callback := callback, id := d.id, content := message.buffer.map s.pump.data }
        .ok ({ s with pc := .calling (i + 1) }, call)
    else .ok ({ pump := setBufferFlag s.pump message.buffer .nothing, pc := .cleared }, none)
  | .cleared => .ok ({ pump := (unlockMessage s.pump message.buffer).2, pc := .unlocked }, none)
  | .unlocked =>
    let pump := { s.pump with
      msgQueueFront := (s.pump.msgQueueFront + 1) % msgQueueMaxSize
      msgQueueSize := s.pump.msgQueueSize - 1 }
    .ok ({ pump := pump, pc := .waiting }, none)

/-- The state after `msgPump_init`: no message queued, every element free. -/
def initial (callbackVector : MsgId → ℕ → Option Callback) (data : Elem → List UInt8) :
    PumpState :=
  { pump :=
      { msgQueueFront := 0
        msgQueueTail := 0
        msgQueueSize := 0
        msgQueue := fun _ => { id := 0, buffer := none, bufferDescription := none }
        header := fun _ => { headerMagic := magic, refCnt := 0, flags := .nothing }
        data := data
        callbackVector := callbackVector
        nullHeaderWrites := 0 }
    pc := .waiting }

end Powerboard.MsgPump
