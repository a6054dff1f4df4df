import Powerboard.CString.CString
import Powerboard.Library.Calls
import Powerboard.MsgPump.Pump

/-!
# The message pump in memory

`msg_msgPump.c` again, now with its pools as the bytes they are: an element is a header of 8 bytes
(`headerMagic`, `refCnt`, `flags`, `padding`) and the message behind it, the elements of a pool lie
one behind the other, and a message is known by the address of its first byte. The functions compute
addresses as the source does: `((msgPumpMsgHeader_t*) buffer) - 1`,
`data[i * (msgSize + MSG_BUFFER_MSG_OVERHEAD)]`, `messageToPost - data`.

The null pointer is 0; what is in front of it are the last bytes of the address space. The addresses
of real memory differ by less than `int32_t` holds.
-/

namespace Powerboard.MsgPump

open Memory CString

/-- `bufferSize * (msgSize + MSG_BUFFER_MSG_OVERHEAD)` -/
def BufDescription.poolSize (d : BufDescription) : ℕ := d.msgAmount * (d.msgSize + msgOverhead)

/-- Where the linker put the pools: the `data` of each descriptor. -/
structure Layout (t : BufTable) where
  data : MsgId → ℕ
  data_pos : ∀ id, 0 < data id
  disjoint : ∀ id id' d d', t.messageBuffers id = some d → t.messageBuffers id' = some d' →
    id ≠ id' → data id + d.poolSize ≤ data id' ∨ data id' + d'.poolSize ≤ data id

/-- `msgPump_MessageBufferFlag_t` as its values -/
def Flag.value : Flag → UInt8
  | .nothing => 0
  | .postedNotDispatched => 1
  | .inUse => 2
  | .bufferNotUsable => 4

/-- `msgPumpMsgQueueEntry_t`, with the address -/
structure MemEntry where
  id : MsgId
  buffer : ℤ
  bufferDescription : Option BufDescription

/-- The globals of the message pump and the memory -/
structure MemPump where
  mem : Mem
  msgQueueFront : ℕ
  msgQueueTail : ℕ
  msgQueueSize : ℕ
  msgQueue : ℕ → MemEntry
  callbackVector : MsgId → ℕ → Option Callback

/-- Where an address is: those from `0x80000000` on are in front of the null pointer. -/
def place (address : UInt32) : ℤ :=
  if address.toNat < 2 ^ 31 then address.toNat else address.toNat - 2 ^ 32

/-! ## Headers -/

/-- `((msgPumpMsgHeader_t*) buffer) - 1` -/
def headerOf (buffer : ℤ) : ℤ := buffer - msgOverhead

/-- `header->headerMagic` -/
def headerMagic (mem : Mem) (header : ℤ) : UInt32 := word mem header

/-- `header->refCnt` -/
def refCnt (mem : Mem) (header : ℤ) : UInt8 := mem (header + 4)

/-- `header->flags` -/
def flags (mem : Mem) (header : ℤ) : UInt8 := mem (header + 5)

/-- The flags of the header in front of the null pointer, where `setBufferFlag` writes for a message
without a buffer -/
def nullFlags : ℤ := headerOf 0 + 5

def setHeaderMagic (mem : Mem) (header : ℤ) (v : UInt32) : Mem := writeWord mem header v

def setRefCnt (mem : Mem) (header : ℤ) (v : UInt8) : Mem := write mem (header + 4) v

def setFlags (mem : Mem) (header : ℤ) (v : UInt8) : Mem := write mem (header + 5) v

/-! ## The functions -/

namespace MemPump

/-- The insertion of a message into the queue. -/
def enqueue (p : MemPump) (entry : MemEntry) : MemPump :=
  { p with
    msgQueue := Function.update p.msgQueue p.msgQueueTail entry
    msgQueueTail := (p.msgQueueTail + 1) % msgQueueMaxSize
    msgQueueSize := p.msgQueueSize + 1 }

/-- `setBufferFlag` -/
def setBufferFlag (p : MemPump) (buffer : ℤ) (flag : Flag) : MemPump :=
  { p with mem := setFlags p.mem (headerOf buffer) flag.value }

/-- `msgPump_lockMessage` -/
def lockMessage (p : MemPump) (messageToLock : ℤ) : Bool × MemPump :=
  if messageToLock ≠ 0 then
    let header := headerOf messageToLock
    if refCnt p.mem header < 255 ∧ flags p.mem header ≠ Flag.bufferNotUsable.value ∧
        headerMagic p.mem header = magic then
      (true, { p with mem := setRefCnt p.mem header (refCnt p.mem header + 1) })
    else (false, p)
  else (false, p)

/-- `msgPump_unlockMessage` -/
def unlockMessage (p : MemPump) (messageToUnlock : ℤ) : Bool × MemPump :=
  if messageToUnlock ≠ 0 then
    let header := headerOf messageToUnlock
    if 0 < refCnt p.mem header ∧ flags p.mem header ≠ Flag.bufferNotUsable.value ∧
        headerMagic p.mem header = magic then
      (true, { p with mem := setRefCnt p.mem header (refCnt p.mem header - 1) })
    else (false, p)
  else (false, p)

/-- The test for a free element. -/
def IsFree (mem : Mem) (header : ℤ) : Prop :=
  refCnt mem header = 0 ∧ headerMagic mem header = magic ∧ flags mem header = Flag.nothing.value

instance (mem : Mem) (header : ℤ) : Decidable (IsFree mem header) :=
  inferInstanceAs (Decidable (_ ∧ _))

/-- `msgPump_postMessage` with a pointer to an element of the pool of the message. -/
def postReserved (d : BufDescription) (p : MemPump) (id : MsgId) (messageToPost : ℤ) :
    Bool × MemPump :=
  let header := headerOf messageToPost
  if refCnt p.mem header = 1 ∧ flags p.mem header = Flag.inUse.value ∧
      headerMagic p.mem header = magic then
    let mem := setFlags p.mem header Flag.postedNotDispatched.value
    let mem := setRefCnt mem header 1
    (true, enqueue { p with mem := mem }
      { id := id, buffer := messageToPost, bufferDescription := some d })
  else
    -- "magic recovery"
    let mem := setFlags p.mem header Flag.nothing.value
    let mem := setRefCnt mem header 0
    (false, { p with mem := setHeaderMagic mem header magic })

/-- The loop of `msgPump_postMessage` that looks for a free element and copies the message. -/
def postCopy (d : BufDescription) (data : ℤ) (p : MemPump) (id : MsgId) (messageToPost : ℤ) :
    List ℕ → Bool × MemPump
  | [] => (false, p)
  | i :: rest =>
    let curHeader := data + i * (d.msgSize + msgOverhead)
    let dataPtr := curHeader + msgOverhead
    if IsFree p.mem curHeader then
      match lockMessage p dataPtr with
      | (true, p) =>
        let mem := setFlags p.mem curHeader Flag.postedNotDispatched.value
        let mem := memcpy mem dataPtr messageToPost d.msgSize
        (true, enqueue { p with mem := mem }
          { id := id, buffer := dataPtr, bufferDescription := some d })
      | (false, p) => postCopy d data p id messageToPost rest
    else postCopy d data p id messageToPost rest

/-- `msgPump_postMessage` for a pointer that is not null, once the message buffer is found. -/
def postPointer (d : BufDescription) (data : ℤ) (p : MemPump) (id : MsgId) (messageToPost : ℤ) :
    Bool × MemPump :=
  let ptrOffset := messageToPost - data
  let bufLen : ℤ := d.msgAmount * (msgOverhead + d.msgSize)
  if (msgOverhead : ℤ) ≤ ptrOffset ∧ ptrOffset < bufLen then
    let msgLenWithOverhead : ℤ := d.msgSize + msgOverhead
    if ptrOffset % msgLenWithOverhead = msgOverhead then postReserved d p id messageToPost
    else (false, p)
  else postCopy d data p id messageToPost (List.range d.msgAmount)

/-- `msgPump_postMessage` -/
def postMessage {t : BufTable} (l : Layout t) (p : MemPump) (id : MsgId) (messageToPost : ℤ) :
    Except Fault (Bool × MemPump) :=
  if p.msgQueueFront = p.msgQueueTail ∧ p.msgQueueSize ≠ 0 then .ok (false, p)
  else if id < lastId then
    match t.lookup id with
    | .error fault => .error fault
    | .ok none => .error .nullDescriptor
    | .ok (some d) =>
      if id = d.id then
        if messageToPost ≠ 0 then .ok (postPointer d (l.data id) p id messageToPost)
        else .ok (true, enqueue p { id := id, buffer := messageToPost, bufferDescription := some d })
      else .ok (false, p)
  else .ok (false, p)

/-- The loop of `msgPump_getFreeBuffer`, with what it leaves in `*o_destPtr`. -/
def getFree (d : BufDescription) (data : ℤ) (p : MemPump) : List ℕ → ℤ × MemPump
  | [] => (0, p)
  | i :: rest =>
    let header := data + i * (d.msgSize + msgOverhead)
    let bufData := header + msgOverhead
    if IsFree p.mem header then
      match lockMessage p bufData with
      | (true, p) => (bufData, { p with mem := setFlags p.mem header Flag.inUse.value })
      | (false, p) => getFree d data p rest
    else getFree d data p rest

/-- `msgPump_getFreeBuffer`, for a destination that is not null. -/
def getFreeBuffer {t : BufTable} (l : Layout t) (p : MemPump) (id : MsgId) :
    Except Fault (ℤ × MemPump) :=
  if id < lastId ∧ systemFirstId < id then
    match t.lookup id with
    | .error fault => .error fault
    | .ok none => .ok (0, p)
    | .ok (some d) => .ok (getFree d (l.data id) p (List.range d.msgAmount))
  else .ok (0, p)

/-- `msgPump_init` for one descriptor. -/
def initPool (d : BufDescription) (data : ℤ) (mem : Mem) : Mem :=
  (List.range d.msgAmount).foldl (fun mem (i : ℕ) =>
    setHeaderMagic mem (data + i * (d.msgSize + msgOverhead)) magic) (memset mem data 0 d.poolSize)

/-- `msgPump_init` over the section of the descriptors. -/
def init {t : BufTable} (l : Layout t) (p : MemPump) (descriptions : List BufDescription) :
    MemPump :=
  { p with
    mem := descriptions.foldl (fun mem d => initPool d (l.data d.id) mem) p.mem
    msgQueueFront := 0
    msgQueueTail := 0
    msgQueueSize := 0
    msgQueue := fun _ => { id := 0, buffer := 0, bufferDescription := none } }

end MemPump

/-- The message pump in memory and where its loop is. -/
structure MemState where
  pump : MemPump
  pc : DispatchPc

/-- The next step of `msgPump_pumpMessage`, and the callback it calls, with what its argument points
to at that time. -/
def MemState.dispatch (s : MemState) : Except Fault (MemState × Option Call) :=
  let message := s.pump.msgQueue s.pump.msgQueueFront
  match s.pc with
  | .waiting =>
    if s.pump.msgQueueSize ≠ 0 then
      .ok ({ pump := s.pump.setBufferFlag message.buffer .inUse, pc := .calling 0 }, none)
    else .ok (s, none)
  | .calling i =>
    if i < maxReceivers then
      match message.bufferDescription with
      | none => .error .nullDescriptor
      | some d =>
        let call := (s.pump.callbackVector d.id i).map fun callback =>
          { callback := callback
            id := d.id
            content :=
              if message.buffer = 0 then none
              else some (bytes s.pump.mem message.buffer d.msgSize) }
        .ok ({ s with pc := .calling (i + 1) }, call)
    else .ok ({ pump := s.pump.setBufferFlag message.buffer .nothing, pc := .cleared }, none)
  | .cleared => .ok ({ pump := (s.pump.unlockMessage message.buffer).2, pc := .unlocked }, none)
  | .unlocked =>
    let pump := { s.pump with
      msgQueueFront := (s.pump.msgQueueFront + 1) % msgQueueMaxSize
      msgQueueSize := s.pump.msgQueueSize - 1 }
    .ok ({ pump := pump, pc := .waiting }, none)

/-! ## Calls -/

/-- The address of an element's message. -/
def Layout.pointer {t : BufTable} (l : Layout t) (e : Elem) : ℤ :=
  match t.messageBuffers e.id with
  | some d => l.data e.id + e.index * (d.msgSize + msgOverhead) + msgOverhead
  | none => 0

/-- The address that stands for an element or for nothing. -/
def Layout.address {t : BufTable} (l : Layout t) : Option Elem → ℤ
  | some e => l.pointer e
  | none => 0

/-- A use of the message pump. What is locked and unlocked is a pointer that the message pump gave,
or null. -/
inductive MemCall
  | post (id : MsgId) (messageToPost : ℤ)
  | getFreeBuffer (id : MsgId)
  | lock (e : Option Elem)
  | unlock (e : Option Elem)
  /-- a byte of a message is written -/
  | writeElement (e : Elem) (k : ℕ) (v : UInt8)
  /-- a byte elsewhere is written -/
  | writeElsewhere (a : ℤ) (v : UInt8)
  /-- a step of the loop of `msgPump_pumpMessage` -/
  | dispatch

/-- What a use returns -/
inductive MemResult
  | done
  | success (b : Bool)
  | buffer (a : ℤ)
  | called (call : Option Call)
  deriving DecidableEq

/-- The memory after a use of the message pump, and what it returns. -/
def memCall {t : BufTable} (l : Layout t) (s : MemState) : MemCall → Option (MemState × MemResult)
  | .post id messageToPost =>
    match s.pump.postMessage l id messageToPost with
    | .ok r => some ({ s with pump := r.2 }, .success r.1)
    | .error _ => none
  | .getFreeBuffer id =>
    match s.pump.getFreeBuffer l id with
    | .ok r => some ({ s with pump := r.2 }, .buffer r.1)
    | .error _ => none
  | .lock e =>
    let r := s.pump.lockMessage (l.address e)
    some ({ s with pump := r.2 }, .success r.1)
  | .unlock e =>
    let r := s.pump.unlockMessage (l.address e)
    some ({ s with pump := r.2 }, .success r.1)
  | .writeElement e k v =>
    some ({ s with pump := { s.pump with mem := write s.pump.mem (l.pointer e + k) v } }, .done)
  | .writeElsewhere a v =>
    some ({ s with pump := { s.pump with mem := write s.pump.mem a v } }, .done)
  | .dispatch =>
    match s.dispatch with
    | .ok r => some (r.1, .called r.2)
    | .error _ => none

/-- An element of a pool. -/
def BufTable.HasElem (t : BufTable) (e : Elem) : Prop :=
  ∃ d, t.messageBuffers e.id = some d ∧ e.index < d.msgAmount

/-- The address lies in a pool, behind its first header. -/
def BufDescription.InPoolAt (d : BufDescription) (data : ℕ) (a : ℤ) : Prop :=
  (msgOverhead : ℤ) ≤ a - data ∧ a - data < d.msgAmount * (msgOverhead + d.msgSize)

/-- What the users of the message pump keep to: the pointers are to elements, a message that is
copied lies outside of the pool it is copied into, and no header is written. -/
def MemCall.Allowed {t : BufTable} (l : Layout t) : MemCall → Prop
  | .post id a => ∀ d, t.messageBuffers id = some d → a ≠ 0 →
      d.InPoolAt (l.data id) a ∨ a + d.msgSize ≤ l.data id ∨ l.data id + d.poolSize ≤ a
  | .getFreeBuffer _ => True
  | .lock e | .unlock e => ∀ x ∈ e, t.HasElem x
  | .writeElement e k _ => ∃ d, t.messageBuffers e.id = some d ∧ e.index < d.msgAmount ∧
      k < d.msgSize
  | .writeElsewhere a _ => ∀ id d, t.messageBuffers id = some d →
      a < l.data id ∨ l.data id + d.poolSize ≤ a
  | .dispatch => True

/-! ## The same calls on elements -/

inductive ElemCall
  | post (id : MsgId) (messageToPost : Option Pointer)
  | getFreeBuffer (id : MsgId)
  | lock (e : Option Elem)
  | unlock (e : Option Elem)
  | write (e : Elem) (k : ℕ) (v : UInt8)
  | elsewhere
  | dispatch

/-- The pump after a call, and what it returns, with the addresses of the elements. -/
def elemCall {t : BufTable} (l : Layout t) (s : PumpState) :
    ElemCall → Option (PumpState × MemResult)
  | .post id messageToPost =>
    match MsgPump.postMessage t s.pump id messageToPost with
    | .ok r => some ({ s with pump := r.2 }, .success r.1)
    | .error _ => none
  | .getFreeBuffer id =>
    match MsgPump.getFreeBuffer t s.pump id with
    | .ok r => some ({ s with pump := r.2 }, .buffer (l.address r.1))
    | .error _ => none
  | .lock e =>
    let r := MsgPump.lockMessage s.pump e
    some ({ s with pump := r.2 }, .success r.1)
  | .unlock e =>
    let r := MsgPump.unlockMessage s.pump e
    some ({ s with pump := r.2 }, .success r.1)
  | .write e k v =>
    some ({ s with pump := s.pump.setData e ((s.pump.data e).set k v) }, .done)
  | .elsewhere => some (s, .done)
  | .dispatch =>
    match MsgPump.dispatch s with
    | .ok r => some (r.1, .called r.2)
    | .error _ => none

/-- The pointer of a caller, as the message pump sees it. -/
def pointerAt {t : BufTable} (l : Layout t) (mem : Mem) (id : MsgId) (a : ℤ) : Pointer :=
  { ptrOffset := a - l.data id, bytes := fun k => mem (a + k) }

/-- What a call on the bytes means for the elements. -/
def MemCall.asElemCall {t : BufTable} (l : Layout t) (s : MemState) : MemCall → ElemCall
  | .post id a => .post id (if a = 0 then none else some (pointerAt l s.pump.mem id a))
  | .getFreeBuffer id => .getFreeBuffer id
  | .lock e => .lock e
  | .unlock e => .unlock e
  | .writeElement e k v => .write e k v
  | .writeElsewhere _ _ => .elsewhere
  | .dispatch => .dispatch

/-- What the calls of a run mean, each in the state it is made in. -/
def asElemCalls {t : BufTable} (l : Layout t) (s : MemState) : List MemCall → List ElemCall
  | [] => []
  | c :: cs => c.asElemCall l s :: ((memCall l s c).elim [] fun r => asElemCalls l r.1 cs)

end Powerboard.MsgPump
