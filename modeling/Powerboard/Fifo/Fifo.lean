import Mathlib.Data.UInt
import Powerboard.Library.Calls

/-!
# The generic FIFO

`genericFiFo.h`: the handle and the functions that `CREATE_GENERIC_FIFO` makes for an element type
and a capacity. A null pointer is `none`. The functions are single steps: what is between
`GEN_FIFO_CLI_FUNCTION` and `GEN_FIFO_SEI_FUNCTION` is not interrupted.
-/

namespace Powerboard.Fifo

/-- `_ErrorType_t` -/
inductive ErrorType
  | okay
  | underrun
  | overrun
  | invalidUsage
  deriving DecidableEq

/-- A `fifoCnt` that the `uint16_t` members of the handle can count to. -/
structure Capacity where
  fifoCnt : ℕ
  pos : 0 < fifoCnt
  lt : fifoCnt < 65536

/-- `_fifoHandle_t` -/
structure FifoHandle (α : Type) (c : Capacity) where
  data : Vector α c.fifoCnt
  count : UInt16
  start : UInt16
  /-- `end` -/
  endIndex : UInt16

variable {α : Type} {c : Capacity}

/-! ## The functions -/

/-- The handle after `_init`. -/
def FifoHandle.initialized (handle : FifoHandle α c) : FifoHandle α c :=
  { handle with count := 0, start := 0, endIndex := 0 }

/-- `_init` -/
def init (i_handle : Option (FifoHandle α c)) : Option (FifoHandle α c) :=
  i_handle.map FifoHandle.initialized

/-- `_put`, with the handle after it. There is no result if it writes behind the array. -/
def put (i_data : Option α) (i_handle : Option (FifoHandle α c)) :
    Option (ErrorType × Option (FifoHandle α c)) :=
  match i_data, i_handle with
  | some data, some handle =>
    if handle.count.toNat < c.fifoCnt then
      if hend : handle.endIndex.toNat < c.fifoCnt then
        some (.okay, some
          { data := handle.data.set handle.endIndex.toNat data
            start := handle.start
            endIndex := UInt16.ofNat ((handle.endIndex.toNat + 1) % c.fifoCnt)
            count := handle.count + 1 })
      else none
    else some (.overrun, some handle)
  | _, _ => some (.invalidUsage, i_handle)

/-- `_peek`, with what `o_data` points to after it. There is no result if it reads behind the
array. -/
def peek (i_handle : Option (FifoHandle α c)) (i_index : UInt8) (o_data : Option α) :
    Option (ErrorType × Option α) :=
  match i_handle, o_data with
  | some handle, some _ =>
    if c.fifoCnt ≤ i_index.toNat then some (.invalidUsage, o_data)
    else if i_index.toNat < handle.count.toNat then
      let index := UInt8.ofNat ((handle.start.toNat + i_index.toNat) % c.fifoCnt)
      (handle.data[index.toNat]?).map fun stored => (.okay, some stored)
    else some (.underrun, o_data)
  | _, _ => some (.invalidUsage, o_data)

/-- `_get`, with the handle and what `o_data` points to after it. There is no result if it reads
behind the array. -/
def get (i_handle : Option (FifoHandle α c)) (o_data : Option α) :
    Option (ErrorType × Option (FifoHandle α c) × Option α) :=
  match i_handle, o_data with
  | some handle, some _ =>
    if 0 < handle.count.toNat then
      (handle.data[handle.start.toNat]?).map fun stored =>
        (.okay, some
          { handle with
            start := UInt16.ofNat ((handle.start.toNat + 1) % c.fifoCnt)
            count := handle.count - 1 }, some stored)
    else some (.underrun, i_handle, o_data)
  | _, _ => some (.invalidUsage, i_handle, o_data)

/-- `_getCount` -/
def getCount (i_handle : Option (FifoHandle α c)) : UInt8 :=
  match i_handle with
  | some handle => handle.count.toUInt8
  | none => 0

/-! ## Calls and their results -/

/-- A call with arguments that are not null. A variable that `o_data` points to has a value before
the call. -/
inductive FifoCall (α : Type)
  | init
  | put (i_data : α)
  | get (o_data : α)
  | peek (i_index : UInt8) (o_data : α)
  | getCount
  deriving DecidableEq

/-- What the caller gets, with the variable that `o_data` points to. -/
inductive Result (α : Type)
  | init
  | put (error : ErrorType)
  | get (error : ErrorType) (o_data : α)
  | peek (error : ErrorType) (o_data : α)
  | getCount (count : ℕ)
  deriving DecidableEq

/-- The handle and the result of a call. -/
def fifoCall (handle : FifoHandle α c) : FifoCall α → Option (FifoHandle α c × Result α)
  | .init => (init (some handle)).map fun handle => (handle, .init)
  | .put i_data =>
    match put (some i_data) (some handle) with
    | some (error, some handle) => some (handle, .put error)
    | _ => none
  | .get o_data =>
    match get (some handle) (some o_data) with
    | some (error, some handle, some o_data) => some (handle, .get error o_data)
    | _ => none
  | .peek i_index o_data =>
    match peek (some handle) i_index (some o_data) with
    | some (error, some o_data) => some (handle, .peek error o_data)
    | _ => none
  | .getCount => some (handle, .getCount (getCount (some handle)).toNat)

/-! ## The bounded queue -/

/-- What the FIFO should be: a list of at most `fifoCnt` elements, the oldest first. -/
structure BoundedQueue (α : Type) (c : Capacity) where
  elements : List α
  length_le : elements.length ≤ c.fifoCnt

namespace BoundedQueue

def empty : BoundedQueue α c := { elements := [], length_le := Nat.zero_le _ }

/-- The queue without its oldest element. -/
def tail (q : BoundedQueue α c) : BoundedQueue α c where
  elements := q.elements.tail
  length_le := by
    have hle := q.length_le
    rw [List.length_tail]
    omega

/-- The queue with one more element, if there is room. -/
def push (q : BoundedQueue α c) (x : α) (h : q.elements.length < c.fifoCnt) :
    BoundedQueue α c where
  elements := q.elements ++ [x]
  length_le := by rwa [List.length_append, List.length_singleton]

/-- The queue after a call and what the call should return. -/
def call (q : BoundedQueue α c) : FifoCall α → BoundedQueue α c × Result α
  | .init => (empty, .init)
  | .put i_data =>
    if h : q.elements.length < c.fifoCnt then (q.push i_data h, .put .okay)
    else (q, .put .overrun)
  | .get o_data =>
    match q.elements.head? with
    | some oldest => (q.tail, .get .okay oldest)
    | none => (q, .get .underrun o_data)
  | .peek i_index o_data =>
    match q.elements[i_index.toNat]? with
    | some element => (q, .peek .okay element)
    | none =>
      if i_index.toNat < c.fifoCnt then (q, .peek .underrun o_data)
      else (q, .peek .invalidUsage o_data)
  | .getCount => (q, .getCount q.elements.length)

end BoundedQueue

/-- The call is not one of those that come out wrong. `_peek` of a stored element comes to a place
below 256, or to one that holds the same element as the place that the 8 bits of its index give, and
`_getCount` counts to at most 255. -/
def Fits (handle : FifoHandle α c) : FifoCall α → Prop
  | .peek i_index _ =>
    let index := (handle.start.toNat + i_index.toNat) % c.fifoCnt
    i_index.toNat < handle.count.toNat →
      index < 256 ∨ handle.data[index % 256]? = handle.data[index]?
  | .getCount => handle.count.toNat < 256
  | .init | .put _ | .get _ => True

end Powerboard.Fifo
