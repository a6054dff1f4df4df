import Powerboard.Library.Sections
import Mathlib.Data.UInt

/-!
# The mutex

`system.c`: `system_mutex_lock` masks the interrupts and counts, `system_mutex_unlock` counts back
and unmasks them when the count is 0.

The processor is modelled at the granularity at which an interrupt may come: an instruction of the
code around, the `CPSID` and the `CPSIE`, and each read and each write of the volatile
`g_lockCounter`. The contexts are the main program and the handlers that preempt it and one another;
which handlers may, the priorities of the interrupt controller say, so that here every one may.
The log calls are compiled out.
-/

namespace Powerboard.System

open Powerboard.Sections

variable {D L : Type}

/-- Where a context is: at a location of its own code, or in a function of the mutex that goes on at
a location. -/
inductive Pc (L : Type)
  | code (l : L)
  /-- in `system_mutex_lock`, before the read of `++g_lockCounter` -/
  | lockRead (k : L)
  /-- before the write of `++g_lockCounter` -/
  | lockWrite (k : L) (counter : UInt32)
  /-- in `system_mutex_unlock`, before the read of `--g_lockCounter` -/
  | unlockRead (k : L)
  /-- before the write of `--g_lockCounter` -/
  | unlockWrite (k : L) (counter : UInt32)
  /-- before the test `0 == g_lockCounter` -/
  | unlockTest (k : L)
  /-- before the `CPSIE` -/
  | unlockEnable (k : L)
  deriving DecidableEq

/-- The location in its own code where a context is or goes on. -/
def Pc.location : Pc L → L
  | .code l => l
  | .lockRead k | .lockWrite k _ | .unlockRead k | .unlockWrite k _ | .unlockTest k
  | .unlockEnable k => k

/-- The processor and its memory. The running context is the first. -/
structure Cpu (D L : Type) where
  primask : Bool
  lockCounter : UInt32
  data : D
  contexts : List (Pc L)

/-- After `system_init`, with the interrupts enabled. -/
def initial (data : D) (main : L) : Cpu D L :=
  { primask := false, lockCounter := 0, data := data, contexts := [.code main] }

inductive Action (L : Type)
  /-- the next instruction of the running context -/
  | instruction
  /-- the entry of a handler -/
  | interrupt (entry : L)
  deriving DecidableEq

/-- The handler that an action lets in. -/
def Action.entry : Action L → Option L
  | .instruction => none
  | .interrupt entry => some entry

/-- The handlers that come in, in order. -/
def entries (as : List (Action L)) : List L := as.filterMap Action.entry

/-- An instruction of the context `pc`. -/
def instruction (P : Program D L) (s : Cpu D L) (pc : Pc L) (rest : List (Pc L)) : Cpu D L :=
  match pc with
  | .code l =>
    match P.op l with
    | .lock k => { s with primask := true, contexts := .lockRead k :: rest }
    | .unlock k =>
      if s.lockCounter > 0 then { s with contexts := .unlockRead k :: rest }
      else { s with contexts := .unlockTest k :: rest }
    | .work f => { s with data := (f s.data).1, contexts := .code (f s.data).2 :: rest }
    | .ret => { s with contexts := rest }
  | .lockRead k => { s with contexts := .lockWrite k s.lockCounter :: rest }
  | .lockWrite k counter =>
    { s with lockCounter := counter + 1, contexts := .code k :: rest }
  | .unlockRead k => { s with contexts := .unlockWrite k s.lockCounter :: rest }
  | .unlockWrite k counter =>
    { s with lockCounter := counter - 1, contexts := .unlockTest k :: rest }
  | .unlockTest k =>
    if 0 = s.lockCounter then { s with contexts := .unlockEnable k :: rest }
    else { s with contexts := .code k :: rest }
  | .unlockEnable k => { s with primask := false, contexts := .code k :: rest }

/-- A handler comes in where the interrupts are not masked, and begins with no lock held. -/
def step (P : Program D L) (s : Cpu D L) : Action L → Option (Cpu D L)
  | .instruction =>
    match s.contexts with
    | [] => none
    | pc :: rest => some (instruction P s pc rest)
  | .interrupt entry =>
    if s.primask = false ∧ P.depth entry = 0 then
      some { s with contexts := .code entry :: s.contexts }
    else none

/-! ## What holds between the counter, the mask and the depths -/

/-- The mask and the counter are those of a context that is at `pc`. -/
def Agrees (P : Program D L) (primask : Bool) (lockCounter : UInt32) : Pc L → Prop
  | .code l => lockCounter.toNat = P.depth l ∧ (primask = true ↔ 0 < P.depth l)
  | .lockRead k => primask = true ∧ lockCounter.toNat + 1 = P.depth k
  | .lockWrite k counter =>
    primask = true ∧ lockCounter.toNat + 1 = P.depth k ∧ counter = lockCounter
  | .unlockRead k => primask = true ∧ lockCounter.toNat = P.depth k + 1
  | .unlockWrite k counter =>
    primask = true ∧ lockCounter.toNat = P.depth k + 1 ∧ counter = lockCounter
  | .unlockTest k => lockCounter.toNat = P.depth k ∧ (0 < P.depth k → primask = true)
  | .unlockEnable k => lockCounter.toNat = P.depth k ∧ P.depth k = 0

/-- The running context has the mask and the counter it counts on; the others were preempted where
nothing was locked, and find it so again. -/
def Consistent (P : Program D L) (s : Cpu D L) : Prop :=
  match s.contexts with
  | [] => s.primask = false ∧ s.lockCounter = 0
  | pc :: rest => Agrees P s.primask s.lockCounter pc ∧ ∀ q ∈ rest, Agrees P false 0 q

/-- The running context is outside of every section. -/
def Outside (P : Program D L) (s : Cpu D L) : Prop :=
  ∀ pc ∈ s.contexts.head?, P.depth pc.location = 0

end Powerboard.System
