import Powerboard.Library.Machine
import Powerboard.MsgPump.PumpTheorems

/-!
# Clients that keep the rules of the message pump

Any number of interrupts and callbacks that use the message pump as it is meant to be used: they
post own objects, which are copied, or elements they have reserved and hold no other lock of, once
and without writing to them afterwards; and they unlock what they have locked.

The state carries, besides the pump, what the clients know (what they have reserved and locked) and
two histories: the successful posts with their contents, and the calls of the callbacks.
-/

namespace Powerboard.MsgPump

/-- The message pump with its clients. -/
structure Clients where
  state : PumpState
  /-- reserved with `msgPump_getFreeBuffer` and not yet posted or given back -/
  reserved : Elem → Bool
  /-- the number of locks the clients hold -/
  locks : Elem → ℕ
  /-- the successful posts: id, and content at the time of the post -/
  posted : List (MsgId × List UInt8)
  /-- the calls of callbacks -/
  calls : List Call

inductive ClientAction
  /-- post an object that is outside the pool of the id -/
  | postOwn (id : MsgId) (messageToPost : Pointer)
  /-- post an element that is reserved and carries no other lock -/
  | postReserved (e : Elem)
  | getFreeBuffer (id : MsgId)
  /-- write to a reserved element -/
  | write (e : Elem) (content : List UInt8)
  /-- give a reserved element back -/
  | release (e : Elem)
  | lock (e : Elem)
  | unlock (e : Elem)
  /-- a step of the loop of `msgPump_pumpMessage` -/
  | dispatch

namespace Clients

/-- The state with another pump. -/
def setPump (c : Clients) (p : Pump) : Clients := { c with state := { c.state with pump := p } }

/-- A post of the content, with its result. -/
def post (c : Clients) (message : MsgId × List UInt8) (r : Bool × Pump) : Clients :=
  if r.1 then { c.setPump r.2 with posted := c.posted ++ [message] } else c.setPump r.2

/-- The state after `msgPump_init`. -/
def initial (callbackVector : MsgId → ℕ → Option Callback) (data : Elem → List UInt8) : Clients :=
  { state := MsgPump.initial callbackVector data
    reserved := fun _ => false
    locks := fun _ => 0
    posted := []
    calls := [] }

end Clients

instance (d : BufDescription) (ptr : Pointer) : Decidable (d.InPool ptr) :=
  inferInstanceAs (Decidable (_ ∧ _))

/-- The state after the action, if the rules allow it. -/
def clientStep (t : BufTable) (c : Clients) : ClientAction → Option Clients
  | .postOwn id ptr =>
    match t.messageBuffers id with
    | none => none
    | some d =>
      if d.InPool ptr then none
      else
        match postMessage t c.state.pump id (some ptr) with
        | .ok r => some (c.post (id, copied d ptr) r)
        | .error _ => none
  | .postReserved e =>
    match t.messageBuffers e.id with
    | none => none
    | some d =>
      if c.reserved e ∧ c.locks e = 0 then
        let content := c.state.pump.data e
        match postMessage t c.state.pump e.id
            (some (d.pointerTo e.index fun k => content.getD k 0)) with
        | .ok r =>
          some { c.post (e.id, content) r with
            reserved := if r.1 then Function.update c.reserved e false else c.reserved }
        | .error _ => none
      else none
  | .getFreeBuffer id =>
    match MsgPump.getFreeBuffer t c.state.pump id with
    | .ok (some e, p) =>
      some { c.setPump p with reserved := Function.update c.reserved e true }
    | .ok (none, p) => some (c.setPump p)
    | .error _ => none
  | .write e content =>
    if c.reserved e then some (c.setPump (c.state.pump.setData e content)) else none
  | .release e =>
    if c.reserved e then
      some { c.setPump (unlockMessage c.state.pump (some e)).2 with
        reserved := Function.update c.reserved e false }
    else none
  | .lock e =>
    match lockMessage c.state.pump (some e) with
    | (true, p) => some { c.setPump p with locks := Function.update c.locks e (c.locks e + 1) }
    | (false, p) => some (c.setPump p)
  | .unlock e =>
    if 0 < c.locks e then
      some { c.setPump (unlockMessage c.state.pump (some e)).2 with
        locks := Function.update c.locks e (c.locks e - 1) }
    else none
  | .dispatch =>
    match MsgPump.dispatch c.state with
    | .ok r => some { c with state := r.1, calls := c.calls ++ r.2.toList }
    | .error _ => none

/-- The calls for a message, up to the callback `n`: every callback of its id in order, with its id
and its content. -/
def callsFor (callbackVector : MsgId → ℕ → Option Callback) (n : ℕ)
    (message : MsgId × List UInt8) : List Call :=
  (List.range n).filterMap fun i => (callbackVector message.1 i).map fun callback =>
    { callback := callback, id := message.1, content := some message.2 }

end Powerboard.MsgPump
