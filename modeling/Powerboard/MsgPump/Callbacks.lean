import Powerboard.MsgPump.QueueTheorems

/-!
# The callbacks of a message

`msgPump_registerOnMessage` and `msgPump_unregisterFromMessage` of `msg_msgPump.c`, which change the
callback vector that the loop of `msgPump_pumpMessage` goes through.
-/

namespace Powerboard.MsgPump

/-! ## The functions -/

/-- The pump with another entry in a callback vector. -/
def Pump.setCallback (p : Pump) (id : MsgId) (i : ℕ) (callback : Option Callback) : Pump :=
  { p with
    callbackVector :=
      Function.update p.callbackVector id (Function.update (p.callbackVector id) i callback) }

/-- `msgPump_registerOnMessage`: the callback goes into the first entry that is empty or holds it. -/
def registerOnMessage (t : BufTable) (p : Pump) (id : MsgId) (callbackFunction : Option Callback) :
    Except Fault (Bool × Pump) :=
  match callbackFunction with
  | some callback =>
    if id < lastId ∧ systemFirstId ≤ id then
      match t.lookup id with
      | .error fault => .error fault
      | .ok none => .ok (false, p)
      | .ok (some d) =>
        if id = d.id then
          let free := (List.range maxReceivers).find? fun i =>
            p.callbackVector id i = none ∨ p.callbackVector id i = some callback
          match free with
          | some i => .ok (true, p.setCallback id i (some callback))
          | none => .ok (false, p)
        else .ok (false, p)
    else .ok (false, p)
  | none => .ok (false, p)

/-- `msgPump_unregisterFromMessage`: the first entry that holds the callback is emptied. What it
returns is never set to `TRUE`. -/
def unregisterFromMessage (t : BufTable) (p : Pump) (id : MsgId)
    (callbackFunction : Option Callback) : Except Fault (Bool × Pump) :=
  match callbackFunction with
  | some callback =>
    if id < lastId then
      match t.lookup id with
      | .error fault => .error fault
      | .ok none => .error .nullDescriptor
      | .ok (some d) =>
        if id = d.id then
          let found := (List.range maxReceivers).find? fun i =>
            p.callbackVector id i = some callback
          match found with
          | some i => .ok (false, p.setCallback id i none)
          | none => .ok (false, p)
        else .ok (false, p)
    else .ok (false, p)
  | none => .ok (false, p)

/-- The callback is in the callback vector of the message. -/
def Pump.Registered (p : Pump) (id : MsgId) (callback : Callback) : Prop :=
  ∃ i < maxReceivers, p.callbackVector id i = some callback

instance (p : Pump) (id : MsgId) (callback : Callback) : Decidable (p.Registered id callback) :=
  inferInstanceAs (Decidable (∃ i < maxReceivers, p.callbackVector id i = some callback))

/-! ## The system -/

/-- What a step has shown of the callback vectors. -/
inductive CallbackEvent
  | registered (id : MsgId) (callback : Callback) (registerSuccess : Bool)
  | unregistered (id : MsgId) (callback : Callback) (unRegisterSuccess wasRegistered : Bool)
  | called (id : MsgId) (callback : Callback)
  deriving DecidableEq

/-- The message pump, what the last step has shown, and the history of the callbacks. -/
structure Callbacks where
  state : PumpState
  event : Option CallbackEvent
  /-- `msgPump_unregisterFromMessage` was called for it, and not `msgPump_registerOnMessage` since -/
  removed : MsgId → Callback → Bool
  /-- the callbacks called for the message that is dispatched -/
  calledNow : List (MsgId × Callback)

inductive CallbackAction
  | registerOnMessage (id : MsgId) (callback : Callback)
  | unregisterFromMessage (id : MsgId) (callback : Callback)
  /-- any other step of the message pump and its clients -/
  | pump (a : Action)

/-- The call of a callback in this step. -/
def callOf (s : PumpState) : Action → Option Call
  | .dispatch =>
    match MsgPump.dispatch s with
    | .ok r => r.2
    | .error _ => none
  | _ => none

/-- The history with another entry. -/
def setRemoved (removed : MsgId → Callback → Bool) (id : MsgId) (callback : Callback) (b : Bool) :
    MsgId → Callback → Bool :=
  Function.update removed id (Function.update (removed id) callback b)

/-- The state after the action, if it has no undefined behaviour. -/
def callbackStep (t : BufTable) (s : Callbacks) : CallbackAction → Option Callbacks
  | .registerOnMessage id callback =>
    match MsgPump.registerOnMessage t s.state.pump id (some callback) with
    | .ok r =>
      some { s with
        state := { s.state with pump := r.2 }
        event := some (.registered id callback r.1)
        removed := setRemoved s.removed id callback false }
    | .error _ => none
  | .unregisterFromMessage id callback =>
    match MsgPump.unregisterFromMessage t s.state.pump id (some callback) with
    | .ok r =>
      some { s with
        state := { s.state with pump := r.2 }
        event := some
          (.unregistered id callback r.1 (decide (s.state.pump.Registered id callback)))
        removed := setRemoved s.removed id callback true }
    | .error _ => none
  | .pump a =>
    (step t s.state a).map fun state =>
      let call := callOf s.state a
      { s with
        state := state
        event := call.map fun c => .called c.id c.callback
        calledNow :=
          (if s.state.pc = .waiting then [] else s.calledNow) ++
            (call.map fun c => (c.id, c.callback)).toList }

/-- The state after `msgPump_init`, with no callback registered. -/
def callbacksStart (data : Elem → List UInt8) : Callbacks :=
  { state := initial (fun _ _ => none) data, event := none, removed := fun _ _ => false
    calledNow := [] }

/-! ## What the callbacks should keep -/

/-- No callback is twice in a callback vector. -/
def Pump.CallbacksDiffer (p : Pump) : Prop :=
  ∀ id i j callback, i < maxReceivers → j < maxReceivers →
    p.callbackVector id i = some callback → p.callbackVector id j = some callback → i = j

/-- The callbacks of a message behave as a set. -/
structure CallbackSet (s : Callbacks) : Prop where
  differ : s.state.pump.CallbacksDiffer
  calledOnce : s.calledNow.Nodup
  /-- registering returns whether the callback is registered afterwards -/
  registered : ∀ id callback success, s.event = some (.registered id callback success) →
    (success = true ↔ s.state.pump.Registered id callback)
  /-- unregistering returns whether the callback was registered -/
  unregistered : ∀ id callback success wasRegistered,
    s.event = some (.unregistered id callback success wasRegistered) → success = wasRegistered
  /-- what is unregistered is not called -/
  called : ∀ id callback, s.event = some (.called id callback) → s.removed id callback = false

/-- The action does not unregister a callback that is registered. -/
def NoRemoval (s : Callbacks) (a : CallbackAction) : Prop :=
  ∀ id callback, a = .unregisterFromMessage id callback → ¬ s.state.pump.Registered id callback

end Powerboard.MsgPump
