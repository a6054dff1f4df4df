import Powerboard.MsgPump.CallbacksTheorems
import Powerboard.MsgPump.Firmware

/-!
# Which ids the message pump accepts

Four functions of `msg_msgPump.c` look an id up in `g_messageBuffers`, each after tests of its own.
Only `msgPump_registerOnMessage` makes them all: `msgPump_unregisterFromMessage` and
`msgPump_postMessage` neither compare with `MSG_ID_SYSTEM_FIRST_ID`, "the min value of the system ids",
nor look whether there is a pool, and `msgPump_getFreeBuffer` refuses the first id itself.
-/

namespace Powerboard.MsgPump

/-! ## The four functions -/

/-- A call of a function that looks up an id. -/
inductive PumpCall
  | registerOnMessage (id : MsgId) (callbackFunction : Option Callback)
  | unregisterFromMessage (id : MsgId) (callbackFunction : Option Callback)
  | postMessage (id : MsgId) (messageToPost : Option Pointer)
  | getFreeBuffer (id : MsgId)

namespace PumpCall

/-- The id that the call looks up. -/
def id : PumpCall → MsgId
  | registerOnMessage id _ | unregisterFromMessage id _ | postMessage id _ | getFreeBuffer id => id

/-- The call, with what it returns and the pump after it. -/
def run (t : BufTable) (p : Pump) : PumpCall → Except Fault (Bool × Pump)
  | registerOnMessage id callbackFunction => MsgPump.registerOnMessage t p id callbackFunction
  | unregisterFromMessage id callbackFunction =>
    MsgPump.unregisterFromMessage t p id callbackFunction
  | postMessage id messageToPost => MsgPump.postMessage t p id messageToPost
  | getFreeBuffer id => (MsgPump.getFreeBuffer t p id).map fun r => (r.1.isSome, r.2)

/-- What the call does with the pool of its id, once it has found it. -/
def serve (d : BufDescription) (p : Pump) : PumpCall → Bool × Pump
  | registerOnMessage id (some callback) =>
    let free := (List.range maxReceivers).find? fun i =>
      p.callbackVector id i = none ∨ p.callbackVector id i = some callback
    match free with
    | some i => (true, p.setCallback id i (some callback))
    | none => (false, p)
  | unregisterFromMessage id (some callback) =>
    let found := (List.range maxReceivers).find? fun i => p.callbackVector id i = some callback
    match found with
    | some i => (false, p.setCallback id i none)
    | none => (false, p)
  | registerOnMessage _ none | unregisterFromMessage _ none => (false, p)
  | postMessage id messageToPost =>
    if p.msgQueueFront = p.msgQueueTail ∧ p.msgQueueSize ≠ 0 then (false, p)
    else
      match messageToPost with
      | some ptr => postPointer d p id ptr
      | none => (true, p.enqueue { id := id, buffer := none, bufferDescription := some d })
  | getFreeBuffer id =>
    let r := getFree p id (List.range d.msgAmount)
    (r.1.isSome, r.2)

end PumpCall

/-- The call is safe and decides by the pools which ids there are: `g_messageBuffers` is not indexed
out of its bounds and no null descriptor is followed; without a pool the call returns false and
changes nothing; with a pool it is served. -/
def AgreesOnIds (t : BufTable) (p : Pump) (call : PumpCall) : Prop :=
  ∃ r, call.run t p = .ok r ∧ (t.messageBuffers call.id = none → r = (false, p)) ∧
    ∀ d, t.messageBuffers call.id = some d → r = call.serve d p

/-- The id is one that the tests of the function are right for: there is a pool for it, or the
function returns before it looks the id up; and it is not the first id with a free element that
`msgPump_getFreeBuffer` could give. -/
def IdChecked (t : BufTable) (p : Pump) : PumpCall → Prop
  | .registerOnMessage _ _ => True
  | .unregisterFromMessage id callbackFunction =>
    callbackFunction = none ∨ lastId ≤ id ∨ t.messageBuffers id ≠ none
  | .postMessage id _ => p.Full ∨ lastId ≤ id ∨ t.messageBuffers id ≠ none
  | .getFreeBuffer id => id = systemFirstId → ∀ d, t.messageBuffers id = some d →
    ∀ i < d.msgAmount, ¬ (p.header ⟨id, i⟩).IsFree

variable {t : BufTable} {p : Pump} {id : MsgId} {d : BufDescription} {call : PumpCall}

/-! ## Ids without a pool -/

/-- An access without a pool gives a null descriptor, or is out of bounds. -/
lemma lookup_of_none (hnone : t.messageBuffers id = none) :
    t.lookup id = .ok none ∧ systemFirstId ≤ id ∨
      t.lookup id = .error .outOfBounds ∧ ¬ (systemFirstId ≤ id ∧ id < lastId) := by
  by_cases hrange : systemFirstId ≤ id ∧ id < lastId
  · exact .inl ⟨by rw [BufTable.lookup, if_pos hrange, hnone], hrange.1⟩
  · exact .inr ⟨by rw [BufTable.lookup, if_neg hrange], hrange⟩

lemma registerOnMessage_of_none (hnone : t.messageBuffers id = none)
    (callbackFunction : Option Callback) :
    registerOnMessage t p id callbackFunction = .ok (false, p) := by
  unfold registerOnMessage
  cases callbackFunction with
  | none => rfl
  | some callback =>
    dsimp only
    split
    · rename_i hrange
      rw [BufTable.lookup, if_pos ⟨hrange.2, hrange.1⟩, hnone]
    · rfl

/-- Without a test the null descriptor is followed, or the table indexed out of its bounds. -/
lemma unregisterFromMessage_of_none (hnone : t.messageBuffers id = none) (callback : Callback)
    (hlast : id < lastId) : ∃ fault, unregisterFromMessage t p id (some callback) = .error fault := by
  unfold unregisterFromMessage
  dsimp only
  rw [if_pos hlast]
  rcases lookup_of_none hnone with ⟨hlookup, -⟩ | ⟨hlookup, -⟩
  · exact ⟨.nullDescriptor, by rw [hlookup]⟩
  · exact ⟨.outOfBounds, by rw [hlookup]⟩

lemma postMessage_of_none (hnone : t.messageBuffers id = none) (messageToPost : Option Pointer)
    (hroom : ¬ p.Full) (hlast : id < lastId) :
    ∃ fault, postMessage t p id messageToPost = .error fault := by
  unfold Pump.Full at hroom
  unfold postMessage
  rw [if_neg hroom, if_pos hlast]
  rcases lookup_of_none hnone with ⟨hlookup, -⟩ | ⟨hlookup, -⟩
  · exact ⟨.nullDescriptor, by rw [hlookup]⟩
  · exact ⟨.outOfBounds, by rw [hlookup]⟩

lemma getFreeBuffer_of_none (hnone : t.messageBuffers id = none) :
    getFreeBuffer t p id = .ok (none, p) := by
  unfold getFreeBuffer
  split
  · rename_i hrange
    rw [BufTable.lookup, if_pos ⟨le_of_lt hrange.2, hrange.1⟩, hnone]
  · rfl

/-! ## Ids with a pool -/

/-- For an id with a pool, every call but that of `msgPump_getFreeBuffer` for the first id is
served. -/
lemma run_eq_serve (hd : t.messageBuffers call.id = some d)
    (hfirst : call ≠ .getFreeBuffer systemFirstId) : call.run t p = .ok (call.serve d p) := by
  have hrange := t.id_range _ d hd
  obtain ⟨hlast, hlookup, hid⟩ := t.lookup_eq hd
  cases call with
  | registerOnMessage id callbackFunction =>
    cases callbackFunction with
    | none => rfl
    | some callback =>
      simp only [PumpCall.id] at hrange hlast hlookup hid
      simp only [PumpCall.run, registerOnMessage, PumpCall.serve, if_pos (And.intro hlast hrange.1),
        hlookup, if_pos hid]
      cases (List.range maxReceivers).find? fun i =>
        p.callbackVector id i = none ∨ p.callbackVector id i = some callback <;> rfl
  | unregisterFromMessage id callbackFunction =>
    cases callbackFunction with
    | none => rfl
    | some callback =>
      simp only [PumpCall.id] at hlast hlookup hid
      simp only [PumpCall.run, unregisterFromMessage, PumpCall.serve, if_pos hlast, hlookup,
        if_pos hid]
      cases (List.range maxReceivers).find? fun i => p.callbackVector id i = some callback <;> rfl
  | postMessage id messageToPost =>
    simp only [PumpCall.id] at hlast hlookup hid
    simp only [PumpCall.run, postMessage, PumpCall.serve, if_pos hlast, hlookup, if_pos hid]
    by_cases hfull : p.msgQueueFront = p.msgQueueTail ∧ p.msgQueueSize ≠ 0
    · simp only [if_pos hfull]
    · simp only [if_neg hfull]
      cases messageToPost <;> rfl
  | getFreeBuffer id =>
    simp only [PumpCall.id] at hrange hlast hlookup
    have hlt : systemFirstId < id := lt_of_le_of_ne hrange.1 fun h => hfirst (h ▸ rfl)
    simp only [PumpCall.run, getFreeBuffer, PumpCall.serve, if_pos (And.intro hlast hlt), hlookup]
    rfl

/-- The first id is refused, whatever pool there is for it. -/
lemma getFreeBuffer_systemFirstId (t : BufTable) (p : Pump) :
    getFreeBuffer t p systemFirstId = .ok (none, p) := by
  rw [getFreeBuffer, if_neg (by simp)]

/-- A reservation is served with nothing exactly if no element is free. -/
lemma serve_getFreeBuffer_iff :
    PumpCall.serve d p (.getFreeBuffer id) = (false, p) ↔
      ∀ i < d.msgAmount, ¬ (p.header ⟨id, i⟩).IsFree := by
  simp only [PumpCall.serve, MsgHeader.isFree_iff]
  rcases @getFree_outcome p id (List.range d.msgAmount) with
    ⟨i, hi, hfree, heq⟩ | ⟨hnone, heq⟩
  · rw [heq]
    simp only [Option.isSome_some, Prod.mk.injEq, Bool.true_eq_false, false_and, false_iff, not_forall]
    exact ⟨i, List.mem_range.mp hi, not_not_intro hfree⟩
  · rw [heq]
    simp only [Option.isSome_none, true_iff]
    exact fun i hi => hnone i (List.mem_range.mpr hi)

/-! ## Which calls agree -/

lemma agreesOnIds_of_none (hnone : t.messageBuffers call.id = none)
    (hrun : call.run t p = .ok (false, p)) : AgreesOnIds t p call :=
  ⟨_, hrun, fun _ => rfl, fun d hd => by rw [hnone] at hd; cases hd⟩

lemma agreesOnIds_of_some (hd : t.messageBuffers call.id = some d)
    (hrun : call.run t p = .ok (call.serve d p)) : AgreesOnIds t p call := by
  refine ⟨_, hrun, fun hnone => ?_, fun d' hd' => ?_⟩
  · rw [hd] at hnone
    cases hnone
  · rw [hd, Option.some.injEq] at hd'
    rw [hd']

lemma not_agreesOnIds_of_fault {fault : Fault} (hrun : call.run t p = .error fault) :
    ¬ AgreesOnIds t p call := by
  rintro ⟨r, hr, -⟩
  rw [hrun] at hr
  cases hr

/-- Without a pool, a call agrees if it does not come to its access to the table. -/
lemma agreesOnIds_iff_of_none (hnone : t.messageBuffers call.id = none) :
    AgreesOnIds t p call ↔ IdChecked t p call := by
  cases call with
  | registerOnMessage id callbackFunction =>
    have hagrees : AgreesOnIds t p (.registerOnMessage id callbackFunction) :=
      agreesOnIds_of_none hnone (registerOnMessage_of_none hnone callbackFunction)
    exact ⟨fun _ => trivial, fun _ => hagrees⟩
  | unregisterFromMessage id callbackFunction =>
    simp only [PumpCall.id] at hnone
    constructor
    · intro h
      by_contra hnot
      simp only [IdChecked, not_or, not_le, not_not, hnone, and_true] at hnot
      obtain ⟨callback, rfl⟩ := Option.ne_none_iff_exists'.mp hnot.1
      obtain ⟨fault, hfault⟩ := unregisterFromMessage_of_none (p := p) hnone callback hnot.2
      have hrun : (PumpCall.unregisterFromMessage id (some callback)).run t p = .error fault := hfault
      exact not_agreesOnIds_of_fault hrun h
    · rintro (rfl | hlast | hsome)
      · exact agreesOnIds_of_none hnone rfl
      · refine agreesOnIds_of_none hnone ?_
        cases callbackFunction with
        | none => rfl
        | some callback =>
          simp only [PumpCall.run, unregisterFromMessage]
          rw [if_neg (not_lt.mpr hlast)]
      · exact absurd hnone hsome
  | postMessage id messageToPost =>
    simp only [PumpCall.id] at hnone
    constructor
    · intro h
      by_contra hnot
      simp only [IdChecked, not_or, not_le, not_not, hnone, and_true] at hnot
      obtain ⟨fault, hfault⟩ := postMessage_of_none hnone messageToPost hnot.1 hnot.2
      have hrun : (PumpCall.postMessage id messageToPost).run t p = .error fault := hfault
      exact not_agreesOnIds_of_fault hrun h
    · rintro (hfull | hlast | hsome)
      · exact agreesOnIds_of_none hnone (if_pos hfull)
      · refine agreesOnIds_of_none hnone ?_
        simp only [PumpCall.run, postMessage]
        rw [if_neg (not_lt.mpr hlast), ite_self]
      · exact absurd hnone hsome
  | getFreeBuffer id =>
    simp only [PumpCall.id] at hnone
    have hagrees : AgreesOnIds t p (.getFreeBuffer id) := by
      refine agreesOnIds_of_none hnone ?_
      rw [PumpCall.run, getFreeBuffer_of_none hnone]
      rfl
    refine ⟨fun _ _ d hd => ?_, fun _ => hagrees⟩
    rw [hnone] at hd
    cases hd

/-- With a pool, a call agrees unless it is one for the first id that could be served. -/
lemma agreesOnIds_iff_of_some (hd : t.messageBuffers call.id = some d) :
    AgreesOnIds t p call ↔ IdChecked t p call := by
  by_cases hfirst : call = .getFreeBuffer systemFirstId
  · subst hfirst
    have hrun : (PumpCall.getFreeBuffer systemFirstId).run t p = .ok (false, p) := by
      rw [PumpCall.run, getFreeBuffer_systemFirstId]
      rfl
    have hiff : AgreesOnIds t p (.getFreeBuffer systemFirstId) ↔
        (PumpCall.getFreeBuffer systemFirstId).serve d p = (false, p) := by
      constructor
      · rintro ⟨r, hr, -, hserve⟩
        rw [hrun, Except.ok.injEq] at hr
        rw [← hserve d hd, hr]
      · intro hserve
        exact agreesOnIds_of_some hd (by rw [hrun, hserve])
    rw [hiff, serve_getFreeBuffer_iff]
    constructor
    · intro hfree _ d' hd'
      rw [PumpCall.id] at hd
      rw [hd, Option.some.injEq] at hd'
      exact hd' ▸ hfree
    · intro hchecked
      exact hchecked rfl d hd
  · have hagrees : AgreesOnIds t p call := agreesOnIds_of_some hd (run_eq_serve hd hfirst)
    have hchecked : IdChecked t p call := by
      cases call with
      | registerOnMessage id callbackFunction => trivial
      | unregisterFromMessage id callbackFunction =>
        exact .inr (.inr (Option.ne_none_iff_exists'.mpr ⟨d, hd⟩))
      | postMessage id messageToPost =>
        exact .inr (.inr (Option.ne_none_iff_exists'.mpr ⟨d, hd⟩))
      | getFreeBuffer id => exact fun h => absurd (h ▸ rfl) hfirst
    simp only [hagrees, hchecked]

/-- The calls that agree are exactly those for which the tests of the function are right. -/
theorem agreesOnIds_iff_idChecked (t : BufTable) (p : Pump) (call : PumpCall) :
    AgreesOnIds t p call ↔ IdChecked t p call := by
  cases hd : t.messageBuffers call.id with
  | none => exact agreesOnIds_iff_of_none hd
  | some d => exact agreesOnIds_iff_of_some hd

/-! ## Calls that do not agree -/

/-- The pools with one for the packet statistics, which have the first id. -/
def statisticsPool : BufTable where
  messageBuffers id := if id = systemFirstId then some (declarePool 8 1 id (by decide)) else none
  id_eq := by
    intro id d h
    split at h
    · rw [← Option.some.inj h]
      rfl
    · cases h
  id_range := by
    intro id d h
    split at h
    · rename_i hid
      subst hid
      decide
    · cases h

/-- The id -2 has no pool on the power board: unregistering from it follows the null descriptor, and
so does posting; below the first id the table is left. The first id is refused, though it has a pool
with a free element. -/
theorem calls_disagree_on_ids :
    let p := (initial (fun _ _ => none) fun _ => []).pump
    (PumpCall.unregisterFromMessage (-2) (some 0)).run firmware p = .error .nullDescriptor ∧
      (PumpCall.unregisterFromMessage (-4) (some 0)).run firmware p = .error .outOfBounds ∧
      (PumpCall.postMessage (-2) none).run firmware p = .error .nullDescriptor ∧
      (PumpCall.postMessage (-4) none).run firmware p = .error .outOfBounds ∧
      (PumpCall.getFreeBuffer (-3)).run statisticsPool p = .ok (false, p) ∧
      statisticsPool.messageBuffers (-3) ≠ none ∧ (p.header ⟨-3, 0⟩).IsFree ∧
      ¬ ∀ t p call, AgreesOnIds t p call := by
  refine ⟨rfl, rfl, rfl, rfl, rfl, by decide, by decide, fun h => ?_⟩
  have hrun : (PumpCall.unregisterFromMessage (-2) (some 0)).run firmware
      (initial (fun _ _ => none) fun _ => []).pump = .error .nullDescriptor := rfl
  exact not_agreesOnIds_of_fault hrun (h _ _ _)

end Powerboard.MsgPump
