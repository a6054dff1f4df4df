import Powerboard.Init.SystemInitializer
import Powerboard.MsgPump.CallbacksTheorems
import Powerboard.Protocol.PacketBuffersTheorems

/-!
# Every module finds what it needs

Whatever order the linker chose inside a level, the RAM is cleared before the message pump is
initialised, and this before the first registration. So no step of the start has undefined behaviour,
no registration is refused, and what is registered at the end does not depend on the order.
-/

namespace Powerboard.SystemInitializer

open Machine MsgPump GenericProtocol PowerCheck

/-! ## The order of the calls -/

/-- The level of the function that makes the call. -/
def InitCall.level : InitCall → ℕ
  | .memoryInit => 1
  | .msgPumpInit | .hwTimerInit => 2
  | .swTimerInit => 4
  | .registerOnMessage _ callback =>
    if callback = onReceivedPacketMsgPumpCallback ∨ callback = Measuring.onNewPwrMeasurement then 5
    else 9
  | .genericProtocolInit => 5
  | .registerOnLateInitTimer => 8

/-- All calls, in one of the orders. -/
def allCalls : List InitCall := modules.flatMap Module.initFunction

lemma nodup_allCalls : allCalls.Nodup := by decide

lemma level_of_mem {m : Module} {c : InitCall} (h : c ∈ m.initFunction) : c.level = m.initLevel := by
  have hall : ∀ c ∈ m.initFunction, c.level = m.initLevel := by
    cases m <;> decide
  exact hall c h

lemma registerOnMessage_mem_allCalls {id : MsgId} {callback : Callback} :
    .registerOnMessage id callback ∈ allCalls ↔ (id, callback) ∈ registrations := by
  have hcalls : (allCalls.filterMap fun c => match c with
      | .registerOnMessage id callback => some (id, callback)
      | _ => none) = registrations := by decide
  rw [← hcalls, List.mem_filterMap]
  constructor
  · intro h
    exact ⟨_, h, rfl⟩
  · rintro ⟨c, hc, heq⟩
    cases c with
    | registerOnMessage id' callback' =>
      simp only [Option.some.injEq, Prod.mk.injEq] at heq
      rwa [← heq.1, ← heq.2]
    | _ => cases heq

/-- The list has every call once, by level. -/
structure InOrder (calls : List InitCall) : Prop where
  perm : calls.Perm allCalls
  sorted : calls.Pairwise fun c d => c.level ≤ d.level

lemma flatMap_callsOf (initFunctions : List (Option Module)) :
    initFunctions.flatMap callsOf = (initFunctions.filterMap id).flatMap Module.initFunction := by
  induction initFunctions with
  | nil => rfl
  | cons funcPtr rest ih =>
    cases funcPtr with
    | none => simpa [callsOf] using ih
    | some m => simpa [callsOf] using ih

/-- The linker puts the calls into the order of their levels. -/
lemma Linked.inOrder {initFunctions : List (Option Module)} (h : Linked initFunctions) :
    InOrder (initFunctions.flatMap callsOf) := by
  rw [flatMap_callsOf]
  refine ⟨h.perm.flatMap_right _, List.pairwise_flatMap.mpr ⟨?_, ?_⟩⟩
  · intro m _
    apply List.pairwise_of_forall_mem_list
    intro c hc d hd
    rw [level_of_mem hc, level_of_mem hd]
  · apply h.sorted.imp
    intro m m' hle c hc d hd
    rwa [level_of_mem hc, level_of_mem hd]

namespace InOrder
variable {done rest : List InitCall} {c d : InitCall}

lemma mem (h : InOrder (done ++ c :: rest)) : c ∈ allCalls :=
  h.perm.mem_iff.mp (List.mem_append_right _ List.mem_cons_self)

/-- What a lower level calls comes before. -/
lemma mem_done (h : InOrder (done ++ c :: rest)) (hd : d ∈ allCalls) (hlt : d.level < c.level) :
    d ∈ done := by
  have hmem := h.perm.mem_iff.mpr hd
  rw [List.mem_append, List.mem_cons] at hmem
  rcases hmem with hdone | rfl | hrest
  · exact hdone
  · exact absurd hlt (lt_irrefl _)
  · have hle := (List.pairwise_cons.mp (List.pairwise_append.mp h.sorted).2.1).1 d hrest
    exact absurd hlt hle.not_gt

/-- What a higher level calls does not. -/
lemma not_mem_done (h : InOrder (done ++ c :: rest)) (hlt : c.level < d.level) : d ∉ done := by
  intro hmem
  have hle := (List.pairwise_append.mp h.sorted).2.2 d hmem c List.mem_cons_self
  exact absurd hlt hle.not_gt

/-- A call is made once. -/
lemma not_mem_self (h : InOrder (done ++ c :: rest)) : c ∉ done := by
  have hnodup := h.perm.nodup_iff.mpr nodup_allCalls
  intro hmem
  exact (List.nodup_append.mp hnodup).2.2 c hmem c List.mem_cons_self rfl

end InOrder

/-! ## `g_messageBuffers` -/

/-- The descriptions are entered one after the other, and found by their ids. -/
lemma foldl_declare (l : List BufDescription) (t : BufTable)
    (hrange : ∀ d ∈ l, systemFirstId ≤ d.id ∧ d.id < lastId) (hnodup : (l.map (·.id)).Nodup)
    (id : MsgId) :
    (l.foldl declare t).messageBuffers id =
      (l.find? fun d => d.id = id).or (t.messageBuffers id) := by
  induction l generalizing t with
  | nil => rfl
  | cons d rest ih =>
    rw [List.map_cons, List.nodup_cons] at hnodup
    rw [List.foldl_cons, ih (declare t d) (fun d' hd' => hrange d' (List.mem_cons_of_mem d hd'))
      hnodup.2, declare, dif_pos (hrange d List.mem_cons_self)]
    by_cases hid : d.id = id
    · -- no later description has this id
      have hnone : (rest.find? fun d' => d'.id = id) = none := by
        rw [List.find?_eq_none]
        intro d' hd' heq
        rw [decide_eq_true_eq] at heq
        exact hnodup.1 (List.mem_map.mpr ⟨d', hd', heq.trans hid.symm⟩)
      rw [hnone, Option.none_or, List.find?_cons_of_pos (by simpa using hid), ← hid]
      exact Function.update_self _ _ _
    · rw [List.find?_cons_of_neg (by simpa using hid)]
      exact congrArg _ (Function.update_of_ne (Ne.symm hid) _ _)

/-- `msgPump_init` leaves the pools of the firmware. -/
lemma foldl_declare_eq_firmware : msgPumpDescriptions.foldl declare nothingDeclared = firmware := by
  have heq : (msgPumpDescriptions.foldl declare nothingDeclared).messageBuffers =
      firmware.messageBuffers := by
    funext id
    rw [foldl_declare _ _ (by decide) (by decide)]
    exact Option.or_none
  generalize msgPumpDescriptions.foldl declare nothingDeclared = t at heq
  cases t
  cases heq
  rfl

/-! ## A registration -/

/-- Everything that is ever registered. -/
def known : List (MsgId × Callback) := lateRegistration :: registrations

/-- They are eight functions, `msgCallback` among them three times. -/
example : (known.map Prod.snd).dedup.length = 8 := by decide

lemma firmware_known {id : MsgId} {callback : Callback} (h : (id, callback) ∈ known) :
    ∃ d, firmware.messageBuffers id = some d := by
  have hall : ∀ r ∈ known, (firmware.messageBuffers r.1).isSome := by decide
  exact Option.isSome_iff_exists.mp (hall _ h)

/-- An entry is empty, if there are fewer callbacks for the message than entries. -/
lemma exists_empty {p : Pump} {id : MsgId} {l : List Callback} (hdiffer : p.CallbacksDiffer)
    (hl : ∀ callback, p.Registered id callback → callback ∈ l) (hlen : l.length < maxReceivers) :
    ∃ i < maxReceivers, p.callbackVector id i = none := by
  by_contra hfull
  push Not at hfull
  -- otherwise the entries are different callbacks of the list, which is too short for that
  have hsome (i : ℕ) (hi : i < maxReceivers) :
      p.callbackVector id i = some ((p.callbackVector id i).getD 0) := by
    obtain ⟨callback, hcallback⟩ := Option.ne_none_iff_exists'.mp (hfull i hi)
    rw [hcallback, Option.getD_some]
  have hinj : Set.InjOn (fun i => (p.callbackVector id i).getD 0) (Finset.range maxReceivers) := by
    intro i hi j hj heq
    simp only [Finset.coe_range, Set.mem_Iio] at hi hj
    dsimp only at heq
    exact hdiffer id i j _ hi hj (hsome i hi) (heq ▸ hsome j hj)
  have hmaps : ∀ i ∈ Finset.range maxReceivers, (p.callbackVector id i).getD 0 ∈ l.toFinset := by
    intro i hi
    rw [Finset.mem_range] at hi
    exact List.mem_toFinset.mpr (hl _ ⟨i, hi, hsome i hi⟩)
  have hcard := Finset.card_le_card_of_injOn _ hmaps hinj
  rw [Finset.card_range] at hcard
  exact absurd (hcard.trans l.toFinset_card_le) hlen.not_ge

/-- There is always an entry for what the firmware registers. -/
lemma exists_empty_known {p : Pump} {id : MsgId} {callback : Callback} (hdiffer : p.CallbacksDiffer)
    (hreg : ∀ callback, p.Registered id callback → (id, callback) ∈ known)
    (h : (id, callback) ∈ known) : ∃ i < maxReceivers, p.callbackVector id i = none := by
  have hfew : ∀ r ∈ known,
      ((known.filter fun r' => r'.1 = r.1).map (·.2)).length < maxReceivers := by decide
  refine exists_empty hdiffer (fun c hc => ?_) (hfew (id, callback) h)
  exact List.mem_map.mpr ⟨(id, c), List.mem_filter.mpr ⟨hreg c hc, by simp⟩, rfl⟩

/-- What a registration does that is not refused. -/
structure Registers (p : Pump) (id : MsgId) (callback : Callback) (p' : Pump) : Prop where
  eq : ∃ callbackVector, p' = { p with callbackVector := callbackVector }
  vectors : VectorsOk firmware p'
  registered : ∀ id' callback', p'.Registered id' callback' ↔
    p.Registered id' callback' ∨ (id' = id ∧ callback' = callback)
  grown : ∀ id' i callback', p.callbackVector id' i = some callback' →
    p'.callbackVector id' i = some callback'
  /-- the first callback of a message is in the first entry -/
  first : (∀ callback', ¬ p.Registered id callback') → p'.callbackVector id 0 = some callback

section Register
variable {p : Pump} {id : MsgId} {callback : Callback}

lemma registerOnMessage_isOk {t : BufTable} {d : BufDescription}
    (hd : t.messageBuffers id = some d) :
    ∃ r, registerOnMessage t p id (some callback) = .ok r := by
  have hrange := t.id_range id d hd
  obtain ⟨hlast, hlookup, hid⟩ := t.lookup_eq hd
  simp only [registerOnMessage, hlookup, if_pos (And.intro hlast hrange.1), if_pos hid]
  split <;> exact ⟨_, rfl⟩

/-- The callbacks of the firmware always find room. -/
lemma registerOnMessage_known (hvectors : VectorsOk firmware p)
    (hreg : ∀ id callback, p.Registered id callback → (id, callback) ∈ known)
    (h : (id, callback) ∈ known) :
    ∃ p', registerOnMessage firmware p id (some callback) = .ok (true, p') ∧
      Registers p id callback p' := by
  obtain ⟨d, hd⟩ := firmware_known h
  obtain ⟨r, hr⟩ := registerOnMessage_isOk (p := p) hd
  rw [hr]
  cases registerOnMessage_outcome hr with
  | undeclared hnone =>
    rw [hd] at hnone
    cases hnone
  | already hin =>
    refine ⟨p, rfl, ⟨p.callbackVector, rfl⟩, hvectors, ?_, fun _ _ _ hk => hk, ?_⟩
    · intro id' callback'
      rw [iff_self_or]
      rintro ⟨rfl, rfl⟩
      exact hin
    · intro hnone
      exact absurd hin (hnone callback)
  | added d' i hd' hi hfree hbefore =>
    refine ⟨_, rfl, ⟨_, rfl⟩, hvectors.added hd' hi hfree hbefore, ?_,
      fun _ _ _ hk => added_of_some hfree hk, ?_⟩
    · intro id' callback'
      constructor
      · rintro ⟨k, hk, hc⟩
        rcases some_of_added hc with hc | ⟨hid, -, hc⟩
        · exact Or.inl ⟨k, hk, hc⟩
        · exact Or.inr ⟨hid, hc⟩
      · rintro (⟨k, hk, hc⟩ | ⟨rfl, rfl⟩)
        · exact ⟨k, hk, added_of_some hfree hc⟩
        · exact registered_added hi
    · intro hnone
      -- an entry before it would hold a registered callback
      obtain rfl | hpos := Nat.eq_zero_or_pos i
      · rw [setCallback_callbackVector_self, Function.update_self]
      · obtain ⟨c, hc⟩ := Option.ne_none_iff_exists'.mp (hbefore 0 hpos).1
        exact absurd ⟨0, hpos.trans hi, hc⟩ (hnone c)
  | noRoom hfull =>
    obtain ⟨i, hi, hempty⟩ := exists_empty_known hvectors.differ (hreg id) h
    exact absurd hempty (hfull i hi).1

end Register

/-! ## The packet of the receiver -/

/-- The pump after these calls, if no client has used it. -/
def freshState (done : List InitCall) (callbackVector : MsgId → ℕ → Option Callback) : PumpState :=
  if .genericProtocolInit ∈ done then (receptionStart firmware 0 callbackVector zeroData).pumpState
  else initial callbackVector zeroData

lemma freshState_append {done : List InitCall} {c : InitCall} (hc : c ≠ .genericProtocolInit)
    (callbackVector : MsgId → ℕ → Option Callback) :
    freshState (done ++ [c]) callbackVector = freshState done callbackVector := by
  unfold freshState
  simp only [List.mem_append, List.mem_singleton, or_iff_left hc.symm]

/-- The receiver takes the first packet, whatever is registered. -/
lemma getFreeBuffer_initial (callbackVector : MsgId → ℕ → Option Callback) :
    (pumpPool firmware).getFreeBuffer (initial callbackVector zeroData).pump =
      (some ⟨msgIdGenericProtocolPacketReady, 0⟩, (initial callbackVector zeroData).pump.setHeader
        ⟨msgIdGenericProtocolPacketReady, 0⟩ .reserved) := by
  obtain ⟨hlast, hlookup, -⟩ := firmware.lookup_eq lookup_packetReady
  have hid : systemFirstId < msgIdGenericProtocolPacketReady := by decide
  have hget : MsgPump.getFreeBuffer firmware (initial callbackVector zeroData).pump
      msgIdGenericProtocolPacketReady = .ok (getFree (initial callbackVector zeroData).pump
        msgIdGenericProtocolPacketReady (List.range 20)) := by
    unfold MsgPump.getFreeBuffer
    rw [if_pos ⟨hlast, hid⟩, hlookup]
    rfl
  unfold pumpPool
  simp only [hget]
  exact getFree_of_free _ rfl

/-- A registration leaves the rest of the pump as it is. -/
lemma freshState_register (done : List InitCall)
    (callbackVector callbackVector' : MsgId → ℕ → Option Callback) :
    { freshState done callbackVector with
      pump := { (freshState done callbackVector).pump with callbackVector := callbackVector' } } =
      freshState done callbackVector' := by
  unfold freshState
  split
  · simp only [receptionStart, init, resetBuffer, zeroed, getFreeBuffer_initial]
    rfl
  · rfl

/-! ## The invariant -/

/-- The board after these calls, the one of `msgPump_init` among them. -/
structure Running (done : List InitCall) (s : Boot) : Prop where
  declared : s.messageBuffers = some firmware
  wellFormed : WellFormed firmware s.state
  vectors : VectorsOk firmware s.state.pump
  registered : ∀ id callback, s.state.pump.Registered id callback ↔
    .registerOnMessage id callback ∈ done ∨
      s.lateInitDone = true ∧ (id, callback) = lateRegistration
  powerCheckFirst : .registerOnMessage msgIdSystemPowerState Measuring.onNewPwrMeasurement ∈ done →
    s.state.pump.callbackVector msgIdSystemPowerState 0 = some Measuring.onNewPwrMeasurement
  accepted : s.refused = false
  notYetLate : .registerOnLateInitTimer ∉ done → s.lateInitTimer = false ∧ s.lateInitDone = false
  late : .registerOnLateInitTimer ∈ done → s.lateInitTimer = !s.lateInitDone
  fresh : s.used = false → s.state = freshState done s.state.pump.callbackVector

/-- What the board is like after these calls. -/
inductive Phase (done : List InitCall) (s : Boot) : Prop
  | reset (hmemory : .memoryInit ∉ done) (hpc : s.state.pc = .waiting) (htimer : s.hwTimer = false)
      (hlate : s.lateInitDone = false) (hrefused : s.refused = false)
  | zeroed (hmemory : .memoryInit ∈ done) (hpump : .msgPumpInit ∉ done)
      (hbuffers : s.messageBuffers = some nothingDeclared)
      (hstate : s.state = { pump := zeroPump, pc := .waiting })
      (htimer : s.lateInitTimer = false) (hlate : s.lateInitDone = false)
      (hrefused : s.refused = false)
  | running (hpump : .msgPumpInit ∈ done) (h : Running done s)

/-- The invariant: what was called and what is to be called are all calls in order. -/
def BootInv (s : Boot) : Prop := ∃ done, InOrder (done ++ s.toCall) ∧ Phase done s

section Steps
variable {done : List InitCall} {s s' : Boot} {c : InitCall} {id : MsgId} {callback : Callback}

lemma Running.mem_known (h : Running done s) (hdone : ∀ c ∈ done, c ∈ allCalls) (id : MsgId)
    (callback : Callback) (hreg : s.state.pump.Registered id callback) :
    (id, callback) ∈ known := by
  rcases (h.registered id callback).mp hreg with hmem | ⟨-, heq⟩
  · exact List.mem_cons_of_mem _ (registerOnMessage_mem_allCalls.mp (hdone _ hmem))
  · exact List.mem_cons.mpr (Or.inl heq)

/-- A registration by a board with the pools of the firmware. -/
lemma register_known (hdeclared : s.messageBuffers = some firmware)
    (hvectors : VectorsOk firmware s.state.pump)
    (hreg : ∀ id callback, s.state.pump.Registered id callback → (id, callback) ∈ known)
    (h : (id, callback) ∈ known) :
    ∃ p, register s id callback = some { s with state := { s.state with pump := p } } ∧
      Registers s.state.pump id callback p := by
  obtain ⟨p, hp, hregisters⟩ := registerOnMessage_known hvectors hreg h
  refine ⟨p, ?_, hregisters⟩
  simp only [register, hdeclared, hp]
  rw [Bool.not_true, Bool.or_false]

/-- What a registration keeps of the pump. -/
lemma Registers.wellFormed {p : Pump} (h : Registers s.state.pump id callback p)
    (hwf : WellFormed firmware s.state) : WellFormed firmware { s.state with pump := p } := by
  obtain ⟨v, rfl⟩ := h.eq
  exact hwf.of_sameRing ⟨rfl, rfl, rfl, rfl⟩

lemma Registers.fresh {p : Pump} (h : Registers s.state.pump id callback p)
    (hfresh : s.state = freshState done s.state.pump.callbackVector) :
    { s.state with pump := p } = freshState done p.callbackVector := by
  obtain ⟨v, rfl⟩ := h.eq
  rw [hfresh]
  exact freshState_register done _ v

/-- A registration by an initialisation function. -/
lemma Running.registerOnMessage (h : Running done s)
    (hall : InOrder (done ++ .registerOnMessage id callback :: s.toCall)) :
    ∃ s', register s id callback = some s' ∧ s'.toCall = s.toCall ∧
      Running (done ++ [.registerOnMessage id callback]) s' := by
  have hdone (c : InitCall) (hc : c ∈ done) : c ∈ allCalls :=
    hall.perm.mem_iff.mp (List.mem_append_left _ hc)
  have hknown : (id, callback) ∈ known :=
    List.mem_cons_of_mem _ (registerOnMessage_mem_allCalls.mp hall.mem)
  obtain ⟨p, hp, hregisters⟩ := register_known h.declared h.vectors (h.mem_known hdone) hknown
  refine ⟨_, hp, rfl, h.declared, hregisters.wellFormed h.wellFormed, hregisters.vectors, ?_, ?_,
    h.accepted, ?_, ?_, ?_⟩
  · intro id' callback'
    rw [hregisters.registered, h.registered, List.mem_append, List.mem_singleton,
      InitCall.registerOnMessage.injEq]
    tauto
  · intro hmem
    rw [List.mem_append, List.mem_singleton, InitCall.registerOnMessage.injEq] at hmem
    rcases hmem with hmem | ⟨hid, hcallback⟩
    · exact hregisters.grown _ _ _ (h.powerCheckFirst hmem)
    · -- the other callback of the message has a higher level
      subst hid hcallback
      apply hregisters.first
      intro callback' hreg
      rcases (h.registered _ callback').mp hreg with hmem | ⟨-, heq⟩
      · have hcallback' : callback' = Measuring.onNewPwrMeasurement ∨
            callback' = onSystemMeasurementAddress := by
          have hregistration := registerOnMessage_mem_allCalls.mp (hdone _ hmem)
          have hboth : ∀ r ∈ registrations, r.1 = msgIdSystemPowerState →
              r.2 = Measuring.onNewPwrMeasurement ∨ r.2 = onSystemMeasurementAddress := by decide
          exact hboth _ hregistration rfl
        rcases hcallback' with rfl | rfl
        · exact hall.not_mem_self hmem
        · exact hall.not_mem_done (by decide) hmem
      · have hne : msgIdSystemPowerState ≠ lateRegistration.1 := by decide
        exact absurd (congrArg Prod.fst heq) hne
  · intro hnot
    exact h.notYetLate fun hmem => hnot (List.mem_append_left _ hmem)
  · intro hmem
    rw [List.mem_append, List.mem_singleton] at hmem
    exact h.late (hmem.resolve_right (by simp))
  · intro hused
    rw [freshState_append (by simp)]
    exact hregisters.fresh (h.fresh hused)

/-- A call that registers nothing, apart from the packet of the receiver. -/
lemma Running.other (h : Running done s) (hc : ∀ id callback, c ≠ .registerOnMessage id callback)
    (hlate : c ≠ .registerOnLateInitTimer) (hinit : c ≠ .genericProtocolInit) :
    Running (done ++ [c]) s := by
  refine ⟨h.declared, h.wellFormed, h.vectors, ?_, ?_, h.accepted, ?_, ?_, ?_⟩
  · intro id callback
    rw [h.registered, List.mem_append, List.mem_singleton, or_iff_left (Ne.symm (hc id callback))]
  · intro hmem
    rw [List.mem_append, List.mem_singleton, or_iff_left (Ne.symm (hc _ _))] at hmem
    exact h.powerCheckFirst hmem
  · intro hnot
    exact h.notYetLate fun hmem => hnot (List.mem_append_left _ hmem)
  · intro hmem
    rw [List.mem_append, List.mem_singleton, or_iff_left (Ne.symm hlate)] at hmem
    exact h.late hmem
  · intro hused
    rw [freshState_append hinit]
    exact h.fresh hused

/-- `genericProtocol_init` registers nothing, and takes nothing but a packet. -/
lemma Running.genericProtocolInit (h : Running done s) (hnot : .genericProtocolInit ∉ done) :
    ∃ s', genericProtocolInit s = some s' ∧ s'.toCall = s.toCall ∧
      Running (done ++ [.genericProtocolInit]) s' := by
  have hreset := resetBuffer_outcome (pumpPool firmware) 0 (zeroed s.state.pump)
  set p := (init (pumpPool firmware) 0 s.state.pump).world with hp
  have hvector : p.callbackVector = s.state.pump.callbackVector := hreset.callbackVector lookup_packetReady
  have hring : SameRing s.state.pump p := hreset.sameRing lookup_packetReady
  refine ⟨{ s with state := { s.state with pump := p } }, ?_, rfl, h.declared,
    h.wellFormed.of_sameRing hring, h.vectors.congr hvector, ?_, ?_, h.accepted, ?_, ?_, ?_⟩
  · rw [SystemInitializer.genericProtocolInit, h.declared]
    rfl
  · intro id callback
    rw [registered_congr hvector]
    simpa using h.registered id callback
  · intro hmem
    rw [hvector]
    exact h.powerCheckFirst (by simpa using hmem)
  · intro hlate
    exact h.notYetLate fun hmem => hlate (List.mem_append_left _ hmem)
  · intro hmem
    exact h.late (by simpa using hmem)
  · intro hused
    obtain ⟨v, hv⟩ : ∃ v, s.state = initial v zeroData := by
      have hstate := h.fresh hused
      rw [freshState, if_neg hnot] at hstate
      exact ⟨_, hstate⟩
    have hvector' : p.callbackVector = v := by rw [hvector, hv]; rfl
    rw [hvector', freshState, if_pos (by simp)]
    show { s.state with pump := p } = _
    rw [hp, hv]
    rfl

/-- The pump as `msgPump_init` leaves it. -/
lemma running_msgPumpInit (hbuffers : s.messageBuffers = some nothingDeclared)
    (hstate : s.state = { pump := zeroPump, pc := .waiting }) (htimer : s.lateInitTimer = false)
    (hlate : s.lateInitDone = false) (hrefused : s.refused = false)
    (hdone : ∀ d ∈ done, d.level ≤ 2) : Running done (msgPumpInit s) := by
  have hinitial : (msgPumpInit s).state = initial (fun _ _ => none) zeroData := by
    simp only [msgPumpInit, hstate]
    rfl
  have hnone : ∀ id i, (msgPumpInit s).state.pump.callbackVector id i = none := by
    intro id i
    rw [hinitial]
    rfl
  have hnotDone (d : InitCall) (hd : 2 < d.level) : d ∉ done := fun hmem =>
    absurd (hdone d hmem) hd.not_ge
  have hlevel (id : MsgId) (callback : Callback) :
      2 < (InitCall.registerOnMessage id callback).level := by
    simp only [InitCall.level]
    split <;> decide
  refine ⟨?_, ?_, ⟨?_, ?_, fun id _ i => hnone id i⟩, ?_, ?_, hrefused, fun _ => ⟨htimer, hlate⟩, ?_,
    ?_⟩
  · simp only [msgPumpInit, hbuffers, Option.map_some, foldl_declare_eq_firmware]
  · rw [hinitial]
    exact wellFormed_initial _ _
  · intro id i j callback _ _ hi
    rw [hnone] at hi
    cases hi
  · intro id i j _ _ hj
    exact absurd (hnone id j) hj
  · intro id callback
    refine iff_of_false (not_registered_of_none (hnone id)) ?_
    rintro (hmem | ⟨hdone', -⟩)
    · exact hnotDone _ (hlevel id callback) hmem
    · have hfalse : s.lateInitDone = true := hdone'
      rw [hlate] at hfalse
      cases hfalse
  · intro hmem
    exact absurd hmem (hnotDone _ (hlevel _ _))
  · intro hmem
    exact absurd hmem (hnotDone _ (by decide))
  · intro _
    rw [hinitial, freshState, if_neg (hnotDone _ (by decide))]
    rfl

/-- No call has undefined behaviour, and each finds what those of lower levels leave. -/
theorem Phase.call (h : Phase done s) (hall : InOrder (done ++ c :: s.toCall)) :
    ∃ s', runInitCall s c = some s' ∧ s'.toCall = s.toCall ∧ Phase (done ++ [c]) s' := by
  have hself := hall.not_mem_self
  -- after the first two levels the pump runs
  have hrunning (hlevel : 2 < c.level) : .msgPumpInit ∈ done ∧ Running done s := by
    have hpump : .msgPumpInit ∈ done := hall.mem_done (by decide) hlevel
    have hmemory : .memoryInit ∈ done := hall.mem_done (by decide) (lt_trans (by decide) hlevel)
    cases h with
    | reset hnot => exact absurd hmemory hnot
    | zeroed _ hnot => exact absurd hpump hnot
    | running _ h => exact ⟨hpump, h⟩
  cases c with
  | memoryInit =>
    have hpump : .msgPumpInit ∉ done := hall.not_mem_done (by decide)
    refine ⟨_, rfl, rfl, ?_⟩
    cases h with
    | reset hmemory hpc htimer hlate hrefused =>
      refine .zeroed (by simp) (by simp [hpump]) rfl ?_ rfl hlate hrefused
      simp only [memoryInit, hpc]
    | zeroed hmemory => exact absurd hmemory hself
    | running hpump' => exact absurd hpump' hpump
  | msgPumpInit =>
    have hmemory : .memoryInit ∈ done := hall.mem_done (by decide) (by decide)
    refine ⟨_, rfl, rfl, .running (by simp) ?_⟩
    cases h with
    | reset hnot => exact absurd hmemory hnot
    | zeroed _ _ hbuffers hstate htimer hlate hrefused =>
      apply running_msgPumpInit hbuffers hstate htimer hlate hrefused
      intro d hd
      rw [List.mem_append, List.mem_singleton] at hd
      rcases hd with hd | rfl
      · by_contra hlt
        exact hall.not_mem_done (lt_of_not_ge hlt) hd
      · decide
    | running hpump => exact absurd hpump hself
  | hwTimerInit =>
    have hmemory : .memoryInit ∈ done := hall.mem_done (by decide) (by decide)
    refine ⟨_, rfl, rfl, ?_⟩
    cases h with
    | reset hnot => exact absurd hmemory hnot
    | zeroed _ hpump hbuffers hstate htimer hlate hrefused =>
      exact .zeroed (by simp [hmemory]) (by simp [hpump]) hbuffers hstate htimer hlate hrefused
    | running hpump h =>
      have h' := h.other (c := .hwTimerInit) (by simp) (by simp) (by simp)
      exact .running (by simp [hpump]) ⟨h'.declared, h'.wellFormed, h'.vectors, h'.registered,
        h'.powerCheckFirst, h'.accepted, h'.notYetLate, h'.late, h'.fresh⟩
  | swTimerInit =>
    obtain ⟨hpump, h⟩ := hrunning (by decide)
    have hnot : .registerOnLateInitTimer ∉ done := hall.not_mem_done (by decide)
    have h' := h.other (c := .swTimerInit) (by simp) (by simp) (by simp)
    refine ⟨_, rfl, rfl, .running (by simp [hpump]) ⟨h'.declared, h'.wellFormed, h'.vectors,
      h'.registered, h'.powerCheckFirst, h'.accepted, ?_, ?_, h'.fresh⟩⟩
    · intro hlate
      exact ⟨rfl, (h'.notYetLate hlate).2⟩
    · intro hmem
      rw [List.mem_append, List.mem_singleton] at hmem
      exact absurd (hmem.resolve_right (by simp)) hnot
  | registerOnMessage id callback =>
    have hlevel : 2 < (InitCall.registerOnMessage id callback).level := by
      simp only [InitCall.level]
      split <;> decide
    obtain ⟨hpump, h⟩ := hrunning hlevel
    obtain ⟨s', hs', hcall, h'⟩ := h.registerOnMessage hall
    exact ⟨s', hs', hcall, .running (by simp [hpump]) h'⟩
  | genericProtocolInit =>
    obtain ⟨hpump, h⟩ := hrunning (by decide)
    obtain ⟨s', hs', hcall, h'⟩ := h.genericProtocolInit hself
    exact ⟨s', hs', hcall, .running (by simp [hpump]) h'⟩
  | registerOnLateInitTimer =>
    obtain ⟨hpump, h⟩ := hrunning (by decide)
    refine ⟨_, rfl, rfl, .running (by simp [hpump]) ⟨h.declared, h.wellFormed, h.vectors, ?_, ?_,
      h.accepted, ?_, ?_, ?_⟩⟩
    · intro id callback
      simpa using h.registered id callback
    · intro hmem
      exact h.powerCheckFirst (by simpa using hmem)
    · intro hnot
      exact absurd (by simp) hnot
    · intro _
      simp only [(h.notYetLate hself).2, Bool.not_false]
    · intro hused
      rw [freshState_append (by simp)]
      exact h.fresh hused

/-! ## The steps -/

lemma Phase.congr (h : Phase done s) (hbuffers : s'.messageBuffers = s.messageBuffers)
    (hstate : s'.state = s.state) (hhwTimer : s'.hwTimer = s.hwTimer)
    (htimer : s'.lateInitTimer = s.lateInitTimer) (hlate : s'.lateInitDone = s.lateInitDone)
    (hrefused : s'.refused = s.refused) (hused : s'.used = s.used) : Phase done s' := by
  cases s
  cases s'
  dsimp only at *
  subst_vars
  cases h with
  | reset hmemory hpc htimer hlate hrefused => exact .reset hmemory hpc htimer hlate hrefused
  | zeroed hmemory hpump hbuffers hstate htimer hlate hrefused =>
    exact .zeroed hmemory hpump hbuffers hstate htimer hlate hrefused
  | running hpump h =>
    exact .running hpump ⟨h.declared, h.wellFormed, h.vectors, h.registered, h.powerCheckFirst,
      h.accepted, h.notYetLate, h.late, h.fresh⟩

/-- `systemInitialize` goes on until it has returned. -/
theorem BootInv.next (h : BootInv s) (hnot : ¬ s.Initialized) :
    ∃ s', systemInitialize s = some s' ∧ BootInv s' := by
  obtain ⟨done, hall, hphase⟩ := h
  cases hcalls : s.calls with
  | cons c calls =>
    have hall' : InOrder (done ++ c :: Boot.toCall { s with calls := calls }) := by
      simpa only [Boot.toCall, hcalls, List.cons_append] using hall
    have hphase' : Phase done { s with calls := calls } :=
      hphase.congr rfl rfl rfl rfl rfl rfl rfl
    obtain ⟨s', hs', htoCall, hphase''⟩ := hphase'.call hall'
    refine ⟨s', by simpa only [systemInitialize, hcalls] using hs', done ++ [c], ?_, hphase''⟩
    rw [htoCall, List.append_assoc]
    exact hall'
  | nil =>
    cases hfunctions : s.initFunctions with
    | nil => exact absurd ⟨hfunctions, hcalls⟩ hnot
    | cons funcPtr rest =>
      cases funcPtr with
      | none =>
        refine ⟨{ s with initFunctions := rest }, by simp only [systemInitialize, hcalls, hfunctions],
          done, ?_, hphase.congr rfl rfl rfl rfl rfl rfl rfl⟩
        simpa only [Boot.toCall, hcalls, hfunctions, List.flatMap_cons, callsOf, Option.map_none,
          Option.getD_none, List.nil_append] using hall
      | some m =>
        refine ⟨{ s with initFunctions := rest, calls := m.initFunction },
          by simp only [systemInitialize, hcalls, hfunctions], done, ?_,
          hphase.congr rfl rfl rfl rfl rfl rfl rfl⟩
        simpa only [Boot.toCall, hcalls, hfunctions, List.flatMap_cons, callsOf, Option.map_some,
          Option.getD_some, List.nil_append] using hall

lemma not_initialized_of_systemInitialize (h : systemInitialize s = some s') : ¬ s.Initialized := by
  rintro ⟨hfunctions, hcalls⟩
  simp [systemInitialize, hfunctions, hcalls] at h

/-- `onLateInitTimer` comes after its registration, and once. -/
lemma BootInv.timeout (h : BootInv s) (hs' : onLateInitTimer s = some s') : BootInv s' := by
  obtain ⟨done, hall, hphase⟩ := h
  unfold onLateInitTimer at hs'
  split at hs'
  · rename_i htimers
    obtain ⟨hhwTimer, htimer⟩ := htimers
    cases hphase with
    | reset _ _ hnot =>
      rw [hnot] at hhwTimer
      cases hhwTimer
    | zeroed _ _ _ _ hnot =>
      rw [hnot] at htimer
      cases htimer
    | running hpump h =>
      have hdone (c : InitCall) (hc : c ∈ done) : c ∈ allCalls :=
        hall.perm.mem_iff.mp (List.mem_append_left _ hc)
      have hmem : .registerOnLateInitTimer ∈ done := by
        by_contra hnot
        rw [(h.notYetLate hnot).1] at htimer
        cases htimer
      have hlate : s.lateInitDone = false := by
        rw [h.late hmem, Bool.not_eq_true'] at htimer
        exact htimer
      obtain ⟨p, hp, hregisters⟩ := register_known
        (s := { s with lateInitTimer := false, lateInitDone := true }) h.declared h.vectors
        (h.mem_known hdone) (List.mem_cons_self : lateRegistration ∈ known)
      obtain rfl := Option.some.inj (hp.symm.trans hs')
      refine ⟨done, hall, .running hpump ⟨h.declared, hregisters.wellFormed h.wellFormed,
        hregisters.vectors, ?_, ?_, h.accepted, fun hnot => absurd hmem hnot, fun _ => rfl,
        fun hused => hregisters.fresh (h.fresh hused)⟩⟩
      · intro id callback
        rw [hregisters.registered]
        simp only [h.registered, hlate, Bool.false_eq_true, false_and, or_false, true_and,
          lateRegistration, Prod.mk.injEq]
      · intro hmem'
        exact hregisters.grown _ _ _ (h.powerCheckFirst hmem')
  · cases hs'

/-- Only the loop of the pump moves in it. -/
lemma step_pc {t : BufTable} {state state' : PumpState} {a : Action} (ha : OfClient a)
    (h : step t state a = some state') : state'.pc = state.pc := by
  cases a with
  | dispatch => exact ha.elim
  | post | getFreeBuffer =>
    simp only [step] at h
    split at h
    · exact (Option.some.inj h) ▸ rfl
    · cases h
  | lock | unlock => exact (Option.some.inj h) ▸ rfl

/-- Without pools and headers no client gets anything. -/
lemma step_zeroPump {state : PumpState} {a : Action} (ha : OfClient a)
    (h : step nothingDeclared { pump := zeroPump, pc := .waiting } a = some state) :
    state = { pump := zeroPump, pc := .waiting } := by
  cases a with
  | dispatch => exact ha.elim
  | post id ptr =>
    simp only [step] at h
    split at h
    · rename_i r hr
      rcases postMessage_cases hr with ⟨d, hd, -⟩ | rfl
      · cases hd
      · exact (Option.some.inj h).symm
    · cases h
  | getFreeBuffer id =>
    simp only [step, getFreeBuffer, BufTable.lookup, nothingDeclared] at h
    split at h
    · rename_i r hr
      have hpump : r.2 = zeroPump := by
        split_ifs at hr <;> exact (congrArg Prod.snd (Except.ok.inj hr)).symm
      rw [← Option.some.inj h, hpump]
    · cases h
  | lock e =>
    refine (Option.some.inj h).symm.trans ?_
    rfl
  | unlock e =>
    refine (Option.some.inj h).symm.trans ?_
    rfl

/-- A step of the pump or of a client of it. -/
lemma BootInv.pump (h : BootInv s) {a : Action} (hs' : bootStep s (.pump a) = some s') :
    BootInv s' := by
  obtain ⟨done, hall, hphase⟩ := h
  simp only [bootStep] at hs'
  split at hs'
  · rename_i ha
    simp only [Option.bind_eq_some_iff, Option.map_eq_some_iff] at hs'
    obtain ⟨t, ht, state, hstate, rfl⟩ := hs'
    -- at the end all calls are done
    have hend (hinitialized : s.Initialized) (c : InitCall) (hc : c ∈ allCalls) : c ∈ done := by
      have hmem := hall.perm.mem_iff.mpr hc
      simpa only [Boot.toCall, hinitialized.1, hinitialized.2, List.flatMap_nil, List.append_nil]
        using hmem
    refine ⟨done, hall, ?_⟩
    cases hphase with
    | reset hmemory hpc htimer hlate hrefused =>
      have hclient := ha.resolve_left fun hinitialized =>
        hmemory (hend hinitialized _ (by decide))
      exact .reset hmemory ((step_pc hclient hstate).trans hpc) htimer hlate hrefused
    | zeroed hmemory hpump hbuffers hzero htimer hlate hrefused =>
      have hclient := ha.resolve_left fun hinitialized => hpump (hend hinitialized _ (by decide))
      rw [hbuffers, Option.some.injEq] at ht
      rw [hzero, ← ht] at hstate
      exact .zeroed hmemory hpump hbuffers (step_zeroPump hclient hstate) htimer hlate hrefused
    | running hpump h =>
      rw [h.declared, Option.some.injEq] at ht
      subst ht
      have hvector := step_callbackVector h.wellFormed hstate
      refine .running hpump ⟨h.declared, h.wellFormed.step hstate, h.vectors.congr hvector, ?_, ?_,
        h.accepted, h.notYetLate, h.late, ?_⟩
      · intro id callback
        rw [registered_congr hvector]
        exact h.registered id callback
      · intro hmem
        rw [hvector]
        exact h.powerCheckFirst hmem
      · intro hused
        cases hused
  · cases hs'

theorem BootInv.step {a : BootAction} (h : BootInv s) (hs' : bootStep s a = some s') :
    BootInv s' := by
  cases a with
  | next =>
    obtain ⟨s'', hs'', h'⟩ := h.next (not_initialized_of_systemInitialize hs')
    obtain rfl := Option.some.inj (hs''.symm.trans hs')
    exact h'
  | timeout => exact h.timeout hs'
  | pump a => exact h.pump hs'

end Steps

/-! ## Runs -/

lemma AtReset.bootInv {s : Boot} (h : AtReset s) : BootInv s := by
  refine ⟨[], ?_, .reset (by simp) h.pc h.hwTimer h.lateInitDone h.refused⟩
  rw [List.nil_append, Boot.toCall, h.calls, List.nil_append]
  exact h.linked.inOrder

/-- The dispatcher stands in one entry, as its registration is not repeated. -/
lemma dispatcherRegistered {p : Pump} (hdiffer : p.CallbacksDiffer)
    (h : p.Registered msgIdGenericProtocolPacketReady onReceivedPacketMsgPumpCallback) :
    ∃ slot, DispatcherRegistered p.callbackVector slot := by
  obtain ⟨slot, hslot, hcallback⟩ := h
  refine ⟨slot, hslot, fun i hi => ⟨fun h' => ?_, fun heq => heq ▸ hcallback⟩⟩
  exact hdiffer _ i slot _ hi hslot h' hcallback

lemma BootInv.started {s : Boot} (h : BootInv s) (hinitialized : s.Initialized) : Started s := by
  obtain ⟨done, hall, hphase⟩ := h
  have hdone (c : InitCall) : c ∈ done ↔ c ∈ allCalls := by
    rw [← hall.perm.mem_iff]
    simp only [Boot.toCall, hinitialized.1, hinitialized.2, List.flatMap_nil, List.append_nil]
  cases hphase with
  | reset hnot => exact absurd ((hdone _).mpr (by decide)) hnot
  | zeroed _ hnot => exact absurd ((hdone _).mpr (by decide)) hnot
  | running _ h =>
    have hregistered (id : MsgId) (callback : Callback) : s.state.pump.Registered id callback ↔
        (id, callback) ∈ registrations ∨
          s.lateInitDone = true ∧ (id, callback) = lateRegistration := by
      rw [h.registered, hdone, registerOnMessage_mem_allCalls]
    refine ⟨h.declared, h.wellFormed, hregistered, h.vectors.differ, h.accepted,
      h.powerCheckFirst ((hdone _).mpr (by decide)), ?_, h.late ((hdone _).mpr (by decide)), ?_⟩
    · exact dispatcherRegistered h.vectors.differ ((hregistered _ _).mpr (Or.inl (by decide)))
    · intro hused
      have hstate := h.fresh hused
      rwa [freshState, if_pos ((hdone _).mpr (by decide))] at hstate

/-- Whatever the linker chose and the RAM held, the start never gets stuck in a step without defined
behaviour; and from its end on the board has its pools, a well-formed message pump, and exactly the
callbacks of the firmware. -/
theorem started_of_reset {start s : Boot} {as : List BootAction} (hreset : AtReset start)
    (h : exec bootStep start as = some s) :
    (¬ s.Initialized → (bootStep s .next).isSome) ∧ (s.Initialized → Started s) := by
  have hinv : BootInv s :=
    exec_induction bootStep (fun _ _ _ hi hstep => hi.step hstep) hreset.bootInv h
  refine ⟨?_, hinv.started⟩
  intro hnot
  obtain ⟨s', hs', -⟩ := hinv.next hnot
  exact Option.isSome_iff_exists.mpr ⟨s', hs'⟩

/-- A reset in the middle of something, with the modules of a level the other way round and a null
pointer among them. -/
def staleRam : Boot :=
  { initFunctions :=
      [ some .clockInit, some .memory, some .msgPump, some .timer, some .system, none,
        some .gpioInterrupts, some .swTimer, some .led, some .pwrCheck1, some .genericProtocol,
        some .genericFlawLessProtocolPacketDispatcher, some .buck, some .dataDistribution,
        some .comm2pwrBrd, some .measuring, some .motorPWR, some .configuration, some .ledLate ]
    calls := []
    messageBuffers := none
    state :=
      { pump := { zeroPump with msgQueueSize := 170, callbackVector := fun _ _ => some 170 }
        pc := .waiting }
    hwTimer := false
    lateInitTimer := true
    lateInitDone := false
    refused := false
    used := false }

/-- The timer interrupts before the last registrations. -/
def lateInterrupt : List BootAction :=
  List.replicate 21 .next ++ [.timeout] ++ List.replicate 13 .next

theorem started_of_reset_staleRam :
    ∃ s, exec bootStep staleRam lateInterrupt = some s ∧ s.lateInitDone = true ∧ Started s := by
  have hrun : (exec bootStep staleRam lateInterrupt).map
      (fun s => (decide s.Initialized, s.lateInitDone)) = some (true, true) := by decide +kernel
  obtain ⟨s, hs, hview⟩ := Option.map_eq_some_iff.mp hrun
  rw [Prod.mk.injEq, decide_eq_true_eq] at hview
  have hreset : AtReset staleRam := ⟨by decide +kernel, rfl, rfl, rfl, rfl, rfl, rfl⟩
  exact ⟨s, hs, hview.2, (started_of_reset hreset hs).2 hview.1⟩

end Powerboard.SystemInitializer
