import Powerboard.Application.DeliveriesTheorems
import Powerboard.PowerCheck.DistributionTheorems
import Powerboard.Protocol.MessageMapTheorems

/-!
# From the measurement to the other board

What each callback has done is a function of the calls that have returned, and these are given by the
delivery of the message pump. So what is sent and what is let pass can be read off the posts.

Here the callbacks do not change; `buck.c` has registered its own from the beginning, or never does.
-/

namespace Powerboard.Application

open Machine MsgPump GenericProtocol PowerCheck SystemInitializer MsgProxy

/-! ## The callbacks of the firmware -/

section Callbacks
variable {v : MsgId → ℕ → Option Callback} {lateInitTimer : Bool} {id : MsgId} {callback : Callback}
  {i : ℕ}

/-- They are what the start of the board leaves. -/
theorem firmwareCallbacks_of_started {s : Boot} (h : Started s) :
    FirmwareCallbacks s.state.pump.callbackVector s.lateInitTimer := by
  refine ⟨fun r hr => (h.registered r.1 r.2).mpr (Or.inl hr), ?_, h.differ, h.powerCheckFirst, ?_⟩
  · intro id i callback hi hcallback
    rcases (h.registered id callback).mp ⟨i, hi, hcallback⟩ with hmem | ⟨-, heq⟩
    · exact List.mem_cons_of_mem _ hmem
    · exact List.mem_cons.mpr (Or.inl heq)
  · have hnot : (msgIdRelativeBatteryVoltage, onRelativeBatteryVoltageAddress) ∉ registrations := by
      decide
    refine (h.registered _ _).trans ?_
    rw [h.late, Bool.not_eq_false', or_iff_right hnot]
    exact and_iff_left rfl

lemma FirmwareCallbacks.oneEntry (h : FirmwareCallbacks v lateInitTimer)
    (hr : (id, callback) ∈ registrations) : ∃ k, OneEntry v id callback k := by
  obtain ⟨k, hk, hentry⟩ := h.registered _ hr
  exact ⟨k, hk, hentry, fun i hi hi' => h.differ id i k callback hi hk hi' hentry⟩

lemma FirmwareCallbacks.oneEntry_powerCheck (h : FirmwareCallbacks v lateInitTimer) :
    OneEntry v msgIdSystemPowerState Measuring.onNewPwrMeasurement 0 :=
  ⟨by decide, h.powerCheckFirst, fun i hi hi' =>
    h.differ _ i 0 _ hi (by decide) hi' h.powerCheckFirst⟩

lemma Distributor.mem_registrations (d : Distributor) : (d.source, d.address) ∈ registrations := by
  cases d <;> decide

lemma Distributor.out_mem_registrations (d : Distributor) :
    (d.out, MsgProxy.msgCallback) ∈ registrations := by
  cases d <;> decide

lemma FirmwareCallbacks.id_of_distributor (h : FirmwareCallbacks v lateInitTimer)
    (hi : i < maxReceivers) {d : Distributor} (hentry : v id i = some d.address) : id = d.source := by
  have hall : ∀ r ∈ SystemInitializer.known, r.2 = d.address → r.1 = d.source := by
    cases d <;> decide
  exact hall _ (h.known id i _ hi hentry) rfl

lemma FirmwareCallbacks.id_of_powerCheck (h : FirmwareCallbacks v lateInitTimer)
    (hi : i < maxReceivers) (hentry : v id i = some Measuring.onNewPwrMeasurement) :
    id = msgIdSystemPowerState := by
  have hall : ∀ r ∈ SystemInitializer.known, r.2 = Measuring.onNewPwrMeasurement →
      r.1 = msgIdSystemPowerState := by decide
  exact hall _ (h.known id i _ hi hentry) rfl

lemma FirmwareCallbacks.id_of_buck (h : FirmwareCallbacks v lateInitTimer)
    (hi : i < maxReceivers) (hentry : v id i = some onRelativeBatteryVoltageAddress) :
    id = msgIdRelativeBatteryVoltage := by
  have hall : ∀ r ∈ SystemInitializer.known, r.2 = onRelativeBatteryVoltageAddress →
      r.1 = msgIdRelativeBatteryVoltage := by decide
  exact hall _ (h.known id i _ hi hentry) rfl

/-- The callback of `buck.c` is in one entry, once its timer has come. -/
lemma FirmwareCallbacks.oneEntry_buck (h : FirmwareCallbacks v false) :
    ∃ k, OneEntry v msgIdRelativeBatteryVoltage onRelativeBatteryVoltageAddress k := by
  obtain ⟨k, hk, hentry⟩ := h.late.mpr rfl
  exact ⟨k, hk, hentry, fun i hi hi' => h.differ _ i k _ hi hk hi' hentry⟩

end Callbacks

/-! ## The callbacks that have returned -/

/-- What the callbacks of these calls have left. -/
structure History (calls : List Call) (s : App) : Prop where
  counter : ∀ d, (s.counter d).toNat = (givenTo calls d.source d.address).length % 50
  offered : ∀ d, (s.offers d).map (·.1) = Sampling.everyNth 50 (givenTo calls d.source d.address)
  sendState : s.sendState = fun _ => .zeroed
  sent : s.frames = calls.flatMap framesOf
  above : ∀ p ∈ s.passed, p.thresholds.lowThresh < p.batteryVoltcV
  passed : s.passed.map (·.content) =
    givenTo calls msgIdSystemPowerState Measuring.onNewPwrMeasurement

lemma framesOf_other {call : Call} (h : call.callback ≠ MsgProxy.msgCallback) : framesOf call = [] :=
  if_neg h

/-- The proxy sends one frame on its interface, and is ready for the next. -/
lemma msgCallback_zeroed (id : MsgId) (content : List UInt8) :
    powerboardMap.msgCallback firmware (fun _ => .zeroed) id (fun k => content.getD k 0) =
      (framesOf { callback := MsgProxy.msgCallback, id := id, content := some content },
        fun _ => .zeroed) := by
  unfold MessageMap.msgCallback framesOf MsgProxy.outgoingMessage
  simp only [if_pos, Option.getD_some]
  have hext : powerboardMap.externalID id =
      (ext2intMap.find? fun pair => pair.internalID = id).map (·.externalID) := rfl
  rw [hext]
  cases hfind : ext2intMap.find? fun pair => pair.internalID = id with
  | none => rfl
  | some pair =>
    cases hd : firmware.messageBuffers id with
    | none => rfl
    | some d =>
      have hinterfaces : MessageMap.interfaces = [0] := rfl
      have hfirst : (firstBytes id content).take d.msgSize =
          (List.range d.msgSize).map fun k => content.getD k 0 := by
        simp only [firstBytes, hd, Option.map_some, Option.getD_some]
        exact List.take_of_length_le (by simp)
      simp only [Option.map_some, Option.bind_some, Option.toList_some, hinterfaces,
        MessageMap.broadcast, hfirst]
      rw [streamFrame_eq (by decide) rfl, sendMessage_eq _ _ _ _ (by decide) rfl]
      simp

namespace History
variable {calls : List Call} {s s' : App} {call : Call}

/-- The check of a power state that is let pass. -/
lemma newPwr (h : History calls s) (hcallback : call.callback = Measuring.onNewPwrMeasurement)
    (hid : call.id = msgIdSystemPowerState) {p : Passed} (hcontent : call.content = some p.content)
    (habove : p.thresholds.lowThresh < p.batteryVoltcV) (clients : Clients) (color : LedColor)
    (running : Option AppPc) :
    History (calls ++ [call])
      { s with clients := clients, color := color, running := running, passed := s.passed ++ [p] } := by
  have hother {callback : Callback} (hne : Measuring.onNewPwrMeasurement ≠ callback) (id : MsgId) :
      givenTo (calls ++ [call]) id callback = givenTo calls id callback :=
    givenTo_other (hcallback ▸ hne) calls id
  refine ⟨?_, ?_, h.sendState, ?_, ?_, ?_⟩
  · intro d
    rw [hother (by cases d <;> decide)]
    exact h.counter d
  · intro d
    rw [hother (by cases d <;> decide)]
    exact h.offered d
  · rw [List.flatMap_append, List.flatMap_singleton, framesOf_other (by rw [hcallback]; decide),
      List.append_nil]
    exact h.sent
  · intro p' hp'
    rw [List.mem_append, List.mem_singleton] at hp'
    rcases hp' with hp' | rfl
    · exact h.above p' hp'
    · exact habove
  · rw [givenTo_append, givenTo_singleton, if_pos ⟨hid, hcallback⟩, hcontent, Option.toList_some,
      ← h.passed, List.map_append, List.map_singleton]

/-- A measurement at one of the distributors: the counter goes on, or what it got is posted. -/
lemma distribute (h : History calls s) {d : Distributor} (hcallback : call.callback = d.address)
    (hid : call.id = d.source) {content : List UInt8} (hcontent : call.content = some content)
    (hcounter : ∀ d' ≠ d, s'.counter d' = s.counter d')
    (hoffers : ∀ d' ≠ d, s'.offers d' = s.offers d')
    (hstep : if 50 ∣ (givenTo calls d.source d.address).length + 1 then
        s'.counter d = 0 ∧ (s'.offers d).map (·.1) = (s.offers d).map (·.1) ++ [content]
      else s'.counter d = s.counter d + 1 ∧ s'.offers d = s.offers d)
    (hsendState : s'.sendState = s.sendState) (hframes : s'.frames = s.frames)
    (hpassed : s'.passed = s.passed) : History (calls ++ [call]) s' := by
  have hother {callback : Callback} (hne : d.address ≠ callback) (id : MsgId) :
      givenTo (calls ++ [call]) id callback = givenTo calls id callback :=
    givenTo_other (hcallback ▸ hne) calls id
  have hself : givenTo (calls ++ [call]) d.source d.address =
      givenTo calls d.source d.address ++ [content] := by
    rw [givenTo_append, givenTo_singleton, if_pos ⟨hid, hcallback⟩, hcontent, Option.toList_some]
  have haddress {d' : Distributor} (hne : d' ≠ d) : d.address ≠ d'.address := by
    revert hne
    cases d <;> cases d' <;> decide
  have hlt : (givenTo calls d.source d.address).length % 50 < 50 := Nat.mod_lt _ (by decide)
  refine ⟨?_, ?_, by rw [hsendState]; exact h.sendState, ?_, by rw [hpassed]; exact h.above, ?_⟩
  · intro d'
    by_cases hd : d' = d
    · subst hd
      rw [hself, List.length_append, List.length_singleton]
      split_ifs at hstep with hdvd
      · rw [hstep.1, Nat.mod_eq_zero_of_dvd hdvd]
        rfl
      · rw [Sampling.add_one_mod_of_not_dvd (by decide) hdvd, hstep.1, UInt32.toNat_add, h.counter]
        exact Nat.mod_eq_of_lt (by simp only [UInt32.reduceToNat]; omega)
    · rw [hcounter d' hd, hother (haddress hd)]
      exact h.counter d'
  · intro d'
    by_cases hd : d' = d
    · subst hd
      rw [hself, Sampling.everyNth_append_singleton]
      split_ifs at hstep with hdvd
      · rw [if_pos hdvd, hstep.2, h.offered]
      · rw [if_neg hdvd, hstep.2, h.offered, List.append_nil]
    · rw [hoffers d' hd, hother (haddress hd)]
      exact h.offered d'
  · rw [hframes, List.flatMap_append, List.flatMap_singleton, framesOf_other, List.append_nil]
    · exact h.sent
    · rw [hcallback]
      cases d <;> decide
  · rw [hpassed, hother (by cases d <;> decide)]
    exact h.passed

/-- A frame for the outside. -/
lemma msgCallback (h : History calls s) {id : MsgId} {content : List UInt8}
    (hcall : call = { callback := MsgProxy.msgCallback, id := id, content := some content })
    (clients : Clients) (running : Option AppPc) :
    History (calls ++ [call])
      { s with
        clients := clients
        running := running
        frames := s.frames ++ (powerboardMap.msgCallback firmware s.sendState id
          fun k => content.getD k 0).1
        sendState := (powerboardMap.msgCallback firmware s.sendState id
          fun k => content.getD k 0).2 } := by
  have hother {callback : Callback} (hne : MsgProxy.msgCallback ≠ callback) (id : MsgId) :
      givenTo (calls ++ [call]) id callback = givenTo calls id callback :=
    givenTo_other (hcall ▸ hne) calls id
  rw [h.sendState, msgCallback_zeroed, ← hcall]
  refine ⟨?_, ?_, rfl, ?_, h.above, ?_⟩
  · intro d
    rw [hother (by cases d <;> decide)]
    exact h.counter d
  · intro d
    rw [hother (by cases d <;> decide)]
    exact h.offered d
  · rw [List.flatMap_append, List.flatMap_singleton, ← h.sent]
  · rw [hother (by decide)]
    exact h.passed

/-- A callback that does nothing with a power state. -/
lemma other (h : History calls s) (hnewPwr : call.callback ≠ Measuring.onNewPwrMeasurement)
    (hdistributor : ∀ d : Distributor, call.callback ≠ d.address)
    (hmsgCallback : call.callback ≠ MsgProxy.msgCallback) : History (calls ++ [call]) s := by
  refine ⟨?_, ?_, h.sendState, ?_, h.above, ?_⟩
  · intro d
    rw [givenTo_other (hdistributor d)]
    exact h.counter d
  · intro d
    rw [givenTo_other (hdistributor d)]
    exact h.offered d
  · rw [List.flatMap_append, List.flatMap_singleton, framesOf_other hmsgCallback, List.append_nil]
    exact h.sent
  · rw [givenTo_other hnewPwr]
    exact h.passed

/-- Only what the callbacks of a power state have left counts. -/
lemma congr (h : History calls s) (hcounter : s'.counter = s.counter) (hoffers : s'.offers = s.offers)
    (hsendState : s'.sendState = s.sendState) (hframes : s'.frames = s.frames)
    (hpassed : s'.passed = s.passed) : History calls s' := by
  refine ⟨?_, ?_, hsendState.trans h.sendState, hframes.trans h.sent, ?_, ?_⟩
  · rw [hcounter]
    exact h.counter
  · rw [hoffers]
    exact h.offered
  · rw [hpassed]
    exact h.above
  · rw [hpassed]
    exact h.passed

end History

/-! ## The invariant -/

/-- What runs is this callback, called for the message in this element. -/
def IsCallOf (callback : Callback) (e : Elem) : AppPc → Prop
  | .onNewPwrMeasurement buf => buf = some e ∧ callback = Measuring.onNewPwrMeasurement
  | .switchedOff =>
    callback = Measuring.onNewPwrMeasurement ∨ callback = onReceivedPacketMsgPumpCallback
  | .distributing d dataPtr => dataPtr = some e ∧ callback = d.address
  | .msgCallback id data => id = e.id ∧ data = some e ∧ callback = MsgProxy.msgCallback
  | .receivedPacket id buffer =>
    id = e.id ∧ buffer = some e ∧ callback = onReceivedPacketMsgPumpCallback

/-- The loop is in the call of the callback in entry `i`, for the message at the front. -/
structure InCall (v : MsgId → ℕ → Option Callback) (s : App) (pc : AppPc) (i : ℕ) (e : Elem)
    (callback : Callback) : Prop where
  loop : s.clients.state.pc = .calling (i + 1)
  held : ∃ rest, s.clients.state.held = e :: rest
  lt : i < maxReceivers
  entry : v e.id i = some callback
  isCallOf : IsCallOf callback e pc

/-- The invariant. -/
structure AppInv (v : MsgId → ℕ → Option Callback) (s : App) : Prop where
  delivery : DeliveryInv firmware v s.clients
  running : ∀ pc, s.running = some pc → ∃ i e callback, InCall v s pc i e callback
  history : History s.returned s
  accepted : ∀ d, (((s.offers d).filter (·.2)).map fun offer => firstBytes d.out offer.1).Sublist
    (s.posted d.out)

section Inv
variable {v : MsgId → ℕ → Option Callback} {lateInitTimer : Bool} {s s' : App} {pc : AppPc} {i : ℕ}
  {e : Elem} {callback : Callback} {layout : Layout firmware} {levelOffset : ℤ} {memory : Memory}

/-- The call of the callback that runs is the last one, with what is in the element. -/
lemma AppInv.calls_eq (h : AppInv v s) (hrunning : s.running = some pc)
    (hcall : InCall v s pc i e callback) :
    s.clients.calls = s.returned ++
      [{ callback := callback, id := e.id, content := some (s.clients.state.pump.data e) }] := by
  obtain ⟨rest, hheld⟩ := hcall.held
  obtain ⟨before, hbefore⟩ := last_call h.delivery hcall.loop hheld hcall.entry
  have hreturned : s.returned = before := by
    rw [App.returned, hrunning, Option.isSome_some, if_pos rfl, hbefore, List.dropLast_concat]
  rw [hreturned, hbefore]

/-- The element of a message at the front is in the pool of a declared id. -/
lemma AppInv.front_declared (h : AppInv v s) (hcall : InCall v s pc i e callback) :
    ∃ d, firmware.messageBuffers e.id = some d ∧ e.index < d.msgAmount := by
  obtain ⟨rest, hheld⟩ := hcall.held
  obtain ⟨m, hm, hbuffer, hid⟩ := exists_entry_of_mem_held h.delivery.wellFormed
    (hheld ▸ List.mem_cons_self : e ∈ s.clients.state.held)
  obtain ⟨d, hd, -, hentry⟩ := h.delivery.wellFormed.entries m hm
  exact ⟨d, hid ▸ hd, (hentry e hbuffer).2⟩

/-- The callback that runs returns. -/
lemma AppInv.returns (h : AppInv v s) (hrunning : s.running = some pc)
    (hcall : InCall v s pc i e callback) (hdelivery : DeliveryInv firmware v s'.clients)
    (hcalls : s'.clients.calls = s.clients.calls) (hrunning' : s'.running = none)
    (hhistory : History (s.returned ++
      [{ callback := callback, id := e.id, content := some (s.clients.state.pump.data e) }]) s')
    (haccepted : ∀ d, (((s'.offers d).filter (·.2)).map fun offer =>
      firstBytes d.out offer.1).Sublist (s'.posted d.out)) : AppInv v s' := by
  have hreturned : s'.returned = s.returned ++
      [{ callback := callback, id := e.id, content := some (s.clients.state.pump.data e) }] := by
    rw [App.returned, hrunning', Option.isSome_none, if_neg (by decide), hcalls]
    exact h.calls_eq hrunning hcall
  refine ⟨hdelivery, ?_, hreturned ▸ hhistory, haccepted⟩
  intro pc' hpc'
  rw [hrunning'] at hpc'
  cases hpc'

/-! ## The steps -/

/-- The callback that runs ends in the endless loop. -/
lemma AppInv.switchesOff (h : AppInv v s) (hrunning : s.running = some pc)
    (hcall : InCall v s pc i e callback)
    (hcallback : callback = Measuring.onNewPwrMeasurement ∨
      callback = onReceivedPacketMsgPumpCallback) :
    AppInv v { s with running := some .switchedOff } := by
  refine ⟨h.delivery, ?_, ?_, h.accepted⟩
  · intro pc' hpc'
    obtain rfl := Option.some.inj hpc'
    exact ⟨i, e, callback, hcall.loop, hcall.held, hcall.lt, hcall.entry, hcallback⟩
  · have hreturned : App.returned { s with running := some .switchedOff } = s.returned := by
      simp only [App.returned, hrunning, Option.isSome_some]
    rw [hreturned]
    exact h.history.congr rfl rfl rfl rfl rfl

/-- More posts do not take away what was accepted. -/
lemma AppInv.accepted_of_posted (h : AppInv v s) {clients : Clients}
    (hposted : s.clients.posted <+: clients.posted) (d : Distributor) :
    (((s.offers d).filter (·.2)).map fun offer => firstBytes d.out offer.1).Sublist
      (contentsOf clients.posted d.out) :=
  (h.accepted d).trans (hposted.filterMap _).sublist

lemma AppInv.runNewPwrMeasurement (h : AppInv v s) (hv : FirmwareCallbacks v lateInitTimer)
    (hlevel : LevelOutside levelOffset) {buf : Option Elem}
    (hrunning : s.running = some (.onNewPwrMeasurement buf)) :
    ∃ s', runNewPwrMeasurement levelOffset s buf memory = some s' ∧ AppInv v s' := by
  obtain ⟨i, e, callback, hcall⟩ := h.running _ hrunning
  obtain ⟨rfl, rfl⟩ := hcall.isCallOf
  have hid : e.id = msgIdSystemPowerState := hv.id_of_powerCheck hcall.lt hcall.entry
  unfold Application.runNewPwrMeasurement
  cases hreaction : onNewPwrMeasurement s.thresholds (s.content (some e)) with
  | switchAllOff => exact ⟨_, rfl, h.switchesOff hrunning hcall (Or.inl rfl)⟩
  | post color level =>
    dsimp only
    have hout : ¬ relativeBatteryVoltageBuf.InPool (levelPointer levelOffset level memory) := hlevel
    obtain ⟨success, clients, hpost, hdelivery, hframe, -⟩ :=
      postOwn_outcome h.delivery firmware_relativeBatteryVoltage hout
    refine ⟨_, by rw [hpost, Option.map_some], ?_⟩
    have habove := onNewPwrMeasurement_eq_post_iff.mp ⟨color, level, hreaction⟩
    exact h.returns hrunning hcall hdelivery hframe.calls rfl
      (h.history.newPwr rfl hid (p := ⟨s.thresholds, s.content (some e), success⟩) rfl habove _ _ _)
      (h.accepted_of_posted hframe.posted)

/-- The counter reaches its end with every 50th. -/
lemma History.counter_iff {calls : List Call} (h : History calls s) (d : Distributor) :
    s.counter d + 1 = distributionInterval ↔
      50 ∣ (givenTo calls d.source d.address).length + 1 := by
  have hlt : (givenTo calls d.source d.address).length % 50 < 50 := Nat.mod_lt _ (by decide)
  have hcounter := h.counter d
  have hone : (s.counter d + 1).toNat = (s.counter d).toNat + 1 := by
    rw [UInt32.toNat_add, hcounter]
    exact Nat.mod_eq_of_lt (by simp only [UInt32.reduceToNat]; omega)
  rw [← Sampling.mod_add_one_eq_iff (by decide), ← hcounter, ← hone, ← UInt32.toNat_inj]
  rfl

lemma AppInv.distribute (h : AppInv v s) (hv : FirmwareCallbacks v lateInitTimer) {d : Distributor}
    {dataPtr : Option Elem} (hrunning : s.running = some (.distributing d dataPtr)) :
    ∃ s', distribute layout s d dataPtr = some s' ∧ AppInv v s' := by
  obtain ⟨i, e, callback, hcall⟩ := h.running _ hrunning
  obtain ⟨rfl, rfl⟩ := hcall.isCallOf
  have hid : e.id = d.source := hv.id_of_distributor hcall.lt hcall.entry
  unfold Application.distribute
  dsimp only
  have hiff := h.history.counter_iff d
  split_ifs with hcounter
  · have hdvd := hiff.mp hcounter
    obtain ⟨desc, hdesc⟩ : ∃ desc, firmware.messageBuffers d.out = some desc :=
      firmware_known (List.mem_cons_of_mem _ d.out_mem_registrations)
    obtain ⟨desc', hdesc', hindex⟩ := h.front_declared hcall
    have hne : e.id ≠ d.out := by
      rw [hid]
      cases d <;> decide
    obtain ⟨success, clients, hpost, hdelivery, hframe, hcontents⟩ := postOwn_outcome h.delivery hdesc
      (pointerFrom_not_inPool layout s.clients.state.pump hdesc hdesc' hne hindex)
    refine ⟨_, by rw [Option.bind_some, hpost, Option.map_some], ?_⟩
    refine h.returns hrunning hcall hdelivery hframe.calls rfl ?_ ?_
    · refine h.history.distribute rfl hid rfl ?_ ?_ ?_ rfl rfl rfl
      · intro d' hd'
        exact Function.update_of_ne hd' _ _
      · intro d' hd'
        exact Function.update_of_ne hd' _ _
      · rw [if_pos hdvd]
        dsimp only
        rw [Function.update_self, Function.update_self, List.map_append]
        exact ⟨rfl, rfl⟩
    · intro d'
      by_cases hd' : d' = d
      · subst hd'
        simp only [App.posted, Function.update_self, hcontents, List.filter_append,
          List.map_append]
        apply (h.accepted d').append
        have hcopied : copied desc (Measuring.pointerFrom (fun id => layout.data id)
            s.clients.state.pump d'.out e) = firstBytes d'.out (s.content (some e)) := by
          simp only [copied, firstBytes, hdesc, Option.map_some, Option.getD_some]
          rfl
        cases success with
        | false => simp
        | true => simp [hcopied]
      · simp only [Function.update_of_ne hd']
        exact h.accepted_of_posted hframe.posted d'
  · have hdvd := mt hiff.mpr hcounter
    refine ⟨_, rfl, h.returns hrunning hcall h.delivery rfl rfl ?_ h.accepted⟩
    refine h.history.distribute rfl hid rfl ?_ (fun _ _ => rfl) ?_ rfl rfl rfl
    · intro d' hd'
      exact Function.update_of_ne hd' _ _
    · rw [if_neg hdvd]
      exact ⟨Function.update_self _ _ _, rfl⟩

lemma AppInv.runMsgCallback (h : AppInv v s) {id : MsgId} {data : Option Elem}
    (hrunning : s.running = some (.msgCallback id data)) : AppInv v (runMsgCallback s id data) := by
  obtain ⟨i, e, callback, hcall⟩ := h.running _ hrunning
  obtain ⟨rfl, rfl, rfl⟩ := hcall.isCallOf
  have hcontent : s.content (some e) = s.clients.state.pump.data e := rfl
  have hhistory := @History.msgCallback _ _ _ h.history e.id (s.clients.state.pump.data e) rfl
    s.clients none
  unfold Application.runMsgCallback
  rw [hcontent]
  exact h.returns hrunning hcall h.delivery rfl rfl hhistory h.accepted

/-- The endpoint `masterOff` is that of packets with its id. -/
lemma subProtocolID_of_masterOff {packet : Packet} {c : Command} (h : commandOf packet = some c)
    (hmasterOff : c.callback = masterOffAddress) :
    packet.subProtocolID = 100 ∧ c.packetLen = packet.payloadLen ∧ c.payload = packet.payload := by
  have hall : ∀ handle ∈ endpoints, handle.callback = masterOffAddress →
      handle.endpointIdentifier = 100 := by decide
  simp only [commandOf, Option.map_eq_some_iff] at h
  obtain ⟨handle, hfind, rfl⟩ := h
  have hid : packet.subProtocolID = handle.endpointIdentifier := by
    simpa using List.find?_some hfind
  exact ⟨hid.trans (hall handle (List.mem_of_find?_eq_some hfind) hmasterOff), rfl, rfl⟩

/-- The dispatcher returns with its endpoint, unless that is `masterOff`. -/
lemma runReceivedPacket_cases (s : App) (id : MsgId) (buffer : Option Elem) :
    (∃ thresholds replies, runReceivedPacket s id buffer =
        { s with thresholds := thresholds, replies := replies, running := none }) ∨
      (runReceivedPacket s id buffer = { s with running := some .switchedOff } ∧
        id = msgIdGenericProtocolPacketReady ∧ MasterOff (Packet.decode (s.content buffer))) := by
  unfold runReceivedPacket
  dsimp only
  split
  · rename_i c hc
    split_ifs at hc with hid
    unfold callEndpoint
    split_ifs with h1 h2 h3 h4
    · exact Or.inl ⟨_, _, rfl⟩
    · exact Or.inl ⟨_, _, rfl⟩
    · exact Or.inl ⟨_, _, rfl⟩
    · obtain ⟨hsub, hlen, hpayload⟩ := subProtocolID_of_masterOff hc h4.1
      exact Or.inr ⟨rfl, hid, hsub, hlen ▸ h4.2.1, hpayload ▸ h4.2.2⟩
    · exact Or.inl ⟨_, _, rfl⟩
  · exact Or.inl ⟨_, _, rfl⟩

lemma AppInv.runReceivedPacket (h : AppInv v s) {id : MsgId} {buffer : Option Elem}
    (hrunning : s.running = some (.receivedPacket id buffer)) :
    AppInv v (runReceivedPacket s id buffer) := by
  obtain ⟨i, e, callback, hcall⟩ := h.running _ hrunning
  obtain ⟨rfl, rfl, rfl⟩ := hcall.isCallOf
  rcases runReceivedPacket_cases s e.id (some e) with ⟨thresholds, replies, heq⟩ | ⟨heq, -⟩
  · have hnewPwr : onReceivedPacketMsgPumpCallback ≠ Measuring.onNewPwrMeasurement := by decide
    have hdistributor (d : Distributor) : onReceivedPacketMsgPumpCallback ≠ d.address := by
      cases d <;> decide
    have hmsgCallback : onReceivedPacketMsgPumpCallback ≠ MsgProxy.msgCallback := by decide
    rw [heq]
    exact h.returns hrunning hcall h.delivery rfl rfl
      ((h.history.other hnewPwr hdistributor hmsgCallback).congr rfl rfl rfl rfl rfl) h.accepted
  · rw [heq]
    exact h.switchesOff hrunning hcall (Or.inr rfl)

lemma runCallback_distributing (d : Distributor) (dataPtr : Option Elem) :
    runCallback layout levelOffset s memory (.distributing d dataPtr) =
      Application.distribute layout s d dataPtr := by
  cases d <;> rfl

/-- A callback that runs can go on, but for the endless loop of `switchAllOff`. -/
theorem AppInv.run (h : AppInv v s) (hv : FirmwareCallbacks v lateInitTimer)
    (hlevel : LevelOutside levelOffset)
    (hrunning : s.running = some pc) (hpc : pc ≠ .switchedOff) :
    ∃ s', runCallback layout levelOffset s memory pc = some s' ∧ AppInv v s' := by
  cases pc with
  | onNewPwrMeasurement buf =>
    simp only [runCallback]
    exact h.runNewPwrMeasurement hv hlevel hrunning
  | switchedOff => exact absurd rfl hpc
  | distributing d dataPtr =>
    rw [runCallback_distributing]
    exact h.distribute hv hrunning
  | msgCallback id data => exact ⟨_, rfl, h.runMsgCallback hrunning⟩
  | receivedPacket id buffer => exact ⟨_, rfl, h.runReceivedPacket hrunning⟩

/-- What is called is entered. -/
lemma isCallOf_entered {dataPtr : Option Elem} {call : Call} (hptr : dataPtr = some e)
    (hid : call.id = e.id) (h : entered dataPtr call = some pc) : IsCallOf call.callback e pc := by
  unfold entered at h
  split_ifs at h with h1 h2 h3 h4 h5
  all_goals
    obtain rfl := Option.some.inj h
    simp only [IsCallOf]
    first
    | exact ⟨hptr, h1⟩
    | exact ⟨hptr, h2⟩
    | exact ⟨hptr, h3⟩
    | exact ⟨hid, hptr, h4⟩
    | exact ⟨hid, hptr, h5⟩

/-- What has no steps does nothing with a power state. -/
lemma ne_of_entered_eq_none {dataPtr : Option Elem} {call : Call} (h : entered dataPtr call = none) :
    call.callback ≠ Measuring.onNewPwrMeasurement ∧
      (∀ d : Distributor, call.callback ≠ d.address) ∧ call.callback ≠ MsgProxy.msgCallback := by
  unfold entered at h
  split_ifs at h with h1 h2 h3 h4 h5
  refine ⟨h1, fun d => ?_, h4⟩
  cases d
  · exact h2
  · exact h3

lemma AppInv.returned_eq (hrunning : s.running = none) : s.returned = s.clients.calls := by
  rw [App.returned, hrunning, Option.isSome_none, if_neg (by decide)]

/-- The loop goes on, or calls a callback. -/
lemma AppInv.dispatch (h : AppInv v s) (hstep : dispatchNext s = some s') : AppInv v s' := by
  unfold dispatchNext at hstep
  split_ifs at hstep with hbusy
  have hrunning : s.running = none := Option.not_isSome_iff_eq_none.mp hbusy
  have hhistory := h.history
  rw [AppInv.returned_eq hrunning] at hhistory
  obtain ⟨⟨state, call⟩, hdispatch, hr⟩ := dispatch_outcome h.delivery.wellFormed
  have hdelivery := h.delivery.dispatch hr
  rw [hdispatch] at hstep
  cases call with
  | none =>
    obtain rfl := Option.some.inj hstep
    simp only [Option.toList_none, List.append_nil] at hdelivery
    refine ⟨hdelivery, ?_, ?_, h.accepted⟩
    · intro pc hpc
      cases hrunning.symm.trans hpc
    · rw [AppInv.returned_eq (by exact hrunning)]
      exact hhistory.congr rfl rfl rfl rfl rfl
  | some call =>
    obtain rfl := Option.some.inj hstep
    obtain ⟨i, e, rest, hi, hentry, hid, hcontent, hptr, hstate, hheld⟩ :=
      call_outcome h.delivery hr rfl
    dsimp only at hstate hheld
    subst hstate
    rw [hptr]
    unfold called
    split_ifs with hbuck
    · -- the converter gets its level at once
      refine ⟨hdelivery, ?_, ?_, h.accepted⟩
      · intro pc' hpc'
        cases hrunning.symm.trans hpc'
      · rw [AppInv.returned_eq (by exact hrunning)]
        refine (hhistory.other ?_ (fun d => ?_) ?_).congr rfl rfl rfl rfl rfl
        · rw [hbuck]
          decide
        · rw [hbuck]
          cases d <;> decide
        · rw [hbuck]
          decide
    · cases hentered : entered (some e) call with
      | none =>
        obtain ⟨hnewPwr, hdistributor, hmsgCallback⟩ := ne_of_entered_eq_none hentered
        refine ⟨hdelivery, ?_, ?_, h.accepted⟩
        · intro pc' hpc'
          cases hpc'
        · rw [AppInv.returned_eq rfl]
          exact (hhistory.other hnewPwr hdistributor hmsgCallback).congr rfl rfl rfl rfl rfl
      | some pc' =>
        refine ⟨hdelivery, ?_, ?_, h.accepted⟩
        · intro pc'' hpc''
          obtain rfl := Option.some.inj hpc''
          exact ⟨i, e, call.callback, rfl, ⟨rest, hheld⟩, hi, hentry,
            isCallOf_entered rfl hid hentered⟩
        · -- the call is not counted before it returns
          simp only [App.returned, Option.isSome_some, if_true, List.dropLast_concat]
          exact hhistory.congr rfl rfl rfl rfl rfl

/-- A client changes nothing for the callbacks. -/
lemma AppInv.client (h : AppInv v s) {a : ClientAction} {clients : Clients} (ha : a ≠ .dispatch)
    (hstep : clientStep firmware s.clients a = some clients) :
    AppInv v { s with clients := clients } := by
  obtain ⟨hframe, -⟩ := clientStep_frame h.delivery ha hstep
  have hreturned : App.returned { s with clients := clients } = s.returned := by
    simp only [App.returned, hframe.calls]
  refine ⟨h.delivery.step hstep, ?_, ?_, h.accepted_of_posted hframe.posted⟩
  · intro pc hpc
    obtain ⟨i, e, callback, hcall⟩ := h.running pc hpc
    obtain ⟨rest, hheld⟩ := hcall.held
    obtain ⟨more, hmore⟩ := hframe.held
    refine ⟨i, e, callback, hframe.pc.trans hcall.loop, ⟨rest ++ more, ?_⟩, hcall.lt, hcall.entry,
      hcall.isCallOf⟩
    rw [← List.cons_append, ← hheld]
    exact hmore.symm
  · rw [hreturned]
    exact h.history.congr rfl rfl rfl rfl rfl

/-- Everything that a step can do. -/
inductive AppMoves (layout : Layout firmware) (levelOffset : ℤ) (s : App) : AppAction → App → Prop
  | run (memory : Memory) (pc : AppPc) (s' : App) (hrunning : s.running = some pc)
      (hrun : runCallback layout levelOffset s memory pc = some s') :
      AppMoves layout levelOffset s (.run memory) s'
  | dispatch (s' : App) (hidle : s.running = none) (hdispatch : dispatchNext s = some s') :
      AppMoves layout levelOffset s .dispatch s'
  | client (b : ClientAction) (clients : Clients) (hb : b ≠ .dispatch)
      (hclients : clientStep firmware s.clients b = some clients) :
      AppMoves layout levelOffset s (.client b) { s with clients := clients }
  | onLateInitTimer (s' : App) (hlate : s.lateInitTimer = true)
      (hregister : onLateInitTimer s = some s') :
      AppMoves layout levelOffset s .onLateInitTimer s'

lemma appMoves_of_step {a : AppAction} (hstep : appStep layout levelOffset s a = some s') :
    AppMoves layout levelOffset s a s' := by
  cases a with
  | run memory =>
    simp only [appStep, Option.bind_eq_some_iff] at hstep
    obtain ⟨pc, hrunning, hrun⟩ := hstep
    exact .run memory pc s' hrunning hrun
  | dispatch =>
    have hidle : s.running = none := by
      simp only [appStep, dispatchNext] at hstep
      split_ifs at hstep with hbusy
      exact Option.not_isSome_iff_eq_none.mp hbusy
    exact .dispatch s' hidle hstep
  | client b =>
    cases b with
    | dispatch => cases hstep
    | _ =>
      simp only [appStep, Option.map_eq_some_iff] at hstep
      obtain ⟨clients, hclients, rfl⟩ := hstep
      exact .client _ clients (by simp) hclients
  | onLateInitTimer =>
    simp only [appStep] at hstep
    split_ifs at hstep with hlate
    exact .onLateInitTimer s' hlate hstep

/-- Every step but the registration keeps the invariant. -/
theorem AppInv.step (h : AppInv v s) (hv : FirmwareCallbacks v lateInitTimer)
    (hlevel : LevelOutside levelOffset) {a : AppAction} (ha : a ≠ .onLateInitTimer)
    (hstep : appStep layout levelOffset s a = some s') : AppInv v s' := by
  cases appMoves_of_step hstep with
  | run memory pc _ hrunning hrun =>
    by_cases hpc : pc = .switchedOff
    · subst hpc
      cases hrun
    · obtain ⟨s'', hs'', h'⟩ := h.run hv hlevel hrunning hpc
      obtain rfl := Option.some.inj (hs''.symm.trans hrun)
      exact h'
  | dispatch _ _ hdispatch => exact h.dispatch hdispatch
  | client b clients hb hclients => exact h.client hb hclients
  | onLateInitTimer => exact absurd rfl ha

lemma appInv_start (v : MsgId → ℕ → Option Callback) (lateInitTimer : Bool)
    (data : Elem → List UInt8) (thresholds : Globals) :
    AppInv v (appStart v lateInitTimer data thresholds) := by
  refine ⟨deliveryInv_initial firmware v data, by simp [appStart], ?_, fun d => ?_⟩
  · exact ⟨fun d => rfl, fun d => rfl, rfl, rfl, by simp [appStart], rfl⟩
  · simp [appStart]

/-! ## What is read off the invariant -/

lemma AppInv.distributed (h : AppInv v s) (hv : FirmwareCallbacks v lateInitTimer) :
    Distributed s := by
  refine ⟨fun d => ?_, fun d => ?_, h.history.offered, h.accepted, fun d => ?_, fun d => ?_,
    h.history.sent⟩
  · obtain ⟨k, hk⟩ := hv.oneEntry d.mem_registrations
    exact (given_of_delivery h.delivery hk).1
  · obtain ⟨k, hk⟩ := hv.oneEntry d.mem_registrations
    exact (given_of_delivery h.delivery hk).2
  · obtain ⟨k, hk⟩ := hv.oneEntry d.out_mem_registrations
    exact (given_of_delivery h.delivery hk).1
  · obtain ⟨k, hk⟩ := hv.oneEntry d.out_mem_registrations
    exact (given_of_delivery h.delivery hk).2

/-- The power check is called first, so it was called at least as often. -/
lemma given_prefix_of_powerCheck (h : DeliveryInv firmware v s.clients)
    (hv : FirmwareCallbacks v lateInitTimer) :
    (s.given msgIdSystemPowerState onSystemMeasurementAddress <+:
      s.given msgIdSystemPowerState Measuring.onNewPwrMeasurement) ∧
    (s.clients.state.pc = .calling 1 → ∀ e rest, s.clients.state.held = e :: rest →
      e.id = msgIdSystemPowerState →
      s.given msgIdSystemPowerState Measuring.onNewPwrMeasurement =
        s.given msgIdSystemPowerState onSystemMeasurementAddress ++
          [s.clients.state.pump.data e]) := by
  have hcheck := hv.oneEntry_powerCheck
  obtain ⟨k, hk⟩ := hv.oneEntry (Distributor.mem_registrations .onSystemMeasurement)
  have hk' : OneEntry v msgIdSystemPowerState onSystemMeasurementAddress k := hk
  -- the entries of the two callbacks are different
  have hpos : 0 < k := by
    apply Nat.pos_of_ne_zero
    rintro rfl
    have heq := hcheck.entry.symm.trans hk'.entry
    rw [Option.some.injEq] at heq
    exact absurd heq (by decide)
  obtain ⟨delivered, -, hcalls⟩ := h.history
  have hsplit {callback : Callback} {j : ℕ} (hj : OneEntry v msgIdSystemPowerState callback j) :
      s.given msgIdSystemPowerState callback = contentsOf delivered msgIdSystemPowerState ++
        givenTo (s.clients.state.callsOfFront v) msgIdSystemPowerState callback := by
    rw [App.given, hcalls, givenTo_append, givenTo_flatMap hj]
  have hfront {i : ℕ} (hi : i ≤ maxReceivers) (message : MsgId × List UInt8) :
      givenTo (callsFor v i message) msgIdSystemPowerState onSystemMeasurementAddress <+:
        givenTo (callsFor v i message) msgIdSystemPowerState Measuring.onNewPwrMeasurement := by
    rw [givenTo_callsFor hk' _ hi, givenTo_callsFor hcheck _ hi]
    by_cases hlast : message.1 = msgIdSystemPowerState ∧ k < i
    · rw [if_pos hlast, if_pos ⟨hlast.1, hpos.trans hlast.2⟩]
    · rw [if_neg hlast]
      exact List.nil_prefix
  refine ⟨?_, ?_⟩
  · rw [hsplit hk', hsplit hcheck]
    apply (List.prefix_append_right_inj _).mpr
    unfold PumpState.callsOfFront
    split
    · rename_i i e rest hpc hheld
      exact hfront (h.wellFormed.calling i hpc) _
    · exact hfront le_rfl _
    · exact List.prefix_refl _
  · intro hpc e rest hheld hid
    rw [hsplit hk', hsplit hcheck, callsOfFront_calling hpc hheld,
      givenTo_callsFor hk' _ (by decide), givenTo_callsFor hcheck _ (by decide)]
    have hnot : ¬ ((s.clients.state.pump.message e).1 = msgIdSystemPowerState ∧ k < 1) := by omega
    rw [if_neg hnot, if_pos ⟨hid, by decide⟩, List.append_nil]
    rfl

lemma AppInv.checked (h : AppInv v s) (hv : FirmwareCallbacks v lateInitTimer) : Checked s := by
  obtain ⟨hbegins, hlast⟩ := given_prefix_of_powerCheck h.delivery hv
  have hpassed := h.history.passed
  cases hrunning : s.running with
  | none =>
    rw [AppInv.returned_eq hrunning] at hpassed
    refine ⟨⟨[], by simp, ?_, Or.inl rfl⟩, h.history.above, ?_⟩
    · rw [hpassed, List.append_nil]
      rfl
    · rw [hpassed]
      exact hbegins
  | some pc =>
    obtain ⟨i, e, callback, hcall⟩ := h.running pc hrunning
    have hcalls := h.calls_eq hrunning hcall
    obtain ⟨rest, hheld⟩ := hcall.held
    by_cases hcallback : callback = Measuring.onNewPwrMeasurement
    · -- the power check runs: it is in the first entry
      subst hcallback
      have hid := hv.id_of_powerCheck hcall.lt hcall.entry
      have hi : i = 0 := hv.oneEntry_powerCheck.unique i hcall.lt (hid ▸ hcall.entry)
      subst hi
      have hgiven : s.given msgIdSystemPowerState Measuring.onNewPwrMeasurement =
          s.passed.map (·.content) ++ [s.clients.state.pump.data e] := by
        rw [App.given, hcalls, givenTo_append, givenTo_singleton, if_pos ⟨hid, rfl⟩, hpassed,
          Option.toList_some]
      have hsame := (hlast hcall.loop e rest hheld hid).symm.trans hgiven
      rw [List.append_cancel_right_eq] at hsame
      refine ⟨⟨_, by simp, hgiven, Or.inr ?_⟩, h.history.above, by rw [hsame]⟩
      have hcallOf := hcall.isCallOf
      cases pc with
      | onNewPwrMeasurement buf => exact Or.inr ⟨buf, hrunning⟩
      | switchedOff => exact Or.inl hrunning
      | distributing d dataPtr =>
        exact absurd hcallOf.2 (by cases d <;> decide)
      | msgCallback id data | receivedPacket id data => exact absurd hcallOf.2.2 (by decide)
    · have hgiven : s.given msgIdSystemPowerState Measuring.onNewPwrMeasurement =
          s.passed.map (·.content) := by
        rw [App.given, hcalls, givenTo_other hcallback, hpassed]
      refine ⟨⟨[], by simp, ?_, Or.inl rfl⟩, h.history.above, ?_⟩
      · rw [hgiven, List.append_nil]
      · rw [← hgiven]
        exact hbegins

/-! ## The levels -/

/-- A post of a callback leaves the other messages. -/
lemma posted_of_postOwn (id' : MsgId) {c c' : Clients} {id : MsgId} {d : BufDescription}
    {ptr : Pointer}
    {success : Bool} (h : DeliveryInv firmware v c) (hd : firmware.messageBuffers id = some d)
    (hout : ¬ d.InPool ptr) (hpost : postOwn c id ptr = some (success, c')) :
    contentsOf c'.posted id' = contentsOf c.posted id' ++
      if success = true ∧ id = id' then [copied d ptr] else [] := by
  obtain ⟨success', c'', hpost', -, -, hcontents⟩ := postOwn_outcome h hd hout
  rw [hpost', Option.some.injEq, Prod.mk.injEq] at hpost
  rw [← hpost.1, ← hpost.2]
  exact hcontents id'

/-- The power check posts the level of what it passes on. -/
lemma AppInv.levelsPosted_newPwr (h : AppInv v s) (hlevel : LevelOutside levelOffset)
    {buf : Option Elem} (hrun : Application.runNewPwrMeasurement levelOffset s buf memory = some s')
    (hlevels : LevelsPosted s) : LevelsPosted s' := by
  unfold LevelsPosted at hlevels ⊢
  unfold Application.runNewPwrMeasurement at hrun
  cases hreaction : onNewPwrMeasurement s.thresholds (s.content buf) with
  | switchAllOff =>
    rw [hreaction] at hrun
    obtain rfl := Option.some.inj hrun
    exact hlevels
  | post color level =>
    rw [hreaction] at hrun
    simp only [Option.map_eq_some_iff] at hrun
    obtain ⟨⟨success, clients⟩, hpost, rfl⟩ := hrun
    have hout : ¬ relativeBatteryVoltageBuf.InPool (levelPointer levelOffset level memory) := hlevel
    have hcontents := posted_of_postOwn msgIdRelativeBatteryVoltage h.delivery
      firmware_relativeBatteryVoltage hout hpost
    have hrelative : level = relativeLevel s.thresholds
        (systemPowerStateAt (s.content buf)).batteryVoltcV := by
      unfold onNewPwrMeasurement at hreaction
      dsimp only at hreaction
      split_ifs at hreaction
      exact (Reaction.post.inj hreaction).2.symm
    have hfirst : (copied relativeBatteryVoltageBuf
        (levelPointer levelOffset level memory)).getD 0 0 = level := by
      simp [copied, levelPointer, relativeBatteryVoltageBuf, MessageType.pool, declarePool,
        MessageType.sizeof]
    simp only [App.posted, hcontents, List.map_append, List.filter_append, and_true] at hlevels ⊢
    rw [hlevels]
    cases success with
    | false => simp
    | true =>
      simp only [if_true, List.map_singleton, hfirst, List.filter_singleton, cond_true]
      rw [hrelative]
      rfl

/-- What is distributed are no levels. -/
lemma AppInv.levelsPosted_distribute (h : AppInv v s) (hv : FirmwareCallbacks v lateInitTimer)
    {d : Distributor}
    {dataPtr : Option Elem} (hrunning : s.running = some (.distributing d dataPtr))
    (hrun : Application.distribute layout s d dataPtr = some s') (hlevels : LevelsPosted s) :
    LevelsPosted s' := by
  obtain ⟨i, e, callback, hcall⟩ := h.running _ hrunning
  obtain ⟨rfl, rfl⟩ := hcall.isCallOf
  unfold Application.distribute at hrun
  dsimp only at hrun
  split_ifs at hrun
  · simp only [Option.bind_some, Option.map_eq_some_iff] at hrun
    obtain ⟨⟨success, clients⟩, hpost, rfl⟩ := hrun
    obtain ⟨desc, hdesc⟩ : ∃ desc, firmware.messageBuffers d.out = some desc :=
      firmware_known (List.mem_cons_of_mem _ d.out_mem_registrations)
    obtain ⟨desc', hdesc', hindex⟩ := h.front_declared hcall
    have hne : e.id ≠ d.out := by
      rw [hv.id_of_distributor hcall.lt hcall.entry]
      cases d <;> decide
    have hcontents := posted_of_postOwn msgIdRelativeBatteryVoltage h.delivery hdesc
      (pointerFrom_not_inPool layout s.clients.state.pump hdesc hdesc' hne hindex) hpost
    have hother : d.out ≠ msgIdRelativeBatteryVoltage := by
      cases d <;> decide
    simp only [hother, and_false, if_false, List.append_nil] at hcontents
    unfold LevelsPosted at hlevels ⊢
    rw [← hlevels]
    exact congrArg _ hcontents
  · obtain rfl := Option.some.inj hrun
    exact hlevels

/-- The loop posts nothing. -/
lemma levelsPosted_dispatch (hstep : dispatchNext s = some s') (hlevels : LevelsPosted s) :
    LevelsPosted s' := by
  have hposted : s'.clients.posted = s.clients.posted ∧ s'.passed = s.passed := by
    unfold dispatchNext at hstep
    split_ifs at hstep
    split at hstep
    · exact Option.some.inj hstep ▸ ⟨rfl, rfl⟩
    · obtain rfl := Option.some.inj hstep
      unfold called
      split_ifs <;> exact ⟨rfl, rfl⟩
    · cases hstep
  unfold LevelsPosted App.posted at hlevels ⊢
  rw [hposted.1, hposted.2]
  exact hlevels

/-- As long as no other client posts levels, they are those of the power check. -/
lemma AppInv.levelsPosted (h : AppInv v s) (hv : FirmwareCallbacks v lateInitTimer)
    (hlevel : LevelOutside levelOffset) {a : AppAction} (ha : a ≠ .onLateInitTimer)
    (hothers : OthersKeepOff msgIdRelativeBatteryVoltage s a)
    (hstep : appStep layout levelOffset s a = some s') (hlevels : LevelsPosted s) :
    LevelsPosted s' := by
  cases appMoves_of_step hstep with
  | run memory pc _ hrunning hrun =>
    cases pc with
    | switchedOff => cases hrun
    | msgCallback id data =>
      obtain rfl := Option.some.inj hrun
      exact hlevels
    | receivedPacket id buffer =>
      obtain rfl := Option.some.inj hrun
      rcases runReceivedPacket_cases s id buffer with ⟨thresholds, replies, heq⟩ | ⟨heq, -⟩ <;>
        rw [heq] <;> exact hlevels
    | onNewPwrMeasurement buf =>
      simp only [runCallback] at hrun
      exact h.levelsPosted_newPwr hlevel hrun hlevels
    | distributing d dataPtr =>
      rw [runCallback_distributing] at hrun
      exact h.levelsPosted_distribute hv hrunning hrun hlevels
  | dispatch _ _ hdispatch => exact levelsPosted_dispatch hdispatch hlevels
  | client b clients hb hclients =>
    obtain ⟨-, hcontents⟩ := clientStep_frame h.delivery hb hclients
    unfold LevelsPosted App.posted at hlevels ⊢
    rw [hcontents _ (hothers b rfl)]
    exact hlevels
  | onLateInitTimer => exact absurd rfl ha

/-! ## The end -/

lemma distribute_running {d : Distributor} {dataPtr : Option Elem}
    (hrun : Application.distribute layout s d dataPtr = some s') : s'.running = none := by
  unfold Application.distribute at hrun
  dsimp only at hrun
  split_ifs at hrun
  · simp only [Option.bind_eq_some_iff, Option.map_eq_some_iff] at hrun
    obtain ⟨e, -, r, -, rfl⟩ := hrun
    rfl
  · obtain rfl := Option.some.inj hrun
    rfl

/-- No call of a callback begins in the endless loop. -/
lemma dispatchNext_running (hstep : dispatchNext s = some s') : s'.running ≠ some .switchedOff := by
  intro hrunning'
  unfold dispatchNext at hstep
  split_ifs at hstep with hbusy
  have hrunning : s.running = none := Option.not_isSome_iff_eq_none.mp hbusy
  split at hstep
  · obtain rfl := Option.some.inj hstep
    cases hrunning.symm.trans hrunning'
  · obtain rfl := Option.some.inj hstep
    unfold called at hrunning'
    split_ifs at hrunning'
    · cases hrunning.symm.trans hrunning'
    · simp only [entered] at hrunning'
      split_ifs at hrunning'
      all_goals cases Option.some.inj hrunning'
  · cases hstep

/-- The call in which the board switches itself off is the last one. -/
lemma AppInv.offForReason (h : AppInv v s) (hv : FirmwareCallbacks v lateInitTimer) {a : AppAction}
    (ha : a ≠ .onLateInitTimer) (hstep : appStep layout levelOffset s a = some s')
    (hoff : OffForReason s) : OffForReason s' := by
  intro hrunning'
  cases appMoves_of_step hstep with
  | run memory pc _ hrunning hrun =>
    obtain ⟨i, e, callback, hcall⟩ := h.running pc hrunning
    have hcalls := h.calls_eq hrunning hcall
    cases pc with
    | switchedOff => cases hrun
    | msgCallback id data =>
      obtain rfl := Option.some.inj hrun
      cases hrunning'
    | receivedPacket id buffer =>
      obtain ⟨rfl, rfl, rfl⟩ := hcall.isCallOf
      obtain rfl := Option.some.inj hrun
      rcases runReceivedPacket_cases s e.id (some e) with
        ⟨thresholds, replies, heq⟩ | ⟨heq, hid, hmasterOff⟩
      · rw [heq] at hrunning'
        cases hrunning'
      · rw [heq]
        exact ⟨s.returned, _, hcalls, _, rfl, Or.inr ⟨rfl, hid, hmasterOff⟩⟩
    | onNewPwrMeasurement buf =>
      obtain ⟨rfl, rfl⟩ := hcall.isCallOf
      simp only [runCallback, Application.runNewPwrMeasurement] at hrun
      cases hreaction : onNewPwrMeasurement s.thresholds (s.content (some e)) with
      | post color level =>
        rw [hreaction] at hrun
        simp only [Option.map_eq_some_iff] at hrun
        obtain ⟨r, -, rfl⟩ := hrun
        cases hrunning'
      | switchAllOff =>
        rw [hreaction] at hrun
        obtain rfl := Option.some.inj hrun
        refine ⟨s.returned, _, hcalls, s.clients.state.pump.data e, rfl, Or.inl ⟨rfl, ?_, ?_⟩⟩
        · exact hv.id_of_powerCheck hcall.lt hcall.entry
        · unfold onNewPwrMeasurement at hreaction
          dsimp only at hreaction
          split_ifs at hreaction with hlow
          exact hlow
    | distributing d dataPtr =>
      rw [runCallback_distributing] at hrun
      cases (distribute_running hrun).symm.trans hrunning'
  | dispatch _ _ hdispatch => exact absurd hrunning' (dispatchNext_running hdispatch)
  | client b clients hb hclients =>
    obtain ⟨hframe, -⟩ := clientStep_frame h.delivery hb hclients
    obtain ⟨before, call, hcalls, hoffs⟩ := hoff hrunning'
    exact ⟨before, call, hframe.calls.trans hcalls, hoffs⟩
  | onLateInitTimer => exact absurd rfl ha

end Inv

end Powerboard.Application
