import Powerboard.Application.ApplicationTheorems

/-!
# The registration of `buck.c`

The callback of `buck.c` is registered while the board runs. From then on the pump goes on as if the
callback had been registered from the beginning: all that is different are the calls of it that were
not made. So beside a run goes the history of calls in which these are added, its shadow.
-/

namespace Powerboard.Application

open Machine MsgPump GenericProtocol PowerCheck SystemInitializer

/-! ## Other histories -/

/-- The state with another history of calls. -/
def App.withCalls (s : App) (calls : List Call) : App :=
  { s with clients := { s.clients with calls := calls } }

/-- The state with another history, and with another state of `buck.c`. -/
def App.withBuck (s : App) (calls : List Call) (buck : Buck) (lateInitTimer : Bool) (missed : ℕ) :
    App :=
  { s with
    clients := { s.clients with calls := calls }
    buck := buck
    lateInitTimer := lateInitTimer
    missed := missed }

section Histories
variable {layout : Layout firmware} {levelOffset : ℤ} {s s' : App} {memory : Memory} {pc : AppPc}

/-- No client looks at the calls; -/
lemma clientStep_calls (c : Clients) {a : ClientAction} (ha : a ≠ .dispatch) (calls : List Call) :
    clientStep firmware { c with calls := calls } a =
      (clientStep firmware c a).map fun c' => { c' with calls := calls } := by
  have hpost (c : Clients) (message : MsgId × List UInt8) (r : Bool × Pump) :
      Clients.post { c with calls := calls } message r =
        { c.post message r with calls := calls } := by
    unfold Clients.post
    split <;> rfl
  cases a with
  | dispatch => exact absurd rfl ha
  | postOwn id ptr =>
    simp only [clientStep]
    split
    · rfl
    · split_ifs
      · rfl
      · split
        · rw [hpost, Option.map_some]
        · rfl
  | postReserved e =>
    simp only [clientStep]
    split
    · rfl
    · split_ifs
      · split
        · simp only [hpost, Option.map_some]
        · rfl
      · rfl
  | getFreeBuffer id =>
    simp only [clientStep]
    split <;> rfl
  | write e content | release e | unlock e =>
    simp only [clientStep]
    split_ifs <;> rfl
  | lock e =>
    simp only [clientStep]
    split <;> rfl

lemma postOwn_calls (c : Clients) (id : MsgId) (ptr : Pointer) (calls : List Call) :
    postOwn { c with calls := calls } id ptr =
      (postOwn c id ptr).map fun r => (r.1, { r.2 with calls := calls }) := by
  unfold postOwn
  cases firmware.messageBuffers id with
  | none => rfl
  | some d =>
    simp only [Option.bind_some]
    split
    · rename_i r hr
      simp only [Option.map_some]
      unfold Clients.post
      split <;> rfl
    · rfl

/-- and no callback that runs, nor at what `buck.c` has. -/
lemma runCallback_withBuck (layout : Layout firmware) (levelOffset : ℤ) (s : App) (memory : Memory)
    (pc : AppPc) (calls : List Call) (buck : Buck) (lateInitTimer : Bool) (missed : ℕ) :
    runCallback layout levelOffset (s.withBuck calls buck lateInitTimer missed) memory pc =
      (runCallback layout levelOffset s memory pc).map
        (·.withBuck calls buck lateInitTimer missed) := by
  cases pc with
  | switchedOff | msgCallback => rfl
  | receivedPacket id buffer =>
    simp only [runCallback, runReceivedPacket, Option.map_some]
    have hcontent : (s.withBuck calls buck lateInitTimer missed).content buffer =
      s.content buffer := rfl
    rw [hcontent]
    split
    · unfold callEndpoint
      split_ifs <;> rfl
    · rfl
  | onNewPwrMeasurement buf =>
    have hcontent : (s.withBuck calls buck lateInitTimer missed).content buf = s.content buf := rfl
    simp only [runCallback, runNewPwrMeasurement, hcontent]
    have hthresholds : (s.withBuck calls buck lateInitTimer missed).thresholds = s.thresholds := rfl
    rw [hthresholds]
    cases onNewPwrMeasurement s.thresholds (s.content buf) with
    | switchAllOff => rfl
    | post color level =>
      simp only [App.withBuck, postOwn_calls, Option.map_map]
      rfl
  | distributing d dataPtr =>
    rw [runCallback_distributing, runCallback_distributing]
    unfold distribute
    have hcounter : (s.withBuck calls buck lateInitTimer missed).counter = s.counter := rfl
    simp only [hcounter]
    split_ifs
    · cases dataPtr with
      | none => rfl
      | some e =>
        simp only [Option.bind_some, App.withBuck, postOwn_calls, Option.map_map]
        rfl
    · rfl

/-- So a callback that runs changes neither. -/
lemma runCallback_buck (h : runCallback layout levelOffset s memory pc = some s') :
    s' = s'.withBuck s.clients.calls s.buck s.lateInitTimer s.missed := by
  have hsame := runCallback_withBuck layout levelOffset s memory pc s.clients.calls s.buck
    s.lateInitTimer s.missed
  rw [h, Option.map_some] at hsame
  exact Option.some.inj (h.symm.trans hsame)

end Histories

/-! ## The calls of other callbacks -/

section Others
variable {v v' : MsgId → ℕ → Option Callback} {calls calls' : List Call}

/-- The calls but for those of the callback of `buck.c`. -/
def othersOf (calls : List Call) : List Call :=
  calls.filter fun call => call.callback ≠ onRelativeBatteryVoltageAddress

lemma othersOf_append (calls calls' : List Call) :
    othersOf (calls ++ calls') = othersOf calls ++ othersOf calls' :=
  List.filter_append calls calls'

lemma othersOf_singleton {call : Call} (h : call.callback ≠ onRelativeBatteryVoltageAddress) :
    othersOf [call] = [call] := by
  simp [othersOf, h]

lemma givenTo_othersOf (calls : List Call) (id : MsgId) {callback : Callback}
    (h : callback ≠ onRelativeBatteryVoltageAddress) :
    givenTo (othersOf calls) id callback = givenTo calls id callback := by
  unfold givenTo othersOf
  rw [List.filterMap_filter]
  refine List.filterMap_congr fun call _ => ?_
  by_cases hcallback : call.callback = callback
  · simp [hcallback, h]
  · simp [hcallback]

lemma flatMap_framesOf_othersOf (calls : List Call) :
    (othersOf calls).flatMap framesOf = calls.flatMap framesOf := by
  induction calls with
  | nil => rfl
  | cons call rest ih =>
    rw [← List.singleton_append, othersOf_append, List.flatMap_append, List.flatMap_append, ih]
    by_cases h : call.callback = onRelativeBatteryVoltageAddress
    · have hframes : framesOf call = [] := framesOf_other (by rw [h]; decide)
      simp [othersOf, h, hframes]
    · rw [othersOf_singleton h]

lemma Distributor.address_ne_buck (d : Distributor) :
    d.address ≠ onRelativeBatteryVoltageAddress := by
  cases d <;> decide

/-- What the callbacks of a power state have left depends on no other calls. -/
lemma History.of_others {s : App} (h : History calls s) (hothers : othersOf calls = othersOf calls') :
    History calls' s := by
  have hgiven (id : MsgId) {callback : Callback} (hne : callback ≠ onRelativeBatteryVoltageAddress) :
      givenTo calls' id callback = givenTo calls id callback := by
    rw [← givenTo_othersOf calls' id hne, ← hothers, givenTo_othersOf calls id hne]
  refine ⟨fun d => ?_, fun d => ?_, h.sendState, ?_, h.above, ?_⟩
  · rw [hgiven _ d.address_ne_buck]
    exact h.counter d
  · rw [hgiven _ d.address_ne_buck]
    exact h.offered d
  · rw [← flatMap_framesOf_othersOf calls', ← hothers, flatMap_framesOf_othersOf]
    exact h.sent
  · rw [hgiven _ (by decide)]
    exact h.passed

/-- One callback vector has in addition the callback of `buck.c`, in empty entries. -/
def AddsBuck (v v' : MsgId → ℕ → Option Callback) : Prop :=
  ∀ id i, v' id i = v id i ∨ v id i = none ∧ v' id i = some onRelativeBatteryVoltageAddress

lemma AddsBuck.othersOf_callsFor (h : AddsBuck v v') (n : ℕ) (message : MsgId × List UInt8) :
    othersOf (callsFor v' n message) = othersOf (callsFor v n message) := by
  unfold othersOf callsFor
  rw [List.filter_filterMap, List.filter_filterMap]
  refine List.filterMap_congr fun i _ => ?_
  rcases h message.1 i with heq | ⟨hnone, hsome⟩
  · rw [heq]
  · simp [hnone, hsome]

lemma AddsBuck.othersOf_callsOfFront (h : AddsBuck v v') (s : PumpState) :
    othersOf (s.callsOfFront v') = othersOf (s.callsOfFront v) := by
  unfold PumpState.callsOfFront
  split
  · exact h.othersOf_callsFor _ _
  · exact h.othersOf_callsFor _ _
  · rfl

lemma othersOf_flatMap (messages : List (MsgId × List UInt8))
    (f : MsgId × List UInt8 → List Call) :
    othersOf (messages.flatMap f) = messages.flatMap fun message => othersOf (f message) :=
  List.filter_flatMap

/-- The two histories of what has returned differ in no other calls. -/
lemma othersOf_returned {s : App} (hothers : othersOf s.clients.calls = othersOf calls)
    (hlast : s.running.isSome → s.clients.calls.getLast? = calls.getLast?) :
    othersOf s.returned = othersOf (s.withCalls calls).returned := by
  unfold App.returned
  by_cases hrunning : s.running.isSome
  · have hrunning' : (s.withCalls calls).running.isSome := hrunning
    rw [if_pos hrunning, if_pos hrunning']
    have hcalls' : (s.withCalls calls).clients.calls = calls := rfl
    rw [hcalls']
    cases hcall : s.clients.calls.getLast? with
    | none =>
      have hnil' := (hlast hrunning).symm.trans hcall
      rw [List.getLast?_eq_none_iff] at hcall hnil'
      rw [hcall, hnil']
    | some call =>
      have hcall' := (hlast hrunning).symm.trans hcall
      rw [← List.dropLast_append_getLast? call hcall, ← List.dropLast_append_getLast? call hcall',
        othersOf_append, othersOf_append, List.append_cancel_right_eq] at hothers
      exact hothers
  · have hrunning' : ¬ (s.withCalls calls).running.isSome := hrunning
    rw [if_neg hrunning, if_neg hrunning']
    exact hothers

end Others

/-! ## A callback more -/

section Adds
variable {v v' : MsgId → ℕ → Option Callback} {s : App}

/-- The delivery of the message pump with the callback more, as if it had always been there. -/
lemma deliveryInv_addsBuck {c : Clients} (h : DeliveryInv firmware v c) (hadds : AddsBuck v v') :
    ∃ calls, othersOf c.calls = othersOf calls ∧ DeliveryInv firmware v'
      { c with
        state := { c.state with pump := { c.state.pump with callbackVector := v' } }
        calls := calls } := by
  obtain ⟨delivered, hposted, hcalls⟩ := h.history
  refine ⟨delivered.flatMap (callsFor v' maxReceivers) ++ c.state.callsOfFront v', ?_, ?_⟩
  · simp only [hcalls, othersOf_append, othersOf_flatMap, hadds.othersOf_callsFor,
      hadds.othersOf_callsOfFront]
  · have hring : SameRing c.state.pump { c.state.pump with callbackVector := v' } :=
      ⟨rfl, rfl, rfl, rfl⟩
    exact ⟨h.wellFormed.of_sameRing hring, rfl, h.buffers, h.nodup, h.refCnt, h.magic, h.usable,
      h.reserved, delivered, hposted, rfl⟩

/-- The same for the invariant of the callbacks. -/
lemma AppInv.addsBuck (h : AppInv v s) (hadds : AddsBuck v v') (lateInitTimer : Bool) (missed : ℕ) :
    ∃ calls, othersOf s.clients.calls = othersOf calls ∧
      (s.running.isSome → s.clients.calls.getLast? = calls.getLast?) ∧
      AppInv v'
        { s with
          clients :=
            { s.clients with
              state :=
                { s.clients.state with
                  pump := { s.clients.state.pump with callbackVector := v' } }
              calls := calls }
          lateInitTimer := lateInitTimer
          missed := missed } := by
  obtain ⟨calls, hothers, hdelivery⟩ := deliveryInv_addsBuck h.delivery hadds
  have hentry {id : MsgId} {i : ℕ} {callback : Callback} (hsome : v id i = some callback) :
      v' id i = some callback := by
    rcases hadds id i with heq | ⟨hnone, -⟩
    · exact heq.trans hsome
    · cases hnone.symm.trans hsome
  have hlast (hrunning : s.running.isSome) : s.clients.calls.getLast? = calls.getLast? := by
    obtain ⟨pc, hpc⟩ := Option.isSome_iff_exists.mp hrunning
    obtain ⟨i, e, callback, hcall⟩ := h.running pc hpc
    obtain ⟨rest, hheld⟩ := hcall.held
    obtain ⟨before, hbefore⟩ := last_call h.delivery hcall.loop hheld hcall.entry
    obtain ⟨before', hbefore'⟩ := last_call hdelivery hcall.loop hheld (hentry hcall.entry)
    dsimp only at hbefore'
    rw [hbefore, hbefore', List.getLast?_concat, List.getLast?_concat]
  refine ⟨calls, hothers, hlast, hdelivery, ?_, ?_, h.accepted⟩
  · intro pc hpc
    obtain ⟨i, e, callback, hcall⟩ := h.running pc hpc
    exact ⟨i, e, callback, hcall.loop, hcall.held, hcall.lt, hentry hcall.entry, hcall.isCallOf⟩
  · exact (h.history.of_others (othersOf_returned hothers hlast)).congr rfl rfl rfl rfl rfl

lemma addsBuck_setCallback {p : Pump} {i : ℕ}
    (hfree : p.callbackVector msgIdRelativeBatteryVoltage i = none) :
    AddsBuck p.callbackVector (p.setCallback msgIdRelativeBatteryVoltage i
      (some onRelativeBatteryVoltageAddress)).callbackVector := by
  intro id k
  by_cases hid : id = msgIdRelativeBatteryVoltage
  · subst hid
    rw [setCallback_callbackVector_self]
    by_cases hk : k = i
    · subst hk
      exact Or.inr ⟨hfree, Function.update_self ..⟩
    · exact Or.inl (Function.update_of_ne hk _ _)
  · exact Or.inl (congrFun (setCallback_callbackVector_of_ne hid i _) k)

/-- The callbacks before the registration have an empty entry, and the first one is filled. -/
lemma FirmwareCallbacks.registers {p : Pump} (h : FirmwareCallbacks p.callbackVector true) :
    ∃ v', registerOnMessage firmware p msgIdRelativeBatteryVoltage
        (some onRelativeBatteryVoltageAddress) = .ok (true, { p with callbackVector := v' }) ∧
      AddsBuck p.callbackVector v' ∧ FirmwareCallbacks v' false := by
  have hknown : lateRegistration ∈ SystemInitializer.known := List.mem_cons_self
  have hnot (i : ℕ) (hi : i < maxReceivers) : p.callbackVector msgIdRelativeBatteryVoltage i ≠
      some onRelativeBatteryVoltageAddress := by
    intro hentry
    cases h.late.mp ⟨i, hi, hentry⟩
  obtain ⟨d, hd⟩ := firmware_known hknown
  obtain ⟨r, hr⟩ : ∃ r, registerOnMessage firmware p msgIdRelativeBatteryVoltage
    (some onRelativeBatteryVoltageAddress) = .ok r := registerOnMessage_isOk hd
  cases registerOnMessage_outcome hr with
  | undeclared hnone => cases hnone.symm.trans hd
  | already hregistered =>
    obtain ⟨i, hi, hentry⟩ := hregistered
    exact absurd hentry (hnot i hi)
  | noRoom hfull =>
    obtain ⟨i, hi, hempty⟩ := exists_empty_known h.differ
      (fun callback ⟨i, hi, hentry⟩ => h.known _ i callback hi hentry) hknown
    exact absurd hempty (hfull i hi).1
  | added d' i hd' hi hfree hbefore =>
    refine ⟨(p.setCallback msgIdRelativeBatteryVoltage i
      (some onRelativeBatteryVoltageAddress)).callbackVector, hr, addsBuck_setCallback hfree, ?_, ?_,
      callbacksDiffer_added h.differ hnot, added_of_some hfree h.powerCheckFirst,
      iff_of_true (registered_added hi) rfl⟩
    · intro r hr
      obtain ⟨k, hk, hentry⟩ := h.registered r hr
      exact ⟨k, hk, added_of_some hfree hentry⟩
    · intro id k callback hk hentry
      rcases some_of_added hentry with hentry | ⟨rfl, -, rfl⟩
      · exact h.known id k callback hk hentry
      · exact hknown

end Adds

/-! ## The shadow -/

/-- With this history of calls the state is one in which the callbacks have never changed. -/
structure Shadow (v : MsgId → ℕ → Option Callback) (s : App) (calls : List Call) : Prop where
  inv : AppInv v (s.withCalls calls)
  off : OffForReason (s.withCalls calls)
  others : othersOf s.clients.calls = othersOf calls
  last : s.running.isSome → s.clients.calls.getLast? = calls.getLast?
  /-- the callback of `buck.c` was not called for the first levels -/
  missed : ∃ early, early.length = s.missed ∧
    givenTo calls msgIdRelativeBatteryVoltage onRelativeBatteryVoltageAddress =
      early ++ s.given msgIdRelativeBatteryVoltage onRelativeBatteryVoltageAddress
  buck : s.buck.enableSwitcher = true ↔
    ∃ content ∈ s.given msgIdRelativeBatteryVoltage onRelativeBatteryVoltageAddress,
      0 < content.getD 0 0

/-- A step with the call that it makes, in any history. -/
structure Adds (layout : Layout firmware) (levelOffset : ℤ) (s : App) (a : AppAction) (s' : App)
    (new : Option Call) : Prop where
  calls : s'.clients.calls = s.clients.calls ++ new.toList
  step : ∀ calls, appStep layout levelOffset (s.withCalls calls) a =
    some (s'.withCalls (calls ++ new.toList))
  missed : s'.missed = s.missed
  lateInitTimer : s'.lateInitTimer = s.lateInitTimer
  noCall : new = none → (s'.running.isSome → s.running.isSome) ∧ s'.buck = s.buck
  call : ∀ call, new = some call → ∃ state,
    MsgPump.dispatch s.clients.state = .ok (state, some call) ∧
      s'.buck = if call.callback = onRelativeBatteryVoltageAddress then
        onRelativeBatteryVoltage s.buck
          (((s.clients.state.pump.msgQueue s.clients.state.pump.msgQueueFront).buffer.map
            state.pump.data).getD [])
        else s.buck

section Shadow
variable {v : MsgId → ℕ → Option Callback} {lateInitTimer : Bool} {layout : Layout firmware}
  {levelOffset : ℤ} {s s' : App} {calls : List Call} {a : AppAction}

lemma adds_run {memory : Memory} {pc : AppPc} (hrunning : s.running = some pc)
    (hrun : runCallback layout levelOffset s memory pc = some s') :
    Adds layout levelOffset s (.run memory) s' none := by
  have hsame := runCallback_buck hrun
  refine ⟨?_, fun calls => ?_, ?_, ?_, fun _ => ⟨fun _ => by rw [hrunning]; rfl, ?_⟩, ?_⟩
  · rw [hsame]
    exact (List.append_nil _).symm
  · have hwith := runCallback_withBuck layout levelOffset s memory pc calls s.buck s.lateInitTimer
      s.missed
    rw [hrun, Option.map_some] at hwith
    have hrunning' : (s.withCalls calls).running = some pc := hrunning
    simp only [appStep, hrunning', Option.bind_some, Option.toList_none, List.append_nil]
    refine hwith.trans ?_
    rw [hsame]
    rfl
  · rw [hsame]
    rfl
  · rw [hsame]
    rfl
  · rw [hsame]
    rfl
  · intro call hcall
    cases hcall

lemma adds_client {b : ClientAction} {clients : Clients} (hb : b ≠ .dispatch)
    (hclients : clientStep firmware s.clients b = some clients) :
    Adds layout levelOffset s (.client b) { s with clients := clients } none := by
  have hwith (calls : List Call) : clientStep firmware { s.clients with calls := calls } b =
      some { clients with calls := calls } := by
    rw [clientStep_calls s.clients hb, hclients, Option.map_some]
  have hcalls : clients = { clients with calls := s.clients.calls } :=
    Option.some.inj (hclients.symm.trans (hwith s.clients.calls))
  refine ⟨?_, fun calls => ?_, rfl, rfl, fun _ => ⟨fun h => h, rfl⟩, ?_⟩
  · show clients.calls = s.clients.calls ++ []
    rw [hcalls, List.append_nil]
  · cases b with
    | dispatch => exact absurd rfl hb
    | _ =>
      simp only [appStep, App.withCalls, hwith, Option.map_some, Option.toList_none, List.append_nil]
  · intro call hcall
    cases hcall

lemma called_withCalls (s : App) (dataPtr : Option Elem) (call : Call) (calls : List Call) :
    called (s.withCalls calls) dataPtr call = (called s dataPtr call).withCalls calls := by
  unfold called
  split_ifs <;> rfl

/-- What a call changes by itself. -/
lemma called_frame (s : App) (dataPtr : Option Elem) (call : Call) :
    (called s dataPtr call).clients.calls = s.clients.calls ∧
      (called s dataPtr call).missed = s.missed ∧
      (called s dataPtr call).lateInitTimer = s.lateInitTimer ∧
      (called s dataPtr call).buck =
        if call.callback = onRelativeBatteryVoltageAddress then
          onRelativeBatteryVoltage s.buck (s.content dataPtr)
        else s.buck := by
  unfold called
  split_ifs <;> exact ⟨rfl, rfl, rfl, rfl⟩

lemma adds_dispatch (hstep : dispatchNext s = some s') :
    ∃ new, Adds layout levelOffset s .dispatch s' new := by
  unfold dispatchNext at hstep
  split_ifs at hstep with hbusy
  have hbusy' (calls : List Call) : ¬ (s.withCalls calls).running.isSome := hbusy
  split at hstep
  · rename_i state hdispatch
    obtain rfl := Option.some.inj hstep
    refine ⟨none, (List.append_nil _).symm, fun calls => ?_, rfl, rfl, fun _ => ⟨fun h => h, rfl⟩, ?_⟩
    · have hdispatch' : MsgPump.dispatch (s.withCalls calls).clients.state = .ok (state, none) :=
        hdispatch
      simp only [appStep, dispatchNext, if_neg (hbusy' calls), hdispatch', Option.toList_none,
        List.append_nil]
      rfl
    · intro call hcall
      cases hcall
  · rename_i state call hdispatch
    obtain rfl := Option.some.inj hstep
    obtain ⟨hcalls, hmissed, hlate, hbuck⟩ := called_frame
      { s with clients := { s.clients with state := state, calls := s.clients.calls ++ [call] } }
      (s.clients.state.pump.msgQueue s.clients.state.pump.msgQueueFront).buffer call
    refine ⟨some call, hcalls, fun calls => ?_, hmissed, hlate, ?_, ?_⟩
    · have hdispatch' : MsgPump.dispatch (s.withCalls calls).clients.state =
        .ok (state, some call) := hdispatch
      simp only [appStep, dispatchNext, if_neg (hbusy' calls), hdispatch', ← called_withCalls]
      rfl
    · intro hnone
      cases hnone
    · intro call' hcall'
      obtain rfl := Option.some.inj hcall'
      exact ⟨state, hdispatch, hbuck⟩
  · cases hstep

lemma exists_adds (hstep : appStep layout levelOffset s a = some s') (ha : a ≠ .onLateInitTimer) :
    ∃ new, Adds layout levelOffset s a s' new := by
  cases appMoves_of_step hstep with
  | run memory pc _ hrunning hrun => exact ⟨none, adds_run hrunning hrun⟩
  | dispatch _ _ hdispatch => exact adds_dispatch hdispatch
  | client b clients hb hclients => exact ⟨none, adds_client hb hclients⟩
  | onLateInitTimer => exact absurd rfl ha

/-- The converter is enabled by the first level above 0 that it gets. -/
lemma Shadow.buck_call (h : Shadow v s calls) (hv : FirmwareCallbacks v lateInitTimer) {call : Call}
    {state : PumpState} (hdispatch : MsgPump.dispatch s.clients.state = .ok (state, some call))
    (hcalls : s'.clients.calls = s.clients.calls ++ [call])
    (hbuck : s'.buck = if call.callback = onRelativeBatteryVoltageAddress then
      onRelativeBatteryVoltage s.buck
        (((s.clients.state.pump.msgQueue s.clients.state.pump.msgQueueFront).buffer.map
          state.pump.data).getD [])
      else s.buck) :
    s'.buck.enableSwitcher = true ↔
      ∃ content ∈ s'.given msgIdRelativeBatteryVoltage onRelativeBatteryVoltageAddress,
        0 < content.getD 0 0 := by
  obtain ⟨r, hdispatch', hr⟩ := dispatch_outcome h.inv.delivery.wellFormed
  obtain rfl := Except.ok.inj (hdispatch'.symm.trans hdispatch)
  obtain ⟨i, e, rest, hi, hentry, hid, hcontent, hptr, hstate, -⟩ := call_outcome h.inv.delivery hr rfl
  have hptr' : (s.clients.state.pump.msgQueue s.clients.state.pump.msgQueueFront).buffer = some e :=
    hptr
  have hstate' : state = { s.clients.state with pc := .calling (i + 1) } := hstate
  have hdata : call.content = some (state.pump.data e) := by
    rw [hcontent, hstate']
    rfl
  have hbefore := h.buck
  rw [hbuck, App.given, hcalls, givenTo_append, givenTo_singleton]
  by_cases hcallback : call.callback = onRelativeBatteryVoltageAddress
  · have hrelative : call.id = msgIdRelativeBatteryVoltage :=
      hid.trans (hv.id_of_buck hi (hcallback ▸ hentry))
    rw [if_pos hcallback, if_pos ⟨hrelative, hcallback⟩, hdata, hptr', Option.map_some,
      Option.getD_some, Option.toList_some]
    simp only [List.mem_append, List.mem_singleton, or_and_right, exists_or, exists_eq_left]
    rw [App.given] at hbefore
    rw [← hbefore]
    unfold onRelativeBatteryVoltage
    dsimp only
    split_ifs with hpos
    · exact iff_of_true rfl (Or.inr hpos)
    · exact (or_iff_left hpos).symm
  · rw [if_neg hcallback, if_neg fun hboth => hcallback hboth.2, List.append_nil]
    exact hbefore

/-- It goes along with every step but the registration. -/
lemma Shadow.step (h : Shadow v s calls) (hv : FirmwareCallbacks v lateInitTimer)
    (hlevel : LevelOutside levelOffset) (ha : a ≠ .onLateInitTimer) {new : Option Call}
    (hadds : Adds layout levelOffset s a s' new) : Shadow v s' (calls ++ new.toList) := by
  refine ⟨h.inv.step hv hlevel ha (hadds.step calls),
    h.inv.offForReason hv ha (hadds.step calls) h.off, ?_, fun hrunning => ?_, ?_, ?_⟩
  · rw [hadds.calls, othersOf_append, othersOf_append, h.others]
  · rw [hadds.calls]
    cases hnew : new with
    | none =>
      simp only [Option.toList_none, List.append_nil]
      exact h.last ((hadds.noCall hnew).1 hrunning)
    | some call =>
      simp only [Option.toList_some, List.getLast?_concat]
  · obtain ⟨early, hlength, hgiven⟩ := h.missed
    refine ⟨early, hlength.trans hadds.missed.symm, ?_⟩
    rw [App.given, hadds.calls, givenTo_append, givenTo_append, hgiven, List.append_assoc]
    rfl
  · cases hnew : new with
    | none =>
      rw [(hadds.noCall hnew).2, App.given, hadds.calls, hnew, Option.toList_none, List.append_nil]
      exact h.buck
    | some call =>
      obtain ⟨state, hdispatch, hbuck⟩ := hadds.call call hnew
      exact h.buck_call hv hdispatch (by rw [hadds.calls, hnew, Option.toList_some]) hbuck

/-- Without its registration the callback of `buck.c` gets nothing. -/
lemma Shadow.given_of_late (h : Shadow v s calls) (hv : FirmwareCallbacks v true) :
    s.given msgIdRelativeBatteryVoltage onRelativeBatteryVoltageAddress = [] := by
  obtain ⟨early, -, hgiven⟩ := h.missed
  refine List.eq_nil_iff_forall_not_mem.mpr fun content hcontent => ?_
  have hentry := (posted_of_given h.inv.delivery (hgiven ▸ List.mem_append_right early hcontent)).2
  cases hv.late.mp hentry

/-- The registration begins another one. -/
lemma Shadow.register (h : Shadow v s calls) (hv : FirmwareCallbacks v true)
    (hstep : onLateInitTimer s = some s') :
    ∃ v' calls', FirmwareCallbacks v' false ∧ Shadow v' s' calls' ∧ s'.lateInitTimer = false := by
  have hvector : s.clients.state.pump.callbackVector = v := h.inv.delivery.callbacks
  subst hvector
  obtain ⟨v', hregister, hgrown, hv'⟩ := hv.registers
  unfold onLateInitTimer at hstep
  rw [hregister] at hstep
  obtain rfl := Option.some.inj hstep
  obtain ⟨calls', hothers, hlast, hinv⟩ := h.inv.addsBuck hgrown false
    ((contentsOf s.clients.posted msgIdRelativeBatteryVoltage).length -
      (ahead { s.clients.state with pump := { s.clients.state.pump with callbackVector := v' } }
        msgIdRelativeBatteryVoltage onRelativeBatteryVoltageAddress).length)
  obtain ⟨k, hk⟩ := hv'.oneEntry_buck
  have hahead := congrArg List.length (given_append_ahead hinv.delivery hk)
  rw [List.length_append, List.length_map] at hahead
  have hnone := h.given_of_late hv
  refine ⟨v', calls', hv', ⟨hinv, ?_, h.others.trans hothers, fun hrunning => ?_,
    ⟨_, Nat.eq_sub_of_add_eq hahead, ?_⟩, h.buck⟩, rfl⟩
  · intro hoff
    obtain ⟨before, call, hcalls, hswitches⟩ := h.off hoff
    have hrunning : (s.withCalls calls).running.isSome := by
      rw [show (s.withCalls calls).running = some .switchedOff from hoff]
      rfl
    have hcall := hlast hrunning
    rw [hcalls, List.getLast?_concat] at hcall
    obtain ⟨before', hbefore'⟩ := List.getLast?_eq_some_iff.mp hcall.symm
    exact ⟨before', call, hbefore', hswitches⟩
  · exact (h.last hrunning).trans (hlast hrunning)
  · have hnone' : givenTo s.clients.calls msgIdRelativeBatteryVoltage
      onRelativeBatteryVoltageAddress = [] := hnone
    simp [App.given, Clients.setPump, hnone']

/-! ## What is read off it -/

lemma Shadow.given_eq (h : Shadow v s calls) (id : MsgId) {callback : Callback}
    (hne : callback ≠ onRelativeBatteryVoltageAddress) :
    s.given id callback = (s.withCalls calls).given id callback := by
  have hothers := congrArg (givenTo · id callback) h.others
  rw [givenTo_othersOf _ _ hne, givenTo_othersOf _ _ hne] at hothers
  exact hothers

lemma Shadow.distributed (h : Shadow v s calls) (hv : FirmwareCallbacks v lateInitTimer) :
    Distributed s := by
  have hsame := h.inv.distributed hv
  have hreturned := othersOf_returned h.others h.last
  have hmsgCallback : MsgProxy.msgCallback ≠ onRelativeBatteryVoltageAddress := by decide
  refine ⟨fun d => ?_, fun d => ?_, fun d => ?_, hsame.accepted, fun d => ?_, fun d => ?_, ?_⟩
  · rw [h.given_eq _ d.address_ne_buck]
    exact hsame.given d
  · rw [h.given_eq _ d.address_ne_buck]
    exact hsame.missing d
  · rw [← givenTo_othersOf _ _ d.address_ne_buck, hreturned, givenTo_othersOf _ _ d.address_ne_buck]
    exact hsame.offered d
  · rw [h.given_eq _ hmsgCallback]
    exact hsame.forwarded d
  · rw [h.given_eq _ hmsgCallback]
    exact hsame.unsent d
  · rw [← flatMap_framesOf_othersOf, hreturned, flatMap_framesOf_othersOf]
    exact hsame.sent

lemma Shadow.checked (h : Shadow v s calls) (hv : FirmwareCallbacks v lateInitTimer) :
    Checked s := by
  have hsame := h.inv.checked hv
  refine ⟨?_, hsame.above, ?_⟩
  · rw [h.given_eq _ (by decide)]
    exact hsame.checked
  · rw [h.given_eq _ (by decide)]
    exact hsame.distributed

lemma Shadow.offForReason (h : Shadow v s calls) : OffForReason s := by
  intro hoff
  obtain ⟨before, call, hcalls, hswitches⟩ := h.off hoff
  have hcall := h.last (by rw [hoff]; rfl)
  have hcalls' : calls = before ++ [call] := hcalls
  rw [hcalls', List.getLast?_concat] at hcall
  obtain ⟨before', hbefore'⟩ := List.getLast?_eq_some_iff.mp hcall
  exact ⟨before', call, hbefore', hswitches⟩

/-- A callback that runs can go on, but for the endless loop. -/
lemma Shadow.goesOn (h : Shadow v s calls) (hv : FirmwareCallbacks v lateInitTimer)
    (hlevel : LevelOutside levelOffset) {pc : AppPc} (hrunning : s.running = some pc)
    (hpc : pc ≠ .switchedOff) (memory : Memory) :
    (appStep layout levelOffset s (.run memory)).isSome := by
  have hrunning' : (s.withCalls calls).running = some pc := hrunning
  obtain ⟨t, ht, -⟩ : ∃ t, runCallback layout levelOffset (s.withCalls calls) memory pc = some t ∧
    AppInv v t := h.inv.run hv hlevel hrunning' hpc
  have hwith := runCallback_withBuck layout levelOffset s memory pc calls s.buck s.lateInitTimer
    s.missed
  have hsome : ((runCallback layout levelOffset s memory pc).map
      (·.withBuck calls s.buck s.lateInitTimer s.missed)).isSome := by
    rw [← hwith]
    exact Option.isSome_of_eq_some ht
  rw [Option.isSome_map] at hsome
  simpa only [appStep, hrunning, Option.bind_some] using hsome

/-- With its registration it gets all levels but the first ones. -/
lemma Shadow.given_prefix (h : Shadow v s calls) (hv : FirmwareCallbacks v false) :
    s.given msgIdRelativeBatteryVoltage onRelativeBatteryVoltageAddress <+:
        (s.posted msgIdRelativeBatteryVoltage).drop s.missed ∧
      (s.clients.state.pump.msgQueueSize = 0 →
        s.given msgIdRelativeBatteryVoltage onRelativeBatteryVoltageAddress =
          (s.posted msgIdRelativeBatteryVoltage).drop s.missed) := by
  obtain ⟨k, hk⟩ := hv.oneEntry_buck
  obtain ⟨hbegins, hlength⟩ := given_of_delivery h.inv.delivery hk
  obtain ⟨early, hearly, hgiven⟩ := h.missed
  have hcalls : (s.withCalls calls).clients.calls = calls := rfl
  have hposted : contentsOf (s.withCalls calls).clients.posted msgIdRelativeBatteryVoltage =
    s.posted msgIdRelativeBatteryVoltage := rfl
  rw [hcalls, hgiven, hposted] at hbegins hlength
  refine ⟨?_, fun hsize => ?_⟩
  · have hdrop := hbegins.drop early.length
    rw [List.drop_left, hearly] at hdrop
    exact hdrop
  · have hsize' : (s.withCalls calls).clients.state.pump.msgQueueSize = 0 := hsize
    rw [hsize', Nat.add_zero] at hlength
    rw [← hearly, ← hbegins.eq_of_length_le hlength, List.drop_left]

end Shadow

end Powerboard.Application
