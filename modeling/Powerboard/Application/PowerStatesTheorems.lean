import Powerboard.Application.ApplicationTheorems
import Powerboard.Application.ConversionsTheorems
import Powerboard.Measuring.RoundTheorems

/-!
# What the power check sees was measured

Every run of `measuring.c` is one of clients that keep the rules of the message pump: what the DMA and
`onRawMeasurement` write to is reserved, and what is handed over is not written to any more. With the
delivery of the message pump, the power states can be followed from the samples to the callbacks.
-/

namespace Powerboard.Application

open Machine MsgPump Measuring

/-! ## The loop of the pump -/

section Loop
variable {v : MsgId → ℕ → Option Callback} {s s' : Measurements} {c c' : Clients} {e : Elem}
  {pc pc' : RawMeasurementPc} {i : ℕ} {dataAddress : MsgId → ℤ} {a : ClientAction}

/-- A calibration is given before every raw measurement. -/
lemma no_raw_before_calibration (h : DeliveryInv firmware v c) (hv : MeasuringCallbacks v)
    (hbefore : c.posted.Pairwise fun m m' => m.1 = msgIdVoltageRaw → m'.1 ≠ msgIdVoltageCalibration)
    (hpc : c.state.pc = .calling (i + 1)) {rest : List Elem} (hheld : c.state.held = e :: rest)
    (hi : i < maxReceivers) (hid : e.id = msgIdVoltageCalibration) :
    givenTo c.calls msgIdVoltageRaw onRawMeasurement = [] := by
  obtain ⟨k, hk⟩ := hv.raw
  obtain ⟨delivered, hposted, hcalls⟩ := h.history
  have hnot : ¬ ((c.state.pump.message e).1 = msgIdVoltageRaw ∧ k < i + 1) := by
    rintro ⟨hraw, -⟩
    exact absurd (hid.symm.trans hraw) (by decide)
  rw [hcalls, givenTo_append, givenTo_flatMap hk, callsOfFront_calling hpc hheld,
    givenTo_callsFor hk _ hi, if_neg hnot, List.append_nil]
  rw [hposted, hheld] at hbefore
  refine List.eq_nil_iff_forall_not_mem.mpr fun content hcontent => ?_
  obtain ⟨m, hm, hraw⟩ := List.mem_filterMap.mp hcontent
  split_ifs at hraw with hmid
  exact (List.pairwise_append.mp hbefore).2.2 m hm _ List.mem_cons_self hmid hid

/-- The loop takes nothing from measuring. -/
lemma Follows.dispatch (h : Follows v s c) {r : PumpState × Option Call}
    (hr : DispatchOutcome firmware c.state r)
    (hc' : c' = { c with state := r.1, calls := c.calls ++ r.2.toList })
    (globals : Measuring.Globals) (hstate : globals.state = r.1)
    (hcalls : globals.calls = s.globals.calls ++ r.2.toList)
    (hcur : globals.curBuffer = s.globals.curBuffer)
    (hdone : globals.calibrationMeasurementDone = s.globals.calibrationMeasurementDone)
    (hpowerState : globals.running.bind RawMeasurementPc.powerStatePtr = none)
    (hconverting : globals.converting = s.globals.converting)
    (hregistered : globals.timerRegistered = s.globals.timerRegistered) :
    Follows v { s with globals := globals } c' := by
  subst hc'
  refine ⟨h.delivery.dispatch hr, hstate.symm, ?_, h.locks, h.reserved, h.unlocked, ?_, ?_, ?_, ?_, ?_⟩
  · dsimp only
    rw [hcalls, h.calls]
  · dsimp only
    rw [hcur, hdone]
    exact h.curBuffer
  · intro e he
    cases hpowerState.symm.trans he
  · dsimp only
    rw [hcur, hconverting]
    exact h.converting
  · dsimp only
    rw [hcur, hdone, hregistered]
    exact h.calibrating
  · dsimp only
    rw [hcur, hdone, hregistered]
    intro hreg
    obtain ⟨hnone, hfalse, hbooks⟩ := h.fresh hreg
    exact ⟨hnone, hfalse, hbooks.dispatch hr⟩

/-- `onRawCalibMeasurement` changes the offsets, but no power state was made with the old ones. -/
lemma Histories.calibrate (hh : Histories v s c) (h : Follows v s c) (hv : MeasuringCallbacks v)
    (hrunning : s.globals.running = none) (hdelivery : DeliveryInv firmware v c')
    (hposted : c'.posted = c.posted) {call : Call} (hcalls : c'.calls = c.calls ++ [call])
    (hcallback : call.callback = onRawCalibMeasurement) (hi : i < maxReceivers)
    (hentry : v e.id i = some call.callback) (hid : call.id = e.id) {content : List UInt8}
    (hcontent : call.content = some content) (hloop : c'.state.pc = .calling (i + 1))
    {rest : List Elem} (hheld : c'.state.held = e :: rest) (s' : Measurements)
    (hconversions : s'.conversions = s.conversions)
    (hdone : s'.globals.calibrationMeasurementDone = s.globals.calibrationMeasurementDone)
    (hoffsets : s'.globals.offsetVoltages = smooth content)
    (hcalls' : s'.globals.calls = s.globals.calls ++ [call])
    (hrunning' : s'.globals.running = none) :
    Histories v s' c' ∧ (Kept s' c' ↔ Kept s c) := by
  have hid' : e.id = msgIdVoltageCalibration := hv.onlyCalibration e.id i hi (hcallback ▸ hentry)
  have hraw : call.callback ≠ onRawMeasurement := by
    rw [hcallback]
    decide
  have hgiven : givenTo c.calls msgIdVoltageRaw onRawMeasurement = [] := by
    have hnone := no_raw_before_calibration hdelivery hv (hposted ▸ hh.before) hloop hheld hi hid'
    rwa [hcalls, givenTo_other hraw] at hnone
  have hreturned : s.returned = c.calls := by
    rw [Measurements.returned, hrunning, Option.isSome_none, if_neg Bool.false_ne_true, h.calls]
  have hreturned' : givenTo s'.returned msgIdVoltageRaw onRawMeasurement =
      givenTo s.returned msgIdVoltageRaw onRawMeasurement := by
    rw [hreturned, Measurements.returned, hrunning', Option.isSome_none, if_neg Bool.false_ne_true,
      hcalls', ← h.calls]
    exact givenTo_other hraw _ _
  have hpowerStates := hh.powerStates
  rw [hreturned, hgiven, List.map_nil, List.sublist_nil] at hpowerStates
  refine ⟨⟨by rw [hdone, hconversions]; exact hh.begun, hposted ▸ hh.before, ?_, ?_, ?_, ?_, ?_⟩, ?_⟩
  · rw [hposted, hconversions]
    exact hh.calibration
  · rw [hposted, hconversions]
    exact hh.raw
  · rw [hoffsets, hcalls, givenTo_append, givenTo_singleton, if_pos ⟨hid.trans hid', hcallback⟩,
      hcontent, Option.toList_some, offsetsOf, List.getLast?_concat]
  · rw [hposted, hpowerStates]
    exact List.nil_sublist _
  · intro pc hpc
    cases hrunning'.symm.trans hpc
  · rw [Kept, Kept, hposted, hreturned', hconversions]

/-- A step of the loop of the pump, and the callback it calls. -/
theorem simulated_dispatch (h : Follows v s c) (hh : Histories v s c) (hv : MeasuringCallbacks v)
    {globals : Measuring.Globals} (hstep : dispatchStep s.globals = some globals) :
    Simulated v s c { s with globals := globals } True := by
  unfold dispatchStep at hstep
  split_ifs at hstep with hbusy
  have hrunning : s.globals.running = none := Option.not_isSome_iff_eq_none.mp hbusy
  obtain ⟨⟨state, call⟩, hdispatch, hr⟩ := dispatch_outcome h.delivery.wellFormed
  obtain ⟨c', hc'⟩ : ∃ c', c' = { c with state := state, calls := c.calls ++ call.toList } :=
    ⟨_, rfl⟩
  have hclient : clientStep firmware c .dispatch = some c' := by
    simp only [clientStep, hdispatch, hc']
  rw [← h.state, hdispatch] at hstep
  have hsimulated {s' : Measurements} (hfollows : Follows v s' c')
      (hhistories : Histories v s' c' ∧ (Kept s' c' ↔ Kept s c)) : Simulated v s c s' True :=
    ⟨[.dispatch], c', (exec_cons_eq_some _).mpr ⟨c', hclient, rfl⟩, ⟨hfollows, hhistories.1⟩,
      hhistories.2.trans (and_iff_left trivial).symm⟩
  have hposted : c'.posted = c.posted := by rw [hc']
  have hbegins : c.posted <+: c'.posted := by rw [hposted]
  have hsame : ∀ id, MeasuringMessage id → contentsOf c'.posted id = contentsOf c.posted id :=
    fun _ _ => by rw [hposted]
  cases call with
  | none =>
    obtain rfl := Option.some.inj hstep
    refine hsimulated (h.dispatch hr hc' _ rfl (List.append_nil _).symm rfl rfl ?_ rfl rfl)
      (hh.of_same _ hbegins hsame ?_ rfl rfl rfl rfl ?_)
    · simp [hrunning]
    · rw [hc', Option.toList_none, List.append_nil]
    · intro pc hpc
      cases hrunning.symm.trans hpc
  | some call =>
    obtain rfl := Option.some.inj hstep
    obtain ⟨i, e, rest, hi, hentry, hid, hcontent, hptr, hstate, hheld⟩ :=
      call_outcome h.delivery hr rfl
    have hcalls : c'.calls = c.calls ++ [call] := by rw [hc', Option.toList_some]
    have hloop : c'.state.pc = .calling (i + 1) := by
      rw [hc']
      exact congrArg PumpState.pc hstate
    have hheld' : c'.state.held = e :: rest := by
      rw [hc']
      exact hheld
    rw [hptr]
    unfold callback
    split_ifs with hraw hcalibration
    · -- the call is not counted before it returns
      refine hsimulated (h.dispatch hr hc' _ rfl rfl rfl rfl rfl rfl rfl)
        (hh.of_same _ hbegins hsame ?_ rfl rfl rfl ?_ ?_)
      · rw [hcalls]
        exact givenTo_other (by rw [hraw]; decide) _ _
      · simp only [Measurements.returned, Option.isSome_some, if_true, List.dropLast_concat, hrunning,
          Option.isSome_none, if_neg Bool.false_ne_true]
      · intro pc hpc
        obtain rfl := Option.some.inj hpc
        exact ⟨i, e, hloop, ⟨rest, hheld'⟩, hi, hraw ▸ hentry, rfl⟩
    · have hdata : state.pump.data e = c.state.pump.data e := by
        dsimp only at hstate
        rw [hstate]
      rw [← hdata] at hcontent
      rw [Option.map_some, Option.getD_some]
      refine hsimulated (h.dispatch hr hc' _ rfl rfl rfl rfl ?_ rfl rfl)
        (hh.calibrate h hv hrunning (h.delivery.step hclient) hposted hcalls hcalibration hi hentry hid
          hcontent hloop hheld' _ rfl rfl (by dsimp only) rfl hrunning)
      simp [hrunning]
    · refine hsimulated (h.dispatch hr hc' _ rfl rfl rfl rfl ?_ rfl rfl)
        (hh.of_same _ hbegins hsame ?_ rfl rfl rfl ?_ ?_)
      · simp [hrunning]
      · rw [hcalls]
        exact givenTo_other hcalibration _ _
      · simp only [Measurements.returned, hrunning, Option.isSome_none, if_neg Bool.false_ne_true]
        exact givenTo_other hraw _ _
      · intro pc hpc
        cases hrunning.symm.trans hpc

/-- Every step. -/
theorem simulated_step (h : Follows v s c) (hh : Histories v s c) (hv : MeasuringCallbacks v)
    {a : MeasurementAction} (hstep : measurementStep dataAddress s a = some s') :
    Simulated v s c s' (KeepsMessage s a) := by
  cases a with
  | client a =>
    simp only [measurementStep] at hstep
    split_ifs at hstep with ha
    obtain ⟨o, ho, rfl⟩ := Option.map_eq_some_iff.mp hstep
    exact simulated_client h hh hv ha ho rfl
  | measuring a =>
    simp only [measurementStep] at hstep
    split_ifs at hstep with ha
    obtain ⟨globals, hglobals, rfl⟩ := Option.map_eq_some_iff.mp hstep
    cases a with
    | triggerCalibration =>
      simp only [measuringStep] at hglobals
      split_ifs at hglobals with hreg
      simp only [samplesOf, List.append_nil]
      exact simulated_triggerCalibration h hh hv (Bool.not_eq_true _ ▸ hreg) hglobals
    | triggerMeasurement =>
      simp only [measuringStep] at hglobals
      split_ifs at hglobals with hreg
      simp only [samplesOf, List.append_nil]
      exact simulated_triggerMeasurement h hh hv hreg hglobals
    | dma1Ch1Isr samples =>
      simp only [measuringStep] at hglobals
      split_ifs at hglobals with hconv
      exact simulated_dma1Ch1Isr h hh hv hconv hglobals
    | runRawMeasurement =>
      obtain ⟨pc, hpc, hrun⟩ := Option.bind_eq_some_iff.mp hglobals
      simp only [samplesOf, List.append_nil]
      simp only [KeepsMessage, hpc]
      cases pc with
      | entered dataPtr => exact simulated_entered h hh hv hpc hrun
      | filling dataPtr q => exact simulated_filling h hh hpc hrun
      | posting q => exact simulated_posting h hh hv hpc hrun
    | dispatch =>
      simp only [samplesOf, List.append_nil]
      exact simulated_dispatch h hh hv hglobals
    | post | getFreeBuffer | lock | unlock => exact ha.elim

end Loop

/-! ## Every run -/

section Runs
variable {v : MsgId → ℕ → Option Callback} {data : Elem → List UInt8} {dataAddress : MsgId → ℤ}
  {s : Measurements} {c : Clients} {as : List MeasurementAction} {callback : Callback} {k : ℕ}

lemma follows_start (v : MsgId → ℕ → Option Callback) (data : Elem → List UInt8) :
    Follows v (measurementStart v data) (Clients.initial v data) := by
  refine ⟨deliveryInv_initial firmware v data, rfl, rfl, rfl, fun _ _ => rfl, fun _ _ => rfl, ?_, ?_,
    ?_, ?_, fun _ => ⟨rfl, rfl, account_initial v data⟩⟩
  all_goals simp [measurementStart, measuringStart]

lemma histories_start (v : MsgId → ℕ → Option Callback) (data : Elem → List UInt8) :
    Histories v (measurementStart v data) (Clients.initial v data) := by
  refine ⟨iff_of_true rfl rfl, List.Pairwise.nil, List.nil_sublist _, List.nil_sublist _, rfl,
    List.nil_sublist _, ?_⟩
  intro pc hpc
  cases hpc

/-- The clients of the pump follow every run. -/
theorem simulated_run (hv : MeasuringCallbacks v)
    (h : exec (measurementStep dataAddress) (measurementStart v data) as = some s) :
    ∃ bs c, exec (clientStep firmware) (Clients.initial v data) bs = some c ∧
      (Follows v s c ∧ Histories v s c) ∧
      (Kept s c ↔
        StepsMeet (measurementStep dataAddress) KeepsMessage (measurementStart v data) as) := by
  have hstep : ∀ s c a s', Follows v s c ∧ Histories v s c →
      measurementStep dataAddress s a = some s' → Simulated v s c s' (KeepsMessage s a) :=
    fun _ _ _ _ h hstep => simulated_step h.1 h.2 hv hstep
  obtain ⟨bs, c, hbs, hrelated, hkept⟩ := exec_simulation_iff hstep
    ⟨follows_start v data, histories_start v data⟩ h
  exact ⟨bs, c, hbs, hrelated, hkept.trans (and_iff_right rfl)⟩

/-- What the callback is given of the messages, and all of them when the queue is empty. -/
lemma given_of_drained (h : DeliveryInv firmware v c) {id : MsgId} (hentry : OneEntry v id callback k)
    (hsize : c.state.pump.msgQueueSize = 0) :
    givenTo c.calls id callback = contentsOf c.posted id := by
  obtain ⟨hbegins, hlength⟩ := given_of_delivery h hentry
  rw [hsize, Nat.add_zero] at hlength
  exact hbegins.eq_of_length (le_antisymm hbegins.length_le hlength)

lemma Histories.measured (hh : Histories v s c) (h : Follows v s c) (hv : MeasuringCallbacks v)
    (hentry : OneEntry v msgIdSystemPowerState callback k) : Measured s callback := by
  obtain ⟨j, hj⟩ := hv.calibration
  obtain ⟨l, hl⟩ := hv.raw
  have hreturned : (givenTo s.returned msgIdVoltageRaw onRawMeasurement).Sublist
      (givenTo c.calls msgIdVoltageRaw onRawMeasurement) := by
    rw [h.calls, Measurements.returned]
    split
    · exact (List.dropLast_sublist _).filterMap _
    · exact List.Sublist.refl _
  have hraw := (hreturned.trans (given_of_delivery h.delivery hl).1.sublist).trans hh.raw
  refine ⟨?_, ?_, ?_⟩
  · rw [Measurements.calibrations, ← h.calls]
    exact (given_of_delivery h.delivery hj).1.sublist.trans hh.calibration
  · rw [Measurements.calibrations, ← h.calls]
    exact hh.offsets
  · rw [← h.calls]
    refine ((given_of_delivery h.delivery hentry).1.sublist.trans hh.powerStates).trans ?_
    have hmap := hraw.map (powerStateOf s.globals.offsetVoltages)
    rw [List.map_map] at hmap
    exact hmap

/-- When all is delivered, everything has come exactly if nothing was lost. -/
lemma Histories.complete_iff (hh : Histories v s c) (h : Follows v s c) (hv : MeasuringCallbacks v)
    (hentry : OneEntry v msgIdSystemPowerState callback k) (hdrained : s.globals.Drained) :
    Complete s callback ↔ Kept s c := by
  obtain ⟨j, hj⟩ := hv.calibration
  obtain ⟨l, hl⟩ := hv.raw
  obtain ⟨hsize, hrunning⟩ := hdrained
  rw [← h.state] at hsize
  have hmeasured := hh.measured h hv hentry
  have hcalibrations : s.calibrations = contentsOf c.posted msgIdVoltageCalibration := by
    rw [Measurements.calibrations, ← h.calls]
    exact given_of_drained h.delivery hj hsize
  have hpowerStates : givenTo s.globals.calls msgIdSystemPowerState callback =
      contentsOf c.posted msgIdSystemPowerState := by
    rw [← h.calls]
    exact given_of_drained h.delivery hentry hsize
  have hraw : givenTo s.returned msgIdVoltageRaw onRawMeasurement =
      contentsOf c.posted msgIdVoltageRaw := by
    rw [Measurements.returned, hrunning, Option.isSome_none, if_neg Bool.false_ne_true, ← h.calls]
    exact given_of_drained h.delivery hl hsize
  have hrawLe := hh.raw.length_le
  have hcalibrationLe := hh.calibration.length_le
  have hpowerStatesLe := hh.powerStates.length_le
  rw [hraw] at hpowerStatesLe
  simp only [List.length_map, List.length_take, List.length_drop] at hrawLe hcalibrationLe hpowerStatesLe
  rw [Kept, hraw]
  constructor
  · intro hcomplete
    have hc := congrArg List.length hcomplete.calibrated
    have hp := congrArg List.length hcomplete.given
    rw [hcalibrations] at hc
    rw [hpowerStates, Measurements.converted] at hp
    simp only [List.length_map, List.length_take, List.length_drop] at hc hp
    omega
  · intro hkept
    refine ⟨hmeasured.calibrated.eq_of_length ?_, hmeasured.given.eq_of_length ?_⟩
    · rw [hcalibrations, List.length_map, List.length_take]
      omega
    · rw [hpowerStates, Measurements.converted, List.length_map, List.length_drop]
      omega

/-- What a callback for the power state is given are conversions, in order and each once at most,
with the offsets of the first one; and all of them, if no message found the queue full or the pool
empty. -/
theorem power_states_were_measured (hv : MeasuringCallbacks v)
    (hentry : OneEntry v msgIdSystemPowerState callback k)
    (h : exec (measurementStep dataAddress) (measurementStart v data) as = some s) :
    Measured s callback ∧ (s.globals.Drained → (Complete s callback ↔
      StepsMeet (measurementStep dataAddress) KeepsMessage (measurementStart v data) as)) := by
  obtain ⟨bs, c, -, ⟨hfollows, hhistories⟩, hkept⟩ := simulated_run hv h
  exact ⟨hhistories.measured hfollows hv hentry, fun hdrained =>
    (hhistories.complete_iff hfollows hv hentry hdrained).trans hkept⟩

/-- Measuring and the other clients make a run of clients that keep the rules of the message pump. What
the DMA and `onRawMeasurement` write to is reserved and not queued. -/
theorem measuring_keeps_rules (hv : MeasuringCallbacks v)
    (h : exec (measurementStep dataAddress) (measurementStart v data) as = some s) :
    ∃ bs c, exec (clientStep firmware) (Clients.initial v data) bs = some c ∧
      c.state = s.globals.state ∧ c.calls = s.globals.calls ∧
      ∀ e, s.globals.Owns e → c.reserved e = true ∧ e ∉ s.globals.state.held := by
  obtain ⟨bs, c, hbs, ⟨hfollows, -⟩, -⟩ := simulated_run hv h
  refine ⟨bs, c, hbs, hfollows.state, hfollows.calls, fun e he => ?_⟩
  have hres : c.reserved e = true := by
    rcases he with hcur | hq
    · exact (hfollows.curBuffer e hcur).1
    · exact (hfollows.powerState e hq).1
  rw [← hfollows.state]
  exact ⟨hres, (hfollows.delivery.reserved e hres).1⟩

end Runs

/-- The callbacks that the start of the board leaves are such. -/
theorem measuringCallbacks_of_started {s : SystemInitializer.Boot} (h : SystemInitializer.Started s) :
    MeasuringCallbacks s.state.pump.callbackVector := by
  have hv := firmwareCallbacks_of_started h
  have hraw : ∀ r ∈ SystemInitializer.known, r.2 = onRawMeasurement → r.1 = msgIdVoltageRaw := by
    decide
  have hcalibration : ∀ r ∈ SystemInitializer.known, r.2 = onRawCalibMeasurement →
      r.1 = msgIdVoltageCalibration := by decide
  exact ⟨hv.oneEntry (by decide), hv.oneEntry (by decide),
    fun id i hi hentry => hraw _ (hv.known id i _ hi hentry) rfl,
    fun id i hi hentry => hcalibration _ (hv.known id i _ hi hentry) rfl⟩

/-! ## A run -/

lemma measuringCallbacks_powerboard : MeasuringCallbacks powerboardCallbacks := by
  have hunique {id : MsgId} {callback : Callback} (i : ℕ)
      (h : powerboardCallbacks id i = some callback) : i = 0 := by
    by_contra hne
    simp [powerboardCallbacks, hne] at h
  refine ⟨⟨0, by decide, by decide, fun i _ h => hunique i h⟩,
    ⟨0, by decide, by decide, fun i _ h => hunique i h⟩, ?_, ?_⟩
  all_goals
    intro id i _ h
    obtain rfl := hunique i h
    by_contra hne
    unfold powerboardCallbacks at h
    split_ifs at h <;> exact absurd h (by decide)

/-- One measurement, from the end of its conversion to that of the dispatch of its power state. -/
def measurement : List MeasuringAction :=
  [.dma1Ch1Isr (List.replicate 100 1024), .dispatch, .dispatch, .runRawMeasurement,
    .runRawMeasurement, .runRawMeasurement] ++ List.replicate 14 .dispatch

/-- The calibration and one measurement, while the receiver reserves a packet. -/
def oneMeasurement : List MeasurementAction :=
  calibrate.map .measuring ++ [.client (.getFreeBuffer msgIdGenericProtocolPacketReady)] ++
    measurement.map .measuring

lemma oneEntry_powerboard :
    OneEntry powerboardCallbacks msgIdSystemPowerState onNewPwrMeasurement 0 := by
  refine ⟨by decide, by decide, fun i _ h => ?_⟩
  by_contra hne
  simp [powerboardCallbacks, hne] at h

/-- It comes to the low-battery check. -/
theorem power_states_were_measured_oneMeasurement :
    ∃ s, exec (measurementStep poolAddress) (measurementStart powerboardCallbacks fun _ => [])
        oneMeasurement = some s ∧
      (givenTo s.globals.calls msgIdSystemPowerState onNewPwrMeasurement).length = 1 ∧
      Measured s onNewPwrMeasurement ∧ s.globals.Drained ∧
      StepsMeet (measurementStep poolAddress) KeepsMessage
        (measurementStart powerboardCallbacks fun _ => []) oneMeasurement ∧
      Complete s onNewPwrMeasurement := by
  have hrun : (exec (measurementStep poolAddress) (measurementStart powerboardCallbacks fun _ => [])
      oneMeasurement).map (fun s =>
        ((givenTo s.globals.calls msgIdSystemPowerState onNewPwrMeasurement).length,
          s.globals.state.pump.msgQueueSize, s.globals.running)) = some (1, 0, none) := by
    decide +kernel
  have hkeeps : StepsMeet (measurementStep poolAddress) KeepsMessage
      (measurementStart powerboardCallbacks fun _ => []) oneMeasurement := by decide +kernel
  obtain ⟨s, hs, hview⟩ := Option.map_eq_some_iff.mp hrun
  simp only [Prod.mk.injEq] at hview
  obtain ⟨hlength, hdrained⟩ := hview
  obtain ⟨hmeasured, hcomplete⟩ := power_states_were_measured measuringCallbacks_powerboard
    oneEntry_powerboard hs
  exact ⟨s, hs, hlength, hmeasured, hdrained, hkeeps, (hcomplete hdrained).mpr hkeeps⟩

/-- While the conversion runs, `g_curBuffer` is reserved. -/
theorem measuring_keeps_rules_calibrate :
    ∃ s, exec (measurementStep poolAddress) (measurementStart powerboardCallbacks fun _ => [])
        (calibrate.map .measuring) = some s ∧
      ∃ bs c, exec (clientStep firmware) (Clients.initial powerboardCallbacks fun _ => []) bs =
          some c ∧ c.state = s.globals.state ∧ c.calls = s.globals.calls ∧
        ∀ e, s.globals.Owns e → c.reserved e = true ∧ e ∉ s.globals.state.held := by
  have hrun : (exec (measurementStep poolAddress) (measurementStart powerboardCallbacks fun _ => [])
      (calibrate.map .measuring)).isSome := by
    decide +kernel
  obtain ⟨s, hs⟩ := Option.isSome_iff_exists.mp hrun
  exact ⟨s, hs, measuring_keeps_rules measuringCallbacks_powerboard hs⟩

end Powerboard.Application
