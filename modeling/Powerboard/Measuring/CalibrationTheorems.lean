import Powerboard.Measuring.Calibration
import Powerboard.Measuring.MeasuringTheorems

/-!
# No current is computed without calibration

The queue is a FIFO, and raw measurements are only posted once the calibration is, so that the
calibration is dispatched before them. For that the post of the calibration has to succeed: the
interrupt does not look at what `msgPump_postMessage` returns, and after a failed post the later
conversions are measurements all the same.
-/

namespace Powerboard.Measuring

open Bytes Machine MsgPump

variable {dataAddress : MsgId → ℤ} {callbackVector : MsgId → ℕ → Option Callback} {slot : ℕ}
  {g g' : Globals} {s s' : Startup} {e : Elem} {samples : List UInt16}

/-! ## The order of the queue -/

abbrev CalibrationId : MsgId → Prop := (· = msgIdVoltageCalibration)

/-- No callback was called for a raw measurement. -/
def NoMeasurement (calls : List Call) : Prop := ∀ call ∈ calls, call.id ≠ msgIdVoltageRaw

/-- The loop of the pump has not passed the callback in the slot. -/
def BeforeSlot (slot : ℕ) (pc : DispatchPc) : Prop := pc = .waiting ∨ ∃ i ≤ slot, pc = .calling i

/-- The calibration is in the queue, before all raw measurements, and its callback is still to be
called. -/
def Awaiting (slot : ℕ) (state : PumpState) : Prop :=
  ∃ front m behind, state.pump.queue = front ++ m :: behind ∧ m.id = msgIdVoltageCalibration ∧
    (∀ m' ∈ front, m'.id ≠ msgIdVoltageRaw) ∧ (front = [] → BeforeSlot slot state.pc)

/-- What is queued for the calibration holds the samples. -/
def HoldsSamples (samples : List UInt16) (p : Pump) : Prop :=
  ∀ m ∈ p.queue, m.id = msgIdVoltageCalibration →
    m.buffer.map p.data = some (ofHalfWords samples)

/-- How far the calibration is. -/
inductive Phase (slot : ℕ) (s : Startup) : Prop
  | converting (hdone : s.globals.calibrationMeasurementDone = false)
      (hqueue : ∀ m ∈ s.globals.state.pump.queue,
        m.id ≠ msgIdVoltageRaw ∧ m.id ≠ msgIdVoltageCalibration)
      (hcalls : NoMeasurement s.globals.calls)
  | completed (samples : List UInt16) (hdone : s.globals.calibrationMeasurementDone = true)
      (hsamples : s.calibrationSamples = some samples)
      (hholds : HoldsSamples samples s.globals.state.pump)
      (horder : (NoMeasurement s.globals.calls ∧ Awaiting slot s.globals.state) ∨
        Calibrated s.globals samples)

lemma Phase.calibratedFirst (h : Phase slot s) : CalibratedFirst s := by
  rintro ⟨call, hcall, -, hid⟩
  cases h with
  | converting hdone hqueue hcalls => exact absurd hid (hcalls call hcall)
  | completed samples hdone hsamples hholds horder =>
    rcases horder with ⟨hcalls, -⟩ | hcalibrated
    · exact absurd hid (hcalls call hcall)
    · exact ⟨samples, hsamples, hcalibrated⟩

/-! ## Steps between the calls of callbacks -/

/-- The pump has queued at most other messages behind what it had, and has not written to the
calibration. -/
structure Behind (p p' : Pump) (allowed : MsgId → Prop) : Prop where
  queue : ∃ new, p'.queue = p.queue ++ new ∧ ∀ m ∈ new, allowed m.id
  data : ∀ e, e.id = msgIdVoltageCalibration → p'.data e = p.data e
  callbackVector : p'.callbackVector = p.callbackVector

variable {p p' p'' : Pump} {allowed : MsgId → Prop}

lemma Behind.of_sameRing (hring : SameRing p p')
    (hdata : ∀ e, e.id = msgIdVoltageCalibration → p'.data e = p.data e)
    (hcallbacks : p'.callbackVector = p.callbackVector) : Behind p p' allowed :=
  ⟨⟨[], by simpa using hring.queue, by simp⟩, hdata, hcallbacks⟩

lemma Behind.trans (h : Behind p p' allowed) (h' : Behind p' p'' allowed) :
    Behind p p'' allowed := by
  obtain ⟨new, hqueue, hnew⟩ := h.queue
  obtain ⟨new', hqueue', hnew'⟩ := h'.queue
  refine ⟨⟨new ++ new', by rw [hqueue', hqueue, List.append_assoc], fun m hm => ?_⟩,
    fun e he => (h'.data e he).trans (h.data e he), h'.callbackVector.trans h.callbackVector⟩
  exact (List.mem_append.mp hm).elim (hnew m) (hnew' m)

lemma Behind.setData (he : e.id ≠ msgIdVoltageCalibration) (content : List UInt8) :
    Behind p (p.setData e content) allowed := by
  refine .of_sameRing (sameRing_setData _ _) (fun e' he' => ?_) rfl
  have hne : e' ≠ e := by
    rintro rfl
    exact he he'
  exact Function.update_of_ne hne _ _

lemma Behind.post {d : BufDescription} {id : MsgId} {ptr : Pointer} {r : Bool × Pump}
    {state : PumpState} (hwf : WellFormed firmware state) (hr : PostOutcome d state.pump id ptr r)
    (hid : id ≠ msgIdVoltageCalibration) (hallowed : allowed id) :
    Behind state.pump r.2 allowed := by
  refine ⟨?_, fun e he => hr.data_of_ne (he ▸ hid.symm), hr.callbackVector⟩
  rcases hr.queue hwf with hqueue | ⟨i, hqueue⟩
  · exact ⟨[], by simpa using hqueue, by simp⟩
  · exact ⟨_, hqueue, by simpa [entryOf] using hallowed⟩

lemma Behind.getFree {d : BufDescription} {id : MsgId} {r : Option Elem × Pump}
    (hr : GetFreeOutcome d p id r) : Behind p r.2 allowed :=
  .of_sameRing hr.sameRing (fun _ _ => congrFun hr.data _) hr.callbackVector

lemma HoldsSamples.behind (h : HoldsSamples samples p) (hbehind : Behind p p' allowed)
    (hallowed : ∀ id, allowed id → id ≠ msgIdVoltageCalibration)
    (hentries : ∀ m ∈ p.queue, EntryOk firmware m) : HoldsSamples samples p' := by
  obtain ⟨new, hqueue, hnew⟩ := hbehind.queue
  intro m hm hid
  rw [hqueue, List.mem_append] at hm
  rcases hm with hm | hm
  · have hcontent := h m hm hid
    cases hbuffer : m.buffer with
    | none => simp [hbuffer] at hcontent
    | some e =>
      obtain ⟨d, -, -, hentry⟩ := hentries m hm
      rw [hbuffer, Option.map_some] at hcontent
      rw [Option.map_some, hbehind.data e ((hentry e hbuffer).1.trans hid), hcontent]
  · exact absurd hid (hallowed _ (hnew m hm))

lemma Awaiting.behind {state : PumpState} (h : Awaiting slot state)
    (hbehind : Behind state.pump p' allowed) : Awaiting slot { state with pump := p' } := by
  obtain ⟨front, m, behind, hqueue, hid, hfront, hpc⟩ := h
  obtain ⟨new, hqueue', -⟩ := hbehind.queue
  exact ⟨front, m, behind ++ new, by simp [hqueue', hqueue], hid, hfront, hpc⟩

/-- A step that queues nothing of the calibration, and a raw measurement only when the calibration
is completed. -/
lemma Phase.behind (h : Phase slot s) (hbehind : Behind s.globals.state.pump p' allowed)
    (hentries : ∀ m ∈ s.globals.state.pump.queue, EntryOk firmware m)
    (hallowed : ∀ id, allowed id → id ≠ msgIdVoltageCalibration ∧
      (s.globals.calibrationMeasurementDone = false → id ≠ msgIdVoltageRaw))
    (hstate : s'.globals.state = { s.globals.state with pump := p' })
    (hdone : s'.globals.calibrationMeasurementDone = s.globals.calibrationMeasurementDone)
    (hcalls : s'.globals.calls = s.globals.calls)
    (hoffsets : s'.globals.offsetVoltages = s.globals.offsetVoltages)
    (hsamples : s'.calibrationSamples = s.calibrationSamples) : Phase slot s' := by
  cases h with
  | converting hnot hqueue hnone =>
    refine .converting (hdone.trans hnot) (fun m hm => ?_) (hcalls ▸ hnone)
    obtain ⟨new, hnew, hin⟩ := hbehind.queue
    rw [hstate, hnew, List.mem_append] at hm
    rcases hm with hm | hm
    · exact hqueue m hm
    · obtain ⟨hcalib, hraw⟩ := hallowed _ (hin m hm)
      exact ⟨hraw hnot, hcalib⟩
  | completed samples hyes hsome hholds horder =>
    refine .completed samples (hdone.trans hyes) (hsamples.trans hsome) ?_ ?_
    · rw [hstate]
      exact hholds.behind hbehind (fun id hid => (hallowed id hid).1) hentries
    · rcases horder with ⟨hnone, hawaiting⟩ | ⟨hcalled, hoff⟩
      · exact Or.inl ⟨hcalls ▸ hnone, hstate ▸ hawaiting.behind hbehind⟩
      · exact Or.inr ⟨hcalls ▸ hcalled, hoffsets.trans hoff⟩

/-! ## The calls of callbacks -/

/-- The loop goes on to the callback of the calibration, or calls it. -/
lemma Awaiting.dispatch {state : PumpState} {r : PumpState × Option Call}
    (h : Awaiting slot state) (hslot : slot < maxReceivers)
    (hcallback : state.pump.callbackVector msgIdVoltageCalibration slot =
      some onRawCalibMeasurement)
    (hr : DispatchOutcome firmware state r) :
    Awaiting slot r.1 ∨ ∃ call, r.2 = some call ∧ call.callback = onRawCalibMeasurement := by
  obtain ⟨front, m, behind, hqueue, hid, hfront, hpc⟩ := h
  -- past the slot, the message in dispatch cannot be the calibration
  have hnot {pc : DispatchPc} (heq : state.pc = pc) (hpast : ¬ BeforeSlot slot pc) :
      front ≠ [] := fun hnil => hpast (heq ▸ hpc hnil)
  cases hr with
  | idle hwaiting hsize => exact Or.inl ⟨front, m, behind, hqueue, hid, hfront, hpc⟩
  | start m' rest hwaiting hcons =>
    refine Or.inl ⟨front, m, behind, ?_, hid, hfront, fun _ => Or.inr ⟨0, Nat.zero_le _, rfl⟩⟩
    exact (sameRing_setBufferFlag _ _).queue.trans hqueue
  | call m' rest i hcalling hi hcons =>
    by_cases hnil : front = []
    · subst hnil
      rcases hpc rfl with hwaiting | ⟨j, hj, hcalling'⟩
      · simp [hwaiting] at hcalling
      · obtain rfl := DispatchPc.calling.inj (hcalling'.symm.trans hcalling)
        rcases hj.lt_or_eq with hlt | rfl
        · exact Or.inl ⟨[], m, behind, hqueue, hid, hfront, fun _ => Or.inr ⟨j + 1, hlt, rfl⟩⟩
        · obtain rfl := (List.cons.inj (hcons.symm.trans hqueue)).1
          exact Or.inr ⟨_, by rw [hid, hcallback]; rfl, rfl⟩
    · exact Or.inl ⟨front, m, behind, hqueue, hid, hfront, fun h => absurd h hnil⟩
  | returned m' rest hcalling hcons =>
    have hne := hnot hcalling (by simp [BeforeSlot]; omega)
    refine Or.inl ⟨front, m, behind, ?_, hid, hfront, fun h => absurd h hne⟩
    exact (sameRing_setBufferFlag _ _).queue.trans hqueue
  | unlock m' rest hcleared hcons =>
    have hne := hnot hcleared (by simp [BeforeSlot])
    refine Or.inl ⟨front, m, behind, ?_, hid, hfront, fun h => absurd h hne⟩
    exact (sameRing_unlockMessage _).queue.trans hqueue
  | finish m' rest hunlocked hcons =>
    -- the message that leaves the queue is before the calibration
    obtain ⟨first, front, rfl⟩ := List.exists_cons_of_ne_nil (hnot hunlocked (by simp [BeforeSlot]))
    have hsize := Pump.size_ne_zero hcons
    refine Or.inl ⟨front, m, behind, ?_, hid, fun m' hm' => hfront m' (by simp [hm']),
      fun _ => Or.inl rfl⟩
    rw [Pump.queue_advance hsize, hqueue]
    rfl

lemma mem_queue_of_dispatch {state : PumpState} {r : PumpState × Option Call} {m : QueueEntry}
    (hr : DispatchOutcome firmware state r) (hm : m ∈ r.1.pump.queue) :
    m ∈ state.pump.queue := by
  cases hr with
  | idle | call => exact hm
  | start | returned => exact (sameRing_setBufferFlag _ _).queue ▸ hm
  | unlock => exact (sameRing_unlockMessage _).queue ▸ hm
  | finish m' rest hunlocked hcons =>
    have hsize := Pump.size_ne_zero hcons
    rw [Pump.queue_advance hsize] at hm
    exact List.mem_of_mem_tail hm

lemma HoldsSamples.dispatch {state : PumpState} {r : PumpState × Option Call}
    (h : HoldsSamples samples state.pump) (hr : DispatchOutcome firmware state r) :
    HoldsSamples samples r.1.pump := by
  intro m hm hid
  rw [hr.data]
  exact h m (mem_queue_of_dispatch hr hm) hid

/-- The message at the front is no raw measurement. -/
lemma Awaiting.front_ne {state : PumpState} {m : QueueEntry} {rest : List QueueEntry}
    (h : Awaiting slot state) (hqueue : state.pump.queue = m :: rest) :
    m.id ≠ msgIdVoltageRaw := by
  obtain ⟨front, m', behind, hqueue', hid, hfront, -⟩ := h
  rw [hqueue] at hqueue'
  cases front with
  | nil =>
    rw [(List.cons.inj hqueue').1, hid]
    decide
  | cons first front =>
    rw [(List.cons.inj hqueue').1]
    exact hfront first List.mem_cons_self

lemma NoMeasurement.append {calls : List Call} {call : Call} (h : NoMeasurement calls)
    (hcall : call.id ≠ msgIdVoltageRaw) : NoMeasurement (calls ++ [call]) := by
  intro call' hmem
  rcases List.mem_append.mp hmem with hmem | hmem
  · exact h call' hmem
  · rwa [List.mem_singleton.mp hmem]

section Callback
variable (g : Globals) (dataPtr : Option Elem) (call : Call)

lemma callback_state : (callback g dataPtr call).state = g.state := by
  unfold callback
  split_ifs <;> rfl

lemma callback_calls : (callback g dataPtr call).calls = g.calls := by
  unfold callback
  split_ifs <;> rfl

lemma callback_calibrationMeasurementDone :
    (callback g dataPtr call).calibrationMeasurementDone = g.calibrationMeasurementDone := by
  unfold callback
  split_ifs <;> rfl

lemma callback_offsetVoltages :
    (callback g dataPtr call).offsetVoltages =
      if call.callback = onRawCalibMeasurement then
        smooth ((dataPtr.map g.state.pump.data).getD [])
      else g.offsetVoltages := by
  by_cases hraw : call.callback = onRawMeasurement
  · have hcalib : call.callback ≠ onRawCalibMeasurement := by
      rw [hraw]
      decide
    rw [callback, if_pos hraw, if_neg hcalib]
  · rw [callback, if_neg hraw]
    by_cases hcalib : call.callback = onRawCalibMeasurement
    · rw [if_pos hcalib, if_pos hcalib]
    · rw [if_neg hcalib, if_neg hcalib]

end Callback

/-- The calibration is done, and `onRawCalibMeasurement` can only run on it again. -/
lemma Calibrated.callback {m : QueueEntry} {call : Call} (h : Calibrated g samples)
    (hcontent : call.callback = onRawCalibMeasurement →
      m.buffer.map g.state.pump.data = some (ofHalfWords samples)) :
    Calibrated (callback g m.buffer call) samples where
  called := by
    rw [callback_calls]
    exact h.called
  offsets := by
    rw [callback_offsetVoltages]
    split
    · next hcalib => rw [hcontent hcalib, Option.getD_some]
    · exact h.offsets

/-- A step of the loop of the pump that calls nothing. -/
lemma Phase.dispatch_quiet {r : PumpState × Option Call} (h : Phase slot s)
    (hslot : slot < maxReceivers)
    (hslotCallback : s.globals.state.pump.callbackVector msgIdVoltageCalibration slot =
      some onRawCalibMeasurement)
    (hr : DispatchOutcome firmware s.globals.state r) (hnone : r.2 = none) :
    Phase slot { s with globals := { s.globals with state := r.1 } } := by
  cases h with
  | converting hdone hentries hcalls =>
    exact .converting hdone (fun m hm => hentries m (mem_queue_of_dispatch hr hm)) hcalls
  | completed samples hdone hsamples hholds horder =>
    refine .completed samples hdone hsamples (hholds.dispatch hr) ?_
    rcases horder with ⟨hcalls, hawaiting⟩ | hcalibrated
    · rcases hawaiting.dispatch hslot hslotCallback hr with hawaiting | ⟨call, hsome, -⟩
      · exact Or.inl ⟨hcalls, hawaiting⟩
      · simp [hsome] at hnone
    · exact Or.inr ⟨hcalibrated.called, hcalibrated.offsets⟩

/-- A step of the loop of the pump that calls a callback for the message at the front. -/
lemma Phase.dispatch_call {r : PumpState × Option Call} {m : QueueEntry} {rest : List QueueEntry}
    {call : Call} (h : Phase slot s) (hslot : slot < maxReceivers)
    (hslotCallback : s.globals.state.pump.callbackVector msgIdVoltageCalibration slot =
      some onRawCalibMeasurement)
    (hnoOther : ∀ id i, s.globals.state.pump.callbackVector id i = some onRawCalibMeasurement →
      id = msgIdVoltageCalibration)
    (hr : DispatchOutcome firmware s.globals.state r)
    (hqueue : s.globals.state.pump.queue = m :: rest) (hsome : r.2 = some call) :
    let g := { s.globals with state := r.1, calls := s.globals.calls ++ [call] }
    Phase slot { s with globals := callback g m.buffer call } := by
  obtain ⟨i, m', rest', -, -, hqueue', hcallback, hid, hcontent, -⟩ := hr.of_call hsome
  obtain ⟨rfl, rfl⟩ := List.cons.inj (hqueue.symm.trans hqueue')
  have hmem : m ∈ s.globals.state.pump.queue := by simp [hqueue]
  have hcalib (heq : call.callback = onRawCalibMeasurement) : m.id = msgIdVoltageCalibration :=
    hnoOther m.id i (heq ▸ hcallback)
  cases h with
  | converting hdone hentries hcalls =>
    refine .converting ?_ (fun m hm => hentries m ?_) ?_
    · exact (callback_calibrationMeasurementDone _ _ _).trans hdone
    · rw [callback_state] at hm
      exact mem_queue_of_dispatch hr hm
    · rw [callback_calls]
      exact hcalls.append (hid ▸ (hentries m hmem).1)
  | completed samples hdone hsamples hholds horder =>
    have hholdsCall (heq : call.callback = onRawCalibMeasurement) :
        m.buffer.map r.1.pump.data = some (ofHalfWords samples) := by
      rw [hr.data]
      exact hholds m hmem (hcalib heq)
    have hcalled (heq : call.callback = onRawCalibMeasurement) :
        call = calibrationCall samples := by
      obtain ⟨c, id, content⟩ := call
      obtain rfl : c = onRawCalibMeasurement := heq
      obtain rfl : id = msgIdVoltageCalibration := hid.trans (hcalib rfl)
      obtain rfl : content = some (ofHalfWords samples) :=
        hcontent.trans (hholds m hmem (hcalib rfl))
      rfl
    refine .completed samples ?_ hsamples ?_ ?_
    · exact (callback_calibrationMeasurementDone _ _ _).trans hdone
    · rw [callback_state]
      exact hholds.dispatch hr
    rcases horder with ⟨hcalls, hawaiting⟩ | hcalibrated
    · rcases hawaiting.dispatch hslot hslotCallback hr with hawaiting' | ⟨call', hsome', heq⟩
      · -- the call is for a message before the calibration, which is no measurement
        left
        rw [callback_state, callback_calls]
        exact ⟨hcalls.append (hid ▸ hawaiting.front_ne hqueue), hawaiting'⟩
      · -- the call is the one of the calibration
        right
        obtain rfl := Option.some.inj (hsome.symm.trans hsome')
        constructor
        · rw [callback_calls, hcalled heq]
          simp
        · rw [callback_offsetVoltages, if_pos heq, hholdsCall heq, Option.getD_some]
    · right
      apply Calibrated.callback _ hholdsCall
      exact ⟨List.mem_append_left _ hcalibrated.called, hcalibrated.offsets⟩

/-- A step of the loop of the pump, with the callback it calls. -/
lemma Phase.dispatch (h : Phase slot s) (hslot : slot < maxReceivers)
    (hslotCallback : s.globals.state.pump.callbackVector msgIdVoltageCalibration slot =
      some onRawCalibMeasurement)
    (hnoOther : ∀ id i, s.globals.state.pump.callbackVector id i = some onRawCalibMeasurement →
      id = msgIdVoltageCalibration)
    (hwf : WellFormed firmware s.globals.state) (hstep : dispatchStep s.globals = some g) :
    Phase slot { s with globals := g } := by
  obtain ⟨-, r, hr, hcases⟩ := dispatchStep_cases hwf hstep
  rcases hcases with ⟨hnone, rfl⟩ | ⟨m, rest, call, hqueue, hsome, rfl⟩
  · exact h.dispatch_quiet hslot hslotCallback hr hnone
  · exact h.dispatch_call hslot hslotCallback hnoOther hr hqueue hsome

/-! ## The invariant -/

/-- The element of the calibration is free, or `g_curBuffer`, or queued, whatever becomes of those of
the measurements. `g_curBuffer` is of the pool that `dma1_ch1_isr` will post it to. -/
structure CalibrationInv (callbackVector : MsgId → ℕ → Option Callback) (slot : ℕ) (s : Startup) :
    Prop where
  account : Account firmware CalibrationId (fun e => s.globals.curBuffer = some e) s.globals.state
  callbacks : s.globals.state.pump.callbackVector = callbackVector
  curBuffer : ∀ e, s.globals.curBuffer = some e → s.globals.timerRegistered = true ∧
    if s.globals.calibrationMeasurementDone then e.id = msgIdVoltageRaw
    else e.id = msgIdVoltageCalibration ∧ e.index < pwrMeasurementCalib.msgAmount
  running : ∀ e, s.globals.running.bind RawMeasurementPc.powerStatePtr = some e →
    e.id = msgIdSystemPowerState
  converting : s.globals.converting = true → s.globals.curBuffer ≠ none
  registered : s.globals.calibrationMeasurementDone = true → s.globals.timerRegistered = true
  calibrating : s.globals.timerRegistered = true →
    s.globals.calibrationMeasurementDone = false → s.globals.curBuffer ≠ none
  phase : Phase slot s

lemma calibrationInv_start (data : Elem → List UInt8) :
    CalibrationInv callbackVector slot (startupStart callbackVector data) := by
  refine ⟨?_, rfl, ?_, ?_, ?_, ?_, ?_, .converting rfl ?_ ?_⟩
  · exact (account_initial callbackVector data).congr (by simp [startupStart, measuringStart])
  all_goals simp [startupStart, measuringStart, initial, Pump.queue, NoMeasurement]

/-- A step that touches the measurements only. -/
lemma CalibrationInv.behind (h : CalibrationInv callbackVector slot s)
    {running : Option RawMeasurementPc}
    (haccount : Account firmware CalibrationId (fun e => s.globals.curBuffer = some e)
      { s.globals.state with pump := p' })
    (hbehind : Behind s.globals.state.pump p' fun id => id ≠ msgIdVoltageCalibration ∧
      id ≠ msgIdVoltageRaw)
    (hrunning : ∀ e, running.bind RawMeasurementPc.powerStatePtr = some e →
      e.id = msgIdSystemPowerState) :
    CalibrationInv callbackVector slot
      { s with globals := { s.globals.setPump p' with running := running } } := by
  refine ⟨haccount, hbehind.callbackVector.trans h.callbacks, h.curBuffer, hrunning, h.converting,
    h.registered, h.calibrating, ?_⟩
  exact h.phase.behind hbehind h.account.wellFormed.entries
    (fun id hid => ⟨hid.1, fun _ => hid.2⟩) rfl rfl rfl rfl rfl

/-! ## The steps of other modules -/

lemma CalibrationInv.other (h : CalibrationInv callbackVector slot s)
    (haccount : Account firmware CalibrationId (fun e => s.globals.curBuffer = some e)
      { s.globals.state with pump := p' })
    (hbehind : Behind s.globals.state.pump p' fun id => id ≠ msgIdVoltageCalibration ∧
      id ≠ msgIdVoltageRaw) :
    CalibrationInv callbackVector slot { s with globals := s.globals.setPump p' } :=
  h.behind haccount hbehind h.running

lemma ne_of_not_measuringMessage {id : MsgId} (hid : ¬ MeasuringMessage id) :
    id ≠ msgIdVoltageCalibration ∧ id ≠ msgIdVoltageRaw :=
  ⟨fun heq => hid (Or.inr (Or.inr heq)), fun heq => hid (Or.inl heq)⟩

/-! ## The steps of this module -/

/-- Before the first conversion is completed nothing of the calibration is queued. -/
lemma CalibrationInv.converting_phase (h : CalibrationInv callbackVector slot s)
    (hdone : s.globals.calibrationMeasurementDone = false) :
    (∀ m ∈ s.globals.state.pump.queue,
        m.id ≠ msgIdVoltageRaw ∧ m.id ≠ msgIdVoltageCalibration) ∧
      NoMeasurement s.globals.calls := by
  cases h.phase with
  | converting _ hqueue hcalls => exact ⟨hqueue, hcalls⟩
  | completed samples hyes => exact absurd (hdone.symm.trans hyes) (by decide)

/-- `triggerCalibration` reserves the element of the calibration, which is free. -/
lemma CalibrationInv.triggerCalibration (h : CalibrationInv callbackVector slot s)
    (hreg : s.globals.timerRegistered = false)
    (hstep : Measuring.triggerCalibration s.globals = some g) :
    CalibrationInv callbackVector slot
      { s with globals := g, calibrationRegistered := false } := by
  have hnone : s.globals.curBuffer = none := by
    by_contra hsome
    obtain ⟨e, he⟩ := Option.ne_none_iff_exists'.mp hsome
    exact absurd (hreg.symm.trans (h.curBuffer e he).1) (by decide)
  have hdone : s.globals.calibrationMeasurementDone = false := by
    by_contra hnot
    exact absurd (hreg.symm.trans (h.registered (by simpa using hnot))) (by decide)
  obtain ⟨hqueue, hcalls⟩ := h.converting_phase hdone
  -- nothing was converted yet, so neither the queue nor a conversion has the element
  have hfree : s.globals.state.pump.header ⟨msgIdVoltageCalibration, 0⟩ = .free := by
    apply h.account.others _ rfl
    · intro hheld
      obtain ⟨m, hm, -, hid⟩ := exists_entry_of_mem_held h.account.wellFormed hheld
      exact (hqueue m hm).2 hid
    · rw [hnone]
      exact nofun
  obtain ⟨t, houtcome, rfl⟩ := triggerCalibration_outcome hstep
  cases houtcome with
  | converting e hcur => exact absurd (hnone.symm.trans hcur) (by simp)
  | noneFree _ hall => exact absurd hfree (hall 0 (by decide))
  | started i _ hi hheader =>
    have haccount := h.account.getFree rfl (.reserved i hi hheader)
    refine ⟨haccount.congr ?_, h.callbacks, ?_, h.running, fun _ => Option.some_ne_none _,
      fun _ => rfl, fun _ _ => Option.some_ne_none _, .converting hdone ?_ hcalls⟩
    · intro e _
      simp [hnone]
    · intro e he
      obtain rfl := Option.some.inj he
      refine ⟨rfl, ?_⟩
      rw [if_neg]
      · exact ⟨rfl, hi⟩
      · simp [Globals.setPump, hdone]
    · intro m hm
      exact hqueue m ((sameRing_setHeader _ _).queue ▸ hm)

/-- `triggerMeasurement` reserves a raw measurement, if no conversion runs. -/
lemma CalibrationInv.triggerMeasurement (h : CalibrationInv callbackVector slot s)
    (hreg : s.globals.timerRegistered = true)
    (hstep : Measuring.triggerMeasurement s.globals = some g) :
    CalibrationInv callbackVector slot { s with globals := g } := by
  cases triggerMeasurement_outcome hstep with
  | converting | noneFree => exact h
  | started i hcur hi hheader =>
    -- no conversion runs, so the first one is completed
    have hdone : s.globals.calibrationMeasurementDone = true := by
      by_contra hnot
      exact h.calibrating hreg (by simpa using hnot) hcur
    have houtcome : GetFreeOutcome pwrMeasurementRaw s.globals.state.pump msgIdVoltageRaw
      (some ⟨msgIdVoltageRaw, i⟩, s.globals.state.pump.setHeader ⟨msgIdVoltageRaw, i⟩ .reserved) :=
        .reserved i hi hheader
    have hinv := h.other (h.account.getFreeOther (by decide) houtcome) (.getFree houtcome)
    refine ⟨hinv.account.congr ?_, hinv.callbacks, ?_, h.running,
      fun _ => Option.some_ne_none _, h.registered, fun _ _ => Option.some_ne_none _, ?_⟩
    · rintro ⟨id, index⟩ rfl
      simp [Globals.setPump, hcur, msgIdVoltageRaw, msgIdVoltageCalibration]
    · intro e he
      obtain rfl := Option.some.inj he
      refine ⟨hreg, ?_⟩
      rw [if_pos]
      exact hdone
    · exact hinv.phase.behind (.of_sameRing ⟨rfl, rfl, rfl, rfl⟩ (fun _ _ => rfl) rfl)
        hinv.account.wellFormed.entries (fun _ (hfalse : False) => hfalse.elim) rfl rfl rfl rfl rfl

/-- The books with what the DMA or a callback has written. -/
lemma CalibrationInv.written (h : CalibrationInv callbackVector slot s) (e : Elem)
    (content : List UInt8) :
    Account firmware CalibrationId (fun e => s.globals.curBuffer = some e)
      { s.globals.state with pump := s.globals.state.pump.setData e content } :=
  h.account.of_sameRing (sameRing_setData _ _) fun _ _ => rfl

/-- The end of a later conversion, whatever becomes of its post. -/
lemma CalibrationInv.dma1Ch1Isr_measurement (h : CalibrationInv callbackVector slot s)
    (hdone : s.globals.calibrationMeasurementDone = true) (he : s.globals.curBuffer = some e)
    (hstep : dma1Ch1Isr dataAddress s.globals samples = some g) :
    CalibrationInv callbackVector slot { s with globals := g } := by
  obtain ⟨hreg, hid⟩ := h.curBuffer e he
  rw [if_pos hdone] at hid
  have hcalib : e.id ≠ msgIdVoltageCalibration := by
    rw [hid]
    decide
  obtain ⟨r, d, hd, houtcome, rfl⟩ :=
    dma1Ch1Isr_cases he (by rw [hid, if_pos hdone]) hstep
  have hwritten := h.written e (ofHalfWords samples)
  have haccount := hwritten.post hcalib hd houtcome
  -- the DMA has filled the buffer, then the interrupt posts it
  have hfirst : Behind s.globals.state.pump (s.globals.state.pump.setData e (ofHalfWords samples))
      (· ≠ msgIdVoltageCalibration) := .setData hcalib _
  have hbehind := hfirst.trans (.post hwritten.wellFormed houtcome hcalib hcalib)
  refine ⟨haccount.congr fun e' hid' => ?_, hbehind.callbackVector.trans h.callbacks, nofun,
    h.running, nofun, fun _ => hreg, nofun, ?_⟩
  · have hne : e ≠ e' := by
      rintro rfl
      exact hcalib hid'
    simp [he, hne]
  · refine h.phase.behind hbehind h.account.wellFormed.entries (fun id hid => ⟨hid, ?_⟩) rfl
      hdone.symm rfl rfl rfl
    exact fun hnot => absurd (hnot.symm.trans hdone) (by decide)

/-- The end of the first conversion: the calibration is queued, if there is room. -/
lemma CalibrationInv.dma1Ch1Isr_calibration (h : CalibrationInv callbackVector slot s)
    (hdone : s.globals.calibrationMeasurementDone = false) (he : s.globals.curBuffer = some e)
    (hroom : ¬ s.globals.state.pump.Full)
    (hstep : dma1Ch1Isr dataAddress s.globals samples = some g) :
    CalibrationInv callbackVector slot
      { s with globals := g, calibrationSamples := some samples } := by
  obtain ⟨hreg, hid⟩ := h.curBuffer e he
  rw [if_neg (by simp [hdone])] at hid
  obtain ⟨hid, hindex⟩ := hid
  obtain ⟨hqueue, hcalls⟩ := h.converting_phase hdone
  obtain ⟨r, d, hd, houtcome, rfl⟩ :=
    dma1Ch1Isr_cases he (by rw [hid, if_neg (by simp [hdone])]) hstep
  have hpool : d = pwrMeasurementCalib := by
    rw [hid, lookup_voltageCalibration] at hd
    exact (Option.some.inj hd).symm
  subst hpool
  have hptr := pointsTo_pointerFrom dataAddress
    (s.globals.state.pump.setData e (ofHalfWords samples)) hd rfl hindex
  have hwritten := h.written e (ofHalfWords samples)
  rcases hwritten.postOwned hid he hd hptr houtcome with ⟨rfl, -, haccount⟩ | ⟨-, hfull⟩
  · have hring := (sameRing_setData (p := s.globals.state.pump) e (ofHalfWords samples)).trans
      (sameRing_setHeader e .posted)
    have hqueue' := h.account.wellFormed.queue_enqueue (m := entryOf pwrMeasurementCalib e) hring
      hroom
    refine ⟨haccount.congr ?_, h.callbacks, nofun, h.running, nofun, fun _ => hreg, nofun,
      .completed samples rfl rfl ?_ (Or.inl ⟨hcalls, ?_⟩)⟩
    · intro e' _
      simp only [he, Option.some.injEq]
      constructor
      · exact nofun
      · rintro ⟨rfl, hne⟩
        exact absurd rfl hne
    · intro m hm hmid
      obtain hm | hm := List.mem_append.mp (hqueue' ▸ hm)
      · exact absurd hmid (hqueue m hm).2
      · rw [List.mem_singleton.mp hm]
        exact congrArg some (Function.update_self e _ _)
    · -- the calibration is last in the queue, and there is no measurement before it
      refine ⟨s.globals.state.pump.queue, _, [], hqueue', hid, fun m hm => (hqueue m hm).1, ?_⟩
      intro hnil
      left
      by_contra hbusy
      have hsize := h.account.wellFormed.busy hbusy
      rw [← Pump.length_queue, hnil] at hsize
      exact hsize rfl
  · exact absurd hfull hroom

/-- `onRawMeasurement` touches the power states only. -/
lemma CalibrationInv.runRawMeasurement {pc : RawMeasurementPc}
    (h : CalibrationInv callbackVector slot s) (hpc : s.globals.running = some pc)
    (hstep : Measuring.runRawMeasurement dataAddress s.globals pc = some g) :
    CalibrationInv callbackVector slot { s with globals := g } := by
  have hother : msgIdSystemPowerState ≠ msgIdVoltageCalibration ∧
      msgIdSystemPowerState ≠ msgIdVoltageRaw := by decide
  cases pc with
  | entered dataPtr =>
    obtain ⟨r, houtcome, rfl⟩ := runRawMeasurement_entered_cases hstep
    have haccount := h.account.getFreeOther hother.1 houtcome
    apply h.behind haccount (.getFree houtcome)
    cases houtcome with
    | reserved i hi hheader =>
      intro e he
      obtain rfl := Option.some.inj he
      rfl
    | noneFree hall => exact nofun
  | filling dataPtr e =>
    obtain rfl := Option.some.inj hstep
    have hid : e.id = msgIdSystemPowerState := h.running e (by rw [hpc]; rfl)
    apply h.behind (h.written e _) (.setData (hid ▸ hother.1) _)
    intro e' he'
    obtain rfl := Option.some.inj he'
    exact hid
  | posting e =>
    obtain ⟨r, houtcome, rfl⟩ := runRawMeasurement_posting_cases hstep
    exact h.behind (h.account.post hother.1 lookup_systemPowerState houtcome)
      (.post h.account.wellFormed houtcome hother.1 hother) nofun

/-- A step of the loop of the pump. -/
lemma CalibrationInv.dispatch (h : CalibrationInv callbackVector slot s)
    (hslot : slot < maxReceivers)
    (hcallback : callbackVector msgIdVoltageCalibration slot = some onRawCalibMeasurement)
    (hnoOther : ∀ id i, callbackVector id i = some onRawCalibMeasurement →
      id = msgIdVoltageCalibration)
    (hstep : dispatchStep s.globals = some g) :
    CalibrationInv callbackVector slot { s with globals := g } := by
  have hphase := h.phase.dispatch hslot (by rw [h.callbacks, hcallback])
    (by rwa [h.callbacks]) h.account.wellFormed hstep
  obtain ⟨-, r, hr, hcases⟩ := dispatchStep_cases h.account.wellFormed hstep
  have haccount := h.account.dispatch hr
  have hcallbacks := hr.callbackVector.trans h.callbacks
  rcases hcases with ⟨-, rfl⟩ | ⟨m, rest, call, -, -, rfl⟩
  · exact ⟨haccount, hcallbacks, h.curBuffer, h.running, h.converting, h.registered,
      h.calibrating, hphase⟩
  · by_cases hraw : call.callback = onRawMeasurement
    · rw [callback, if_pos hraw] at hphase ⊢
      exact ⟨haccount, hcallbacks, h.curBuffer, by simp [RawMeasurementPc.powerStatePtr],
        h.converting, h.registered, h.calibrating, hphase⟩
    · obtain ⟨offsets, hoffsets⟩ := callback_of_ne
        { s.globals with state := r.1, calls := s.globals.calls ++ [call] } m.buffer hraw
      rw [hoffsets] at hphase ⊢
      exact ⟨haccount, hcallbacks, h.curBuffer, h.running, h.converting, h.registered,
        h.calibrating, hphase⟩

/-! ## Any step -/

/-- A step of what `measuringStep` covers, but for the two that `startupStep` knows more of. -/
lemma CalibrationInv.measuringStep {a : MeasuringAction}
    (h : CalibrationInv callbackVector slot s) (hslot : slot < maxReceivers)
    (hcallback : callbackVector msgIdVoltageCalibration slot = some onRawCalibMeasurement)
    (hnoOther : ∀ id i, callbackVector id i = some onRawCalibMeasurement →
      id = msgIdVoltageCalibration)
    (hcalib : a ≠ .triggerCalibration) (hdma : ∀ samples, a ≠ .dma1Ch1Isr samples)
    (hstep : Measuring.measuringStep dataAddress s.globals a = some g) :
    CalibrationInv callbackVector slot { s with globals := g } := by
  cases moves_of_measuringStep hstep with
  | triggerCalibration => exact absurd rfl hcalib
  | dma1Ch1Isr samples => exact absurd rfl (hdma samples)
  | triggerMeasurement hreg ht => exact h.triggerMeasurement hreg ht
  | runRawMeasurement pc hpc ht => exact h.runRawMeasurement hpc ht
  | dispatch ht => exact h.dispatch hslot hcallback hnoOther ht
  | post id ptr d r hid hd houtcome =>
    have hne := ne_of_not_measuringMessage hid
    exact h.other (h.account.post hne.1 hd houtcome)
      (.post h.account.wellFormed houtcome hne.1 hne)
  | getFreeBuffer id d r hid hd houtcome =>
    have hne := ne_of_not_measuringMessage hid
    exact h.other (h.account.getFreeOther hne.1 houtcome) (.getFree houtcome)
  | lock e hid =>
    have hne := ne_of_not_measuringMessage hid
    refine h.other (h.account.lockOther hne.1) (.of_sameRing (sameRing_lockMessage _) ?_ ?_)
    · exact fun _ _ => congrFun (lockMessage_data _) _
    · exact lockMessage_callbackVector _
  | unlock e hid =>
    have hne := ne_of_not_measuringMessage hid
    refine h.other (h.account.unlockOther hne.1) (.of_sameRing (sameRing_unlockMessage _) ?_ ?_)
    · exact fun _ _ => congrFun (unlockMessage_data _) _
    · exact unlockMessage_callbackVector _
  | stay a => exact h

/-- A step in which the calibration is not lost. -/
theorem CalibrationInv.step {a : StartupAction} (h : CalibrationInv callbackVector slot s)
    (hslot : slot < maxReceivers)
    (hcallback : callbackVector msgIdVoltageCalibration slot = some onRawCalibMeasurement)
    (hnoOther : ∀ id i, callbackVector id i = some onRawCalibMeasurement →
      id = msgIdVoltageCalibration)
    (hsafe : CalibrationSafe s a) (hstep : startupStep dataAddress s a = some s') :
    CalibrationInv callbackVector slot s' := by
  cases a with
  | onLateInit =>
    simp only [startupStep] at hstep
    split at hstep
    · obtain rfl := Option.some.inj hstep
      refine ⟨h.account, h.callbacks, h.curBuffer, h.running, h.converting, h.registered,
        h.calibrating, ?_⟩
      exact h.phase.behind (.of_sameRing ⟨rfl, rfl, rfl, rfl⟩ (fun _ _ => rfl) rfl)
        h.account.wellFormed.entries (fun _ (hfalse : False) => hfalse.elim) rfl rfl rfl rfl rfl
    · cases hstep
  | measuring a =>
    cases a with
    | triggerCalibration =>
      simp only [startupStep] at hstep
      split at hstep
      · obtain ⟨g, hg, rfl⟩ := Option.map_eq_some_iff.mp hstep
        simp only [Measuring.measuringStep] at hg
        split at hg
        · cases hg
        · next hreg => exact h.triggerCalibration (by simpa using hreg) hg
      · cases hstep
    | dma1Ch1Isr samples =>
      obtain ⟨g, hg, rfl⟩ := Option.map_eq_some_iff.mp hstep
      simp only [Measuring.measuringStep] at hg
      split at hg
      · next hconv =>
        obtain ⟨e, he⟩ := Option.ne_none_iff_exists'.mp (h.converting hconv)
        cases hdone : s.globals.calibrationMeasurementDone with
        | true => exact h.dma1Ch1Isr_measurement hdone he hg
        | false => exact h.dma1Ch1Isr_calibration hdone he (hsafe hdone) hg
      · cases hg
    | triggerMeasurement | runRawMeasurement | dispatch | post | getFreeBuffer | lock | unlock =>
      obtain ⟨g, hg, rfl⟩ := Option.map_eq_some_iff.mp hstep
      exact h.measuringStep hslot hcallback hnoOther (by simp) (by simp) hg

/-! ## All runs -/

/-- In every run in which the end of the first conversion does not find the queue full,
`onRawMeasurement` is only called after the calibration. -/
theorem calibrated_first (dataAddress : MsgId → ℤ) (data : Elem → List UInt8)
    (hregistered : CalibrationRegistered callbackVector) (actions : List StartupAction)
    (hsafe : StepsMeet (startupStep dataAddress) CalibrationSafe (startupStart callbackVector data)
      actions) :
    StatesMeet (startupStep dataAddress) CalibratedFirst (startupStart callbackVector data)
      actions := by
  obtain ⟨slot, hslot, hcallback⟩ := hregistered.calibration
  have hinv : StatesMeet (startupStep dataAddress) (CalibrationInv callbackVector slot)
      (startupStart callbackVector data) actions :=
    exec_induction_of_steps (startupStep dataAddress)
      (fun s a s' h ha hs' => h.step hslot hcallback hregistered.noOther ha hs')
      (calibrationInv_start data) hsafe
  exact fun before after s hactions hs => (hinv before after s hactions hs).phase.calibratedFirst

/-- The two callbacks that `init_measuring` registers, and no others. -/
def measuringCallbacks (id : MsgId) (i : ℕ) : Option Callback :=
  if i = 0 ∧ id = msgIdVoltageRaw then some onRawMeasurement
  else if i = 0 ∧ id = msgIdVoltageCalibration then some onRawCalibMeasurement else none

lemma calibrationRegistered_measuringCallbacks : CalibrationRegistered measuringCallbacks where
  raw := ⟨0, by decide, by decide⟩
  calibration := ⟨0, by decide, by decide⟩
  noOther id i h := by
    unfold measuringCallbacks at h
    split_ifs at h with hraw hcalib
    · exact absurd (Option.some.inj h) (by decide)
    · exact hcalib.2

/-- The first conversion and another one, in a queue that `n` other messages are in. -/
def twoConversions (n : ℕ) : List StartupAction :=
  List.flatten
    [List.replicate n
        (.measuring (.post msgIdGenericProtocolPacketReady { ptrOffset := -1, bytes := fun _ => 0 })),
      [.onLateInit, .measuring .triggerCalibration, .measuring (.dma1Ch1Isr [1, 2, 3, 4, 5])],
      List.replicate 8 (.measuring .dispatch),
      [.measuring .triggerMeasurement, .measuring (.dma1Ch1Isr [])]]

theorem calibrated_first_twoConversions :
    ∃ s, exec (startupStep fun _ => 0) (startupStart measuringCallbacks fun _ => [])
        (twoConversions 0 ++ List.replicate 2 (.measuring .dispatch)) = some s ∧
      s.globals.calls.map (·.callback) = [onRawCalibMeasurement, onRawMeasurement] ∧
      CalibratedFirst s := by
  have hrun : (exec (startupStep fun _ => 0) (startupStart measuringCallbacks fun _ => [])
      (twoConversions 0 ++ List.replicate 2 (.measuring .dispatch))).map
        (·.globals.calls.map (·.callback)) =
      some [onRawCalibMeasurement, onRawMeasurement] := by decide +kernel
  obtain ⟨s, hs, hcalls⟩ := Option.map_eq_some_iff.mp hrun
  have hsafe : StepsMeet (startupStep fun _ => 0) CalibrationSafe
      (startupStart measuringCallbacks fun _ => [])
      (twoConversions 0 ++ List.replicate 2 (.measuring .dispatch)) := by decide +kernel
  exact ⟨s, hs, hcalls, calibrated_first _ _ calibrationRegistered_measuringCallbacks _ hsafe _ []
    s (List.append_nil _).symm hs⟩

/-- The calibration does not get into a full queue, the measurement after it does. -/
theorem measurement_without_calibration :
    ¬ ∀ callbackVector, CalibrationRegistered callbackVector → ∀ dataAddress data actions,
      StatesMeet (startupStep dataAddress) CalibratedFirst (startupStart callbackVector data)
        actions := by
  intro hall
  have hrun : (exec (startupStep fun _ => 0) (startupStart measuringCallbacks fun _ => [])
      (twoConversions 16 ++ List.replicate 122 (.measuring .dispatch))).map
        (fun s => s.globals.calls.map fun call => (call.callback, call.id)) =
      some [(onRawMeasurement, msgIdVoltageRaw)] := by decide +kernel
  obtain ⟨s, hs, hcalls⟩ := Option.map_eq_some_iff.mp hrun
  have hfirst := hall measuringCallbacks calibrationRegistered_measuringCallbacks _ _ _ _ [] s
    (List.append_nil _).symm hs
  have hraw : (onRawMeasurement, msgIdVoltageRaw) ∈
      s.globals.calls.map fun call => (call.callback, call.id) := by simp [hcalls]
  obtain ⟨call, hcall, heq⟩ := List.mem_map.mp hraw
  obtain ⟨hcallback, hid⟩ := Prod.mk.inj heq
  obtain ⟨samples, -, hcalled, -⟩ := hfirst ⟨call, hcall, hcallback, hid⟩
  -- the only call is not that of the calibration
  have hcalib := List.mem_map_of_mem (f := fun call : Call => (call.callback, call.id)) hcalled
  rw [hcalls, List.mem_singleton] at hcalib
  have hne : onRawCalibMeasurement ≠ onRawMeasurement := by decide
  exact absurd (Prod.mk.inj hcalib).1 hne

end Powerboard.Measuring
