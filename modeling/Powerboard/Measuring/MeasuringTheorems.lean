import Powerboard.Measuring.Measuring

/-!
# The buffers of the measurements

The books of the two pools over all runs: no element is lost exactly when no hand-over meets a full
queue.
-/

namespace Powerboard.Measuring

open Bytes Machine MsgPump

variable {dataAddress : MsgId → ℤ} {s s' : Globals} {e : Elem} {d : BufDescription} {id : MsgId}
  {samples : List UInt16} {callbackVector : MsgId → ℕ → Option Callback}

/-! ## The pools -/

/-- The pool `pwrMeasurementRaw` -/
def pwrMeasurementRaw : BufDescription :=
  MessageType.voltageMeasurementsRaw.pool 2 msgIdVoltageRaw

/-- The pool `systemPowerState` -/
def systemPowerState : BufDescription :=
  MessageType.systemPowerState.pool 2 msgIdSystemPowerState

/-- The pool `pwrMeasurementCalib` -/
def pwrMeasurementCalib : BufDescription :=
  MessageType.voltageMeasurementsRaw.pool 1 msgIdVoltageCalibration

lemma lookup_voltageRaw : firmware.messageBuffers msgIdVoltageRaw = some pwrMeasurementRaw := by
  decide +kernel

lemma lookup_systemPowerState :
    firmware.messageBuffers msgIdSystemPowerState = some systemPowerState := by
  decide +kernel

lemma lookup_voltageCalibration :
    firmware.messageBuffers msgIdVoltageCalibration = some pwrMeasurementCalib := by
  decide +kernel

/-- A pointer to an element of the pool of the message points to it, wherever the pool is. -/
lemma pointsTo_pointerFrom (dataAddress : MsgId → ℤ) (p : Pump)
    (hd : firmware.messageBuffers id = some d) (hid : e.id = id) (hindex : e.index < d.msgAmount) :
    d.PointsTo (pointerFrom dataAddress p id e) e.index := by
  subst hid
  refine ⟨hindex, ?_⟩
  unfold pointerFrom
  simp [hd]

/-! ## The invariant -/

/-- The pools of the books: while the calibration has not begun also the one for it. -/
def Globals.Ids (s : Globals) (id : MsgId) : Prop :=
  MeasuringId id ∨ (s.timerRegistered = false ∧ id = msgIdVoltageCalibration)

/-- The invariant. `g_curBuffer` is an element of the pool that `dma1_ch1_isr` will post it to: a
calibration is running from the registration of the timer until it is done. -/
structure MeasuringInv (s : Globals) : Prop where
  account : Account firmware s.Ids s.Owns s.state
  curBuffer : ∀ e, s.curBuffer = some e →
    s.converting = true ∧ s.timerRegistered = true ∧
      (s.calibrationMeasurementDone = true → e.id = msgIdVoltageRaw ∧
        e.index < pwrMeasurementRaw.msgAmount) ∧
      (s.calibrationMeasurementDone = false → e.id = msgIdVoltageCalibration)
  running : ∀ e, s.running.bind RawMeasurementPc.powerStatePtr = some e →
    e.id = msgIdSystemPowerState ∧ e.index < systemPowerState.msgAmount
  converting : s.converting = true → s.curBuffer ≠ none
  registered : s.calibrationMeasurementDone = true → s.timerRegistered = true
  calibrating : s.timerRegistered = true → s.calibrationMeasurementDone = false →
    s.curBuffer ≠ none
  /-- no calibration is queued before it has begun -/
  notQueued : s.timerRegistered = false → ∀ e ∈ s.state.held, e.id ≠ msgIdVoltageCalibration

lemma MeasuringInv.accounted (h : MeasuringInv s) :
    Accounted firmware MeasuringId s.Owns s.state :=
  (h.account.mono fun _ => Or.inl).accounted

/-- `g_curBuffer` is of another pool than the power states. -/
lemma MeasuringInv.curBuffer_id_ne (h : MeasuringInv s) (hcur : s.curBuffer = some e) :
    e.id ≠ msgIdSystemPowerState := by
  obtain ⟨-, -, hraw, hcalib⟩ := h.curBuffer e hcur
  cases hdone : s.calibrationMeasurementDone with
  | true =>
    rw [(hraw hdone).1]
    decide
  | false =>
    rw [hcalib hdone]
    decide

lemma measuringInv_start (data : Elem → List UInt8) :
    MeasuringInv (measuringStart callbackVector data) := by
  refine ⟨?_, by simp [measuringStart], by simp [measuringStart], by simp [measuringStart],
    by simp [measuringStart], by simp [measuringStart], ?_⟩
  · exact (account_initial callbackVector data).congr (by simp [measuringStart, Globals.Owns])
  · intro _ e he
    simp [measuringStart, initial, PumpState.held, PumpState.heldEntries, Pump.queue] at he

lemma not_ids_of_other (hid : ¬ MeasuringMessage id) : ¬ s.Ids id := by
  rintro ((h | h) | ⟨-, h⟩)
  · exact hid (Or.inl h)
  · exact hid (Or.inr (Or.inl h))
  · exact hid (Or.inr (Or.inr h))

/-- What other modules do leaves the invariant, if it leaves the books and queues no calibration. -/
lemma MeasuringInv.setPump {p : Pump} (h : MeasuringInv s)
    (haccount : Account firmware s.Ids s.Owns { s.state with pump := p })
    (hheld : ∀ e ∈ PumpState.held { s.state with pump := p },
      e ∈ s.state.held ∨ ¬ MeasuringMessage e.id) : MeasuringInv (s.setPump p) := by
  refine ⟨haccount, h.curBuffer, h.running, h.converting, h.registered, h.calibrating, ?_⟩
  intro hreg e he hid
  rcases hheld e he with hin | hother
  · exact h.notQueued hreg e hin hid
  · exact hother (Or.inr (Or.inr hid))

lemma MeasuringInv.setPump_of_sameRing {p : Pump} (h : MeasuringInv s)
    (haccount : Account firmware s.Ids s.Owns { s.state with pump := p })
    (hring : SameRing s.state.pump p) : MeasuringInv (s.setPump p) := by
  apply h.setPump haccount
  intro e he
  rw [held_of_sameRing hring] at he
  exact Or.inl he

/-! ## What a step can do -/

/-- What an action can do. The functions of this module are looked into below; the calls of other
modules are resolved down to what the pump does. -/
inductive Moves (dataAddress : MsgId → ℤ) (s : Globals) : MeasuringAction → Globals → Prop
  | triggerCalibration {t : Globals} (hreg : s.timerRegistered = false)
      (ht : Measuring.triggerCalibration s = some t) :
      Moves dataAddress s .triggerCalibration t
  | triggerMeasurement {t : Globals} (hreg : s.timerRegistered = true)
      (ht : Measuring.triggerMeasurement s = some t) :
      Moves dataAddress s .triggerMeasurement t
  | dma1Ch1Isr {t : Globals} (samples : List UInt16) (hconv : s.converting = true)
      (ht : Measuring.dma1Ch1Isr dataAddress s samples = some t) :
      Moves dataAddress s (.dma1Ch1Isr samples) t
  | runRawMeasurement {t : Globals} (pc : RawMeasurementPc) (hpc : s.running = some pc)
      (ht : Measuring.runRawMeasurement dataAddress s pc = some t) :
      Moves dataAddress s .runRawMeasurement t
  | dispatch {t : Globals} (ht : dispatchStep s = some t) : Moves dataAddress s .dispatch t
  | post (id : MsgId) (ptr : Pointer) (d : BufDescription) (r : Bool × Pump)
      (hid : ¬ MeasuringMessage id) (hd : firmware.messageBuffers id = some d)
      (houtcome : PostOutcome d s.state.pump id ptr r) :
      Moves dataAddress s (.post id ptr) (s.setPump r.2)
  | getFreeBuffer (id : MsgId) (d : BufDescription) (r : Option Elem × Pump)
      (hid : ¬ MeasuringMessage id) (hd : firmware.messageBuffers id = some d)
      (houtcome : GetFreeOutcome d s.state.pump id r) :
      Moves dataAddress s (.getFreeBuffer id) (s.setPump r.2)
  | lock (e : Elem) (hid : ¬ MeasuringMessage e.id) :
      Moves dataAddress s (.lock e) (s.setPump (lockMessage s.state.pump (some e)).2)
  | unlock (e : Elem) (hid : ¬ MeasuringMessage e.id) :
      Moves dataAddress s (.unlock e) (s.setPump (unlockMessage s.state.pump (some e)).2)
  /-- there is no pool for the message -/
  | stay (a : MeasuringAction) : Moves dataAddress s a s

lemma moves_of_post {ptr : Pointer} (hstep : measuringStep dataAddress s (.post id ptr) = some s') :
    Moves dataAddress s (.post id ptr) s' := by
  simp only [measuringStep] at hstep
  split at hstep
  · cases hstep
  · rename_i hid
    split at hstep
    · rename_i ok p hpost
      obtain rfl := Option.some.inj hstep
      rcases postMessage_cases hpost with ⟨d, hd, houtcome⟩ | heq
      · exact .post id ptr d (ok, p) hid hd houtcome
      · cases heq
        exact .stay _
    · cases hstep

lemma moves_of_getFreeBuffer (hstep : measuringStep dataAddress s (.getFreeBuffer id) = some s') :
    Moves dataAddress s (.getFreeBuffer id) s' := by
  simp only [measuringStep] at hstep
  split at hstep
  · cases hstep
  · rename_i hid
    split at hstep
    · rename_i result p hget
      obtain rfl := Option.some.inj hstep
      rcases getFreeBuffer_cases hget with ⟨d, hd, houtcome⟩ | heq
      · exact .getFreeBuffer id d (result, p) hid hd houtcome
      · cases heq
        exact .stay _
    · cases hstep

/-- Every step is in the list. -/
lemma moves_of_measuringStep {a : MeasuringAction}
    (hstep : measuringStep dataAddress s a = some s') : Moves dataAddress s a s' := by
  cases a with
  | triggerCalibration =>
    simp only [measuringStep] at hstep
    split at hstep
    · cases hstep
    · rename_i hreg
      exact .triggerCalibration (by simpa using hreg) hstep
  | triggerMeasurement =>
    simp only [measuringStep] at hstep
    split at hstep
    · rename_i hreg
      exact .triggerMeasurement hreg hstep
    · cases hstep
  | dma1Ch1Isr samples =>
    simp only [measuringStep] at hstep
    split at hstep
    · rename_i hconv
      exact .dma1Ch1Isr samples hconv hstep
    · cases hstep
  | runRawMeasurement =>
    obtain ⟨pc, hpc, hstep⟩ := Option.bind_eq_some_iff.mp hstep
    exact .runRawMeasurement pc hpc hstep
  | dispatch => exact .dispatch hstep
  | post id ptr => exact moves_of_post hstep
  | getFreeBuffer id => exact moves_of_getFreeBuffer hstep
  | lock e =>
    simp only [measuringStep] at hstep
    split at hstep
    · cases hstep
    · rename_i hid
      obtain rfl := Option.some.inj hstep
      exact .lock e hid
  | unlock e =>
    simp only [measuringStep] at hstep
    split at hstep
    · cases hstep
    · rename_i hid
      obtain rfl := Option.some.inj hstep
      exact .unlock e hid

/-! ## The steps of other modules -/

lemma MeasuringInv.post {r : Bool × Pump} {ptr : Pointer} (h : MeasuringInv s)
    (hid : ¬ MeasuringMessage id) (hd : firmware.messageBuffers id = some d)
    (houtcome : PostOutcome d s.state.pump id ptr r) : MeasuringInv (s.setPump r.2) := by
  apply h.setPump (h.account.post (not_ids_of_other hid) hd houtcome)
  intro e he
  rcases held_post h.account.wellFormed houtcome with hheld | ⟨i, hheld⟩
  · rw [hheld] at he
    exact Or.inl he
  · rw [hheld, List.mem_append, List.mem_singleton] at he
    apply he.imp_right
    rintro rfl
    exact hid

/-! ## The steps of this module -/

/-- Everything that `startConversion` can do. -/
inductive StartOutcome (d : BufDescription) (s : Globals) (id : MsgId) : Globals → Prop
  | converting (e : Elem) (hcur : s.curBuffer = some e) : StartOutcome d s id s
  | noneFree (hcur : s.curBuffer = none)
      (hall : ∀ i < d.msgAmount, s.state.pump.header ⟨id, i⟩ ≠ .free) : StartOutcome d s id s
  | started (i : ℕ) (hcur : s.curBuffer = none) (hi : i < d.msgAmount)
      (hfree : s.state.pump.header ⟨id, i⟩ = .free) :
      StartOutcome d s id { s.setPump (s.state.pump.setHeader ⟨id, i⟩ .reserved) with
        curBuffer := some ⟨id, i⟩, converting := true }

lemma startConversion_outcome (s : Globals) {d : BufDescription}
    (hd : firmware.messageBuffers id = some d) (hid : systemFirstId < id) :
    ∃ s', startConversion s id = some s' ∧ StartOutcome d s id s' := by
  unfold startConversion
  cases hcur : s.curBuffer with
  | some e => exact ⟨s, rfl, .converting e hcur⟩
  | none =>
    obtain ⟨r, hr, houtcome⟩ := getFreeBuffer_outcome (p := s.state.pump) hd hid
    rw [Option.isNone_none, if_pos rfl, hr]
    cases houtcome with
    | reserved i hi hfree => exact ⟨_, rfl, .started i hcur hi hfree⟩
    | noneFree hall => exact ⟨_, rfl, .noneFree hcur hall⟩

lemma triggerMeasurement_outcome (hstep : Measuring.triggerMeasurement s = some s') :
    StartOutcome pwrMeasurementRaw s msgIdVoltageRaw s' := by
  obtain ⟨t, ht, houtcome⟩ := startConversion_outcome s lookup_voltageRaw (by decide)
  exact Option.some.inj (ht.symm.trans hstep) ▸ houtcome

lemma triggerCalibration_outcome (hstep : Measuring.triggerCalibration s = some s') :
    ∃ t, StartOutcome pwrMeasurementCalib s msgIdVoltageCalibration t ∧
      s' = { t with timerRegistered := true } := by
  obtain ⟨t, ht, houtcome⟩ := startConversion_outcome s lookup_voltageCalibration (by decide)
  rw [Measuring.triggerCalibration, ht] at hstep
  exact ⟨t, houtcome, (Option.some.inj hstep).symm⟩

/-- `triggerMeasurement` reserves a raw measurement, if no conversion runs. -/
lemma MeasuringInv.triggerMeasurement (h : MeasuringInv s) (hreg : s.timerRegistered = true)
    (hstep : Measuring.triggerMeasurement s = some s') : MeasuringInv s' := by
  cases triggerMeasurement_outcome hstep with
  | converting | noneFree => exact h
  | started i hcur hi hfree =>
    -- before the calibration is done `g_curBuffer` is taken
    have hdone : s.calibrationMeasurementDone = true := by
      by_contra hnot
      exact h.calibrating hreg (by simpa using hnot) hcur
    have haccount := h.account.getFree (Or.inl (Or.inl rfl)) (.reserved i hi hfree)
    refine ⟨haccount.congr ?_, ?_, h.running, fun _ => Option.some_ne_none _, h.registered,
      fun _ _ => Option.some_ne_none _, ?_⟩
    · intro e _
      unfold Globals.Owns
      rw [hcur]
      simp [Globals.setPump, or_comm]
    · intro e he
      obtain rfl := Option.some.inj he
      exact ⟨rfl, hreg, fun _ => ⟨rfl, hi⟩, fun hnot => absurd (hdone.symm.trans hnot) (by decide)⟩
    · intro hnot
      exact absurd (hreg.symm.trans hnot) (by decide)

/-- `triggerCalibration` reserves the element for the calibration, which is free. -/
lemma MeasuringInv.triggerCalibration (h : MeasuringInv s) (hreg : s.timerRegistered = false)
    (hstep : Measuring.triggerCalibration s = some s') : MeasuringInv s' := by
  have hnone : s.curBuffer = none := by
    by_contra hsome
    obtain ⟨e, he⟩ := Option.ne_none_iff_exists'.mp hsome
    exact absurd (hreg.symm.trans (h.curBuffer e he).2.1) (by decide)
  have hdone : s.calibrationMeasurementDone = false := by
    by_contra hnot
    exact absurd (hreg.symm.trans (h.registered (by simpa using hnot))) (by decide)
  have hids : s.Ids msgIdVoltageCalibration := Or.inr ⟨hreg, rfl⟩
  have hfree : s.state.pump.header ⟨msgIdVoltageCalibration, 0⟩ = .free := by
    apply h.account.others _ hids
    · intro hin
      exact h.notQueued hreg _ hin rfl
    · rintro (howner | howner)
      · rw [hnone] at howner
        cases howner
      · exact absurd (h.running _ howner).1 (by decide)
  obtain ⟨t, houtcome, rfl⟩ := triggerCalibration_outcome hstep
  cases houtcome with
  | converting e hcur => exact absurd (hnone.symm.trans hcur) (by simp)
  | noneFree _ hall => exact absurd hfree (hall 0 (by decide))
  | started i _ hi hfree =>
    have haccount := h.account.getFree hids (.reserved i hi hfree)
    refine ⟨(haccount.congr ?_).mono ?_, ?_, h.running, fun _ => Option.some_ne_none _, ?_,
      fun _ _ => Option.some_ne_none _, ?_⟩
    · intro e _
      unfold Globals.Owns
      rw [hnone]
      simp [Globals.setPump, or_comm]
    · -- the timer is registered now: from here on nobody counts the element of the calibration
      rintro id (hid | ⟨hnot, -⟩)
      · exact Or.inl hid
      · cases hnot
    · intro e he
      obtain rfl := Option.some.inj he
      exact ⟨rfl, rfl, fun hnot => absurd (hdone.symm.trans hnot) (by decide), fun _ => rfl⟩
    · intro _
      rfl
    · intro hnot
      cases hnot

/-- What `dma1_ch1_isr` posts, and what becomes of it. -/
lemma dma1Ch1Isr_cases (he : s.curBuffer = some e) (hid : e.id =
      (if s.calibrationMeasurementDone then msgIdVoltageRaw else msgIdVoltageCalibration))
    (hstep : dma1Ch1Isr dataAddress s samples = some s') :
    ∃ r d, firmware.messageBuffers e.id = some d ∧
      PostOutcome d (s.state.pump.setData e (ofHalfWords samples)) e.id
        (pointerFrom dataAddress (s.state.pump.setData e (ofHalfWords samples)) e.id e) r ∧
      s' = { s.setPump r.2 with
        calibrationMeasurementDone := true, curBuffer := none, converting := false } := by
  have hd : ∃ d, firmware.messageBuffers e.id = some d := by
    rw [hid]
    split
    · exact ⟨_, lookup_voltageRaw⟩
    · exact ⟨_, lookup_voltageCalibration⟩
  obtain ⟨d, hd⟩ := hd
  unfold dma1Ch1Isr at hstep
  simp only [he, Option.map_some, ← hid] at hstep
  obtain ⟨r, hr, houtcome⟩ := postMessage_outcome (s.state.pump.setData e (ofHalfWords samples))
    (pointerFrom dataAddress (s.state.pump.setData e (ofHalfWords samples)) e.id e) hd
  rw [hr] at hstep
  exact ⟨r, d, hd, houtcome, (Option.some.inj hstep).symm⟩

lemma MeasuringInv.dma1Ch1Isr_cases (h : MeasuringInv s) (hconv : s.converting = true)
    (hstep : dma1Ch1Isr dataAddress s samples = some s') :
    ∃ e r d, s.curBuffer = some e ∧
      firmware.messageBuffers e.id = some d ∧
      e.id = (if s.calibrationMeasurementDone then msgIdVoltageRaw else msgIdVoltageCalibration) ∧
      PostOutcome d (s.state.pump.setData e (ofHalfWords samples)) e.id
        (pointerFrom dataAddress (s.state.pump.setData e (ofHalfWords samples)) e.id e) r ∧
      s' = { s.setPump r.2 with
        calibrationMeasurementDone := true, curBuffer := none, converting := false } := by
  obtain ⟨e, he⟩ := Option.ne_none_iff_exists'.mp (h.converting hconv)
  obtain ⟨-, -, hraw, hcalib⟩ := h.curBuffer e he
  have hid : e.id = (if s.calibrationMeasurementDone then msgIdVoltageRaw
      else msgIdVoltageCalibration) := by
    cases hdone : s.calibrationMeasurementDone with
    | true => exact (hraw hdone).1
    | false => exact hcalib hdone
  obtain ⟨r, d, hd, houtcome, heq⟩ := Measuring.dma1Ch1Isr_cases he hid hstep
  exact ⟨e, r, d, he, hd, hid, houtcome, heq⟩

/-- The books with what the DMA has written. -/
lemma MeasuringInv.written (h : MeasuringInv s) (e : Elem) (content : List UInt8) :
    Account firmware s.Ids s.Owns { s.state with pump := s.state.pump.setData e content } :=
  h.account.of_sameRing (sameRing_setData _ _) fun _ _ => rfl

/-- The post of a raw measurement gives it to the queue, or finds the queue full. -/
lemma MeasuringInv.postRaw {r : Bool × Pump} (h : MeasuringInv s) (he : s.curBuffer = some e)
    (hdone : s.calibrationMeasurementDone = true) (hd : firmware.messageBuffers e.id = some d)
    (hr : PostOutcome d (s.state.pump.setData e (ofHalfWords samples)) e.id
      (pointerFrom dataAddress (s.state.pump.setData e (ofHalfWords samples)) e.id e) r) :
    (r.2 = ((s.state.pump.setData e (ofHalfWords samples)).setHeader e .posted).enqueue
          (entryOf d e) ∧ ¬ s.state.pump.Full ∧
        Account firmware s.Ids (fun e' => s.Owns e' ∧ e' ≠ e) { s.state with pump := r.2 }) ∨
      (r = (false, s.state.pump.setData e (ofHalfWords samples)) ∧ s.state.pump.Full) := by
  obtain ⟨hid, hindex⟩ := (h.curBuffer e he).2.2.1 hdone
  have hpool : d = pwrMeasurementRaw := by
    rw [hid, lookup_voltageRaw] at hd
    exact (Option.some.inj hd).symm
  subst hpool
  have hptr := pointsTo_pointerFrom dataAddress (s.state.pump.setData e (ofHalfWords samples)) hd rfl
    hindex
  rcases (h.written e (ofHalfWords samples)).postOwned (Or.inl (Or.inl hid)) (Or.inl he) hd hptr hr
    with ⟨hok, hroom, hposted⟩ | ⟨heq, hfull⟩
  · exact Or.inl ⟨by rw [hok], hroom, hposted⟩
  · exact Or.inr ⟨heq, hfull⟩

/-- `dma1_ch1_isr` hands a raw measurement over if the queue has room; nobody counts the element of
the calibration. -/
lemma MeasuringInv.dma1Ch1Isr (h : MeasuringInv s) (hconv : s.converting = true)
    (hsafe : HandoverSafe s (.dma1Ch1Isr samples))
    (hstep : Measuring.dma1Ch1Isr dataAddress s samples = some s') : MeasuringInv s' := by
  obtain ⟨e, r, d, he, hd, hid, houtcome, rfl⟩ := h.dma1Ch1Isr_cases hconv hstep
  have hreg := (h.curBuffer e he).2.1
  refine ⟨?_, by simp, h.running, by simp, fun _ => hreg, by simp, ?_⟩
  · cases hdone : s.calibrationMeasurementDone with
    | true =>
      rcases h.postRaw he hdone hd houtcome with ⟨-, -, hposted⟩ | ⟨-, hfull⟩
      · apply hposted.congr
        intro e' _
        simp only [Globals.Owns, he, Option.some.injEq]
        constructor
        · rintro (hnone | hrunning)
          · cases hnone
          · -- `onRawMeasurement` has reserved a power state, not this raw measurement
            refine ⟨Or.inr hrunning, ?_⟩
            rintro rfl
            rw [if_pos hdone, (h.running e' hrunning).1] at hid
            exact absurd hid (by decide)
        · rintro ⟨heq | hrunning, hne⟩
          · exact absurd heq.symm hne
          · exact Or.inr hrunning
      · exact absurd hfull (hsafe hdone)
    | false =>
      rw [hdone, if_neg (by decide)] at hid
      -- the calibration, whose element is not counted
      have hnot : ¬ s.Ids e.id := by
        rw [hid]
        rintro (hmeasuring | ⟨hfalse, -⟩)
        · exact absurd hmeasuring (by unfold MeasuringId; decide)
        · exact absurd (hreg.symm.trans hfalse) (by decide)
      apply ((h.written e (ofHalfWords samples)).post hnot hd houtcome).congr
      intro e' hids
      have hne : e ≠ e' := fun heq => hnot (heq ▸ hids)
      simp [Globals.Owns, Globals.setPump, he, hne]
  · intro hfalse
    exact absurd (hreg.symm.trans hfalse) (by decide)

/-- When the queue is full the raw measurement is lost. -/
lemma MeasuringInv.dma1Ch1Isr_lost (h : MeasuringInv s) (hconv : s.converting = true)
    (hleak : ¬ HandoverSafe s (.dma1Ch1Isr samples))
    (hstep : Measuring.dma1Ch1Isr dataAddress s samples = some s') :
    ¬ Accounted firmware MeasuringId s'.Owns s'.state := by
  obtain ⟨e, r, d, he, hd, hid, houtcome, rfl⟩ := h.dma1Ch1Isr_cases hconv hstep
  simp only [HandoverSafe, Classical.not_imp, not_not] at hleak
  obtain ⟨hdone, hfull⟩ := hleak
  obtain ⟨hraw, hindex⟩ := (h.curBuffer e he).2.2.1 hdone
  rcases h.postRaw he hdone hd houtcome with ⟨-, hroom, -⟩ | ⟨rfl, -⟩
  · exact absurd hfull hroom
  · have hd' : firmware.messageBuffers e.id = some pwrMeasurementRaw := by
      rw [hraw, lookup_voltageRaw]
    refine ((h.written e (ofHalfWords samples)).mono fun _ => Or.inl).not_accounted (Or.inl he)
      (Or.inl hraw) hd' hindex ?_
    -- nothing refers to the element any more: the queue has not taken it
    rintro (hnone | hrunning)
    · cases hnone
    · have hstate := (h.running e hrunning).1
      rw [hraw] at hstate
      exact absurd hstate (by decide)

/-- What `onRawMeasurement` posts, and what becomes of it. -/
lemma runRawMeasurement_posting_cases
    (hstep : Measuring.runRawMeasurement dataAddress s (.posting e) = some s') :
    ∃ r, PostOutcome systemPowerState s.state.pump msgIdSystemPowerState
        (pointerFrom dataAddress s.state.pump msgIdSystemPowerState e) r ∧
      s' = { s.setPump r.2 with running := none } := by
  obtain ⟨r, hr, houtcome⟩ := postMessage_outcome s.state.pump
    (pointerFrom dataAddress s.state.pump msgIdSystemPowerState e) lookup_systemPowerState
  simp only [Measuring.runRawMeasurement, hr] at hstep
  exact ⟨r, houtcome, (Option.some.inj hstep).symm⟩

/-- The post of a power state gives it to the queue, or finds the queue full. -/
lemma MeasuringInv.postPowerState {r : Bool × Pump} (h : MeasuringInv s)
    (he : s.running = some (.posting e))
    (hr : PostOutcome systemPowerState s.state.pump msgIdSystemPowerState
      (pointerFrom dataAddress s.state.pump msgIdSystemPowerState e) r) :
    (r.2 = (s.state.pump.setHeader e .posted).enqueue (entryOf systemPowerState e) ∧
        ¬ s.state.pump.Full ∧
        Account firmware s.Ids (fun e' => s.Owns e' ∧ e' ≠ e) { s.state with pump := r.2 }) ∨
      (r = (false, s.state.pump) ∧ s.state.pump.Full) := by
  have hptr : s.running.bind RawMeasurementPc.powerStatePtr = some e := by rw [he]; rfl
  obtain ⟨hid, hindex⟩ := h.running e hptr
  have hpoints := pointsTo_pointerFrom dataAddress s.state.pump lookup_systemPowerState hid hindex
  have hd := lookup_systemPowerState
  rw [← hid] at hr hd hpoints
  rcases h.account.postOwned (Or.inl (Or.inr hid)) (Or.inr hptr) hd hpoints hr with
    ⟨hok, hroom, hposted⟩ | ⟨heq, hfull⟩
  · exact Or.inl ⟨by rw [hok], hroom, hposted⟩
  · exact Or.inr ⟨heq, hfull⟩

/-- What `onRawMeasurement` reserves, and whether it goes on. -/
lemma runRawMeasurement_entered_cases {dataPtr : Option Elem}
    (hstep : Measuring.runRawMeasurement dataAddress s (.entered dataPtr) = some s') :
    ∃ r, GetFreeOutcome systemPowerState s.state.pump msgIdSystemPowerState r ∧
      s' = { s.setPump r.2 with running := r.1.map (.filling dataPtr) } := by
  unfold Measuring.runRawMeasurement at hstep
  obtain ⟨⟨_ | e, p⟩, hr, houtcome⟩ := getFreeBuffer_outcome (p := s.state.pump)
    lookup_systemPowerState (by decide)
  all_goals
    rw [hr] at hstep
    exact ⟨_, houtcome, (Option.some.inj hstep).symm⟩

/-- `onRawMeasurement` reserves a power state, or gives up. -/
lemma MeasuringInv.runRawMeasurement_entered {dataPtr : Option Elem} (h : MeasuringInv s)
    (hpc : s.running = some (.entered dataPtr))
    (hstep : Measuring.runRawMeasurement dataAddress s (.entered dataPtr) = some s') :
    MeasuringInv s' := by
  obtain ⟨r, houtcome, rfl⟩ := runRawMeasurement_entered_cases hstep
  have haccount := h.account.getFree (Or.inl (Or.inr rfl)) houtcome
  have hheld := held_of_sameRing (s := s.state) houtcome.sameRing
  cases houtcome with
  | reserved i hi hfree =>
    refine ⟨haccount.congr ?_, h.curBuffer, ?_, h.converting, h.registered, h.calibrating, ?_⟩
    · intro e _
      simp [Globals.Owns, Globals.setPump, hpc, RawMeasurementPc.powerStatePtr]
    · intro e he
      obtain rfl := Option.some.inj he
      exact ⟨rfl, hi⟩
    · intro hreg e he
      exact h.notQueued hreg e (hheld ▸ he)
  | noneFree hall =>
    refine ⟨h.account.congr ?_, h.curBuffer, by simp, h.converting, h.registered, h.calibrating,
      h.notQueued⟩
    intro e _
    simp [Globals.Owns, Globals.setPump, hpc, RawMeasurementPc.powerStatePtr]

/-- `onRawMeasurement` fills its power state. -/
lemma MeasuringInv.runRawMeasurement_filling {dataPtr : Option Elem} (h : MeasuringInv s)
    (hpc : s.running = some (.filling dataPtr e)) (content : List UInt8) :
    MeasuringInv { s.setPump (s.state.pump.setData e content) with running := some (.posting e) } := by
  have hptr : s.running.bind RawMeasurementPc.powerStatePtr = some e := by rw [hpc]; rfl
  refine ⟨(h.written e content).congr ?_, h.curBuffer, ?_, h.converting, h.registered,
    h.calibrating, ?_⟩
  · intro e' _
    simp [Globals.Owns, Globals.setPump, hpc, RawMeasurementPc.powerStatePtr]
  · intro e' he'
    apply h.running e'
    rw [hptr]
    exact he'
  · intro hreg e' he'
    exact h.notQueued hreg e' ((held_of_sameRing (s := s.state) (sameRing_setData e _)) ▸ he')

/-- `onRawMeasurement` hands its power state over, if the queue has room. -/
lemma MeasuringInv.runRawMeasurement_posting (h : MeasuringInv s)
    (hpc : s.running = some (.posting e)) (hroom : ¬ s.state.pump.Full)
    (hstep : Measuring.runRawMeasurement dataAddress s (.posting e) = some s') :
    MeasuringInv s' := by
  have hptr : s.running.bind RawMeasurementPc.powerStatePtr = some e := by rw [hpc]; rfl
  have hid := (h.running e hptr).1
  obtain ⟨r, houtcome, rfl⟩ := runRawMeasurement_posting_cases hstep
  refine ⟨?_, h.curBuffer, by simp, h.converting, h.registered, h.calibrating, ?_⟩
  · rcases h.postPowerState hpc houtcome with ⟨-, -, hposted⟩ | ⟨-, hfull⟩
    · apply hposted.congr
      intro e' _
      simp only [Globals.Owns, hptr]
      constructor
      · rintro (hcur | hnone)
        · exact ⟨Or.inl hcur, fun heq => h.curBuffer_id_ne hcur (heq ▸ hid)⟩
        · simp at hnone
      · rintro ⟨hcur | heq, hne⟩
        · exact Or.inl hcur
        · exact absurd (Option.some.inj heq).symm hne
    · exact absurd hfull hroom
  · intro hreg e' he'
    change e' ∈ PumpState.held { s.state with pump := r.2 } at he'
    rcases held_post h.account.wellFormed houtcome with hsame | ⟨i, hmore⟩
    · exact h.notQueued hreg e' (hsame ▸ he')
    · rw [hmore, List.mem_append, List.mem_singleton] at he'
      rcases he' with hin | rfl
      · exact h.notQueued hreg e' hin
      · exact (by decide : msgIdSystemPowerState ≠ msgIdVoltageCalibration)

/-- `onRawMeasurement` reserves a power state, fills it, and hands it over if the queue has room. -/
lemma MeasuringInv.runRawMeasurement {pc : RawMeasurementPc} (h : MeasuringInv s)
    (hpc : s.running = some pc) (hsafe : HandoverSafe s .runRawMeasurement)
    (hstep : Measuring.runRawMeasurement dataAddress s pc = some s') : MeasuringInv s' := by
  cases pc with
  | entered dataPtr => exact h.runRawMeasurement_entered hpc hstep
  | filling dataPtr e =>
    obtain rfl := Option.some.inj hstep
    exact h.runRawMeasurement_filling hpc _
  | posting e => exact h.runRawMeasurement_posting hpc (hsafe e hpc) hstep

/-- When the queue is full the power state is lost. -/
lemma MeasuringInv.runRawMeasurement_lost {pc : RawMeasurementPc} (h : MeasuringInv s)
    (hpc : s.running = some pc) (hleak : ¬ HandoverSafe s .runRawMeasurement)
    (hstep : Measuring.runRawMeasurement dataAddress s pc = some s') :
    ¬ Accounted firmware MeasuringId s'.Owns s'.state := by
  simp only [HandoverSafe, not_forall, not_not] at hleak
  obtain ⟨e, he, hfull⟩ := hleak
  obtain rfl := Option.some.inj (hpc.symm.trans he)
  have hptr : s.running.bind RawMeasurementPc.powerStatePtr = some e := by rw [hpc]; rfl
  obtain ⟨hid, hindex⟩ := h.running e hptr
  obtain ⟨r, houtcome, rfl⟩ := runRawMeasurement_posting_cases hstep
  rcases h.postPowerState hpc houtcome with ⟨-, hroom, -⟩ | ⟨rfl, -⟩
  · exact absurd hfull hroom
  · have hd : firmware.messageBuffers e.id = some systemPowerState := by
      rw [hid, lookup_systemPowerState]
    refine (h.account.mono fun _ => Or.inl).not_accounted (Or.inr hptr) (Or.inr hid) hd hindex ?_
    rintro (hcur | hnone)
    · exact h.curBuffer_id_ne hcur hid
    · simp at hnone

/-- The invariant is not about the offsets. -/
lemma MeasuringInv.setOffsets (h : MeasuringInv s) (offsets : List Int32) :
    MeasuringInv { s with offsetVoltages := offsets } :=
  ⟨h.account, h.curBuffer, h.running, h.converting, h.registered, h.calibrating, h.notQueued⟩

/-- A step of the loop of the pump, and the callback it calls. -/
lemma dispatchStep_cases (hwf : WellFormed firmware s.state) (hstep : dispatchStep s = some s') :
    s.running = none ∧ ∃ r, DispatchOutcome firmware s.state r ∧
      ((r.2 = none ∧ s' = { s with state := r.1 }) ∨
        ∃ m rest call, s.state.pump.queue = m :: rest ∧ r.2 = some call ∧
          s' = callback { s with state := r.1, calls := s.calls ++ [call] } m.buffer call) := by
  unfold dispatchStep at hstep
  split at hstep
  · cases hstep
  rename_i hrunning
  rw [Bool.not_eq_true, Option.isSome_eq_false_iff, Option.isNone_iff_eq_none] at hrunning
  obtain ⟨⟨state, call⟩, hr, houtcome⟩ := dispatch_outcome hwf
  rw [hr] at hstep
  refine ⟨hrunning, (state, call), houtcome, ?_⟩
  cases call with
  | none => exact Or.inl ⟨rfl, (Option.some.inj hstep).symm⟩
  | some call =>
    obtain ⟨i, m, rest, hpc, -⟩ := houtcome.of_call rfl
    have hbusy := hwf.busy (by simp [hpc])
    exact Or.inr ⟨_, _, call, hwf.ring.queue_eq_cons hbusy, rfl, (Option.some.inj hstep).symm⟩

/-- A callback other than `onRawMeasurement` changes at most the offsets. -/
lemma callback_of_ne (g : Globals) (dataPtr : Option Elem) {call : Call}
    (hne : call.callback ≠ onRawMeasurement) :
    ∃ offsets, callback g dataPtr call = { g with offsetVoltages := offsets } := by
  unfold callback
  rw [if_neg hne]
  split
  · exact ⟨_, rfl⟩
  · exact ⟨g.offsetVoltages, rfl⟩

/-- A step of the loop of the pump. -/
lemma MeasuringInv.dispatch (h : MeasuringInv s) (hstep : dispatchStep s = some s') :
    MeasuringInv s' := by
  obtain ⟨hrunning, r, houtcome, hcases⟩ := dispatchStep_cases h.account.wellFormed hstep
  have haccount := h.account.dispatch houtcome
  have hheld : ∀ e ∈ r.1.held, e ∈ s.state.held := by
    intro e he
    rcases held_dispatch houtcome with heq | ⟨m, -, -, -, heq⟩
    · exact heq ▸ he
    · rw [heq]
      exact List.mem_append_right _ he
  -- the loop alone; the callback adds a power state to the owners, or sets the offsets
  have hbase : ∀ calls, MeasuringInv { s with state := r.1, calls := calls } := fun calls =>
    ⟨haccount, h.curBuffer, h.running, h.converting, h.registered, h.calibrating,
      fun hreg e he => h.notQueued hreg e (hheld e he)⟩
  rcases hcases with ⟨-, rfl⟩ | ⟨m, rest, call, -, -, rfl⟩
  · exact hbase s.calls
  · have hnext := hbase (s.calls ++ [call])
    by_cases hraw : call.callback = onRawMeasurement
    · rw [callback, if_pos hraw]
      refine ⟨hnext.account.congr ?_, hnext.curBuffer, by simp [RawMeasurementPc.powerStatePtr],
        hnext.converting, hnext.registered, hnext.calibrating, hnext.notQueued⟩
      intro e _
      simp [Globals.Owns, hrunning, RawMeasurementPc.powerStatePtr]
    · obtain ⟨offsets, hoffsets⟩ := callback_of_ne
        { s with state := r.1, calls := s.calls ++ [call] } m.buffer hraw
      rw [hoffsets]
      exact hnext.setOffsets _

/-! ## Any step -/

/-- A step that hands nothing over to a full queue keeps the invariant. -/
theorem MeasuringInv.step {a : MeasuringAction} (h : MeasuringInv s) (hsafe : HandoverSafe s a)
    (hstep : measuringStep dataAddress s a = some s') : MeasuringInv s' := by
  cases moves_of_measuringStep hstep with
  | triggerCalibration hreg ht => exact h.triggerCalibration hreg ht
  | triggerMeasurement hreg ht => exact h.triggerMeasurement hreg ht
  | dma1Ch1Isr samples hconv ht => exact h.dma1Ch1Isr hconv hsafe ht
  | runRawMeasurement pc hpc ht => exact h.runRawMeasurement hpc hsafe ht
  | dispatch ht => exact h.dispatch ht
  | post id ptr d r hid hd houtcome => exact h.post hid hd houtcome
  | getFreeBuffer id d r hid hd houtcome =>
    apply h.setPump_of_sameRing (h.account.getFreeOther (not_ids_of_other hid) houtcome)
    exact houtcome.sameRing
  | lock e hid =>
    exact h.setPump_of_sameRing (h.account.lockOther (not_ids_of_other hid)) (sameRing_lockMessage _)
  | unlock e hid =>
    exact h.setPump_of_sameRing (h.account.unlockOther (not_ids_of_other hid))
      (sameRing_unlockMessage _)
  | stay a => exact h

/-- Any other step loses an element. -/
theorem MeasuringInv.step_lost {a : MeasuringAction} (h : MeasuringInv s)
    (hleak : ¬ HandoverSafe s a) (hstep : measuringStep dataAddress s a = some s') :
    ¬ Accounted firmware MeasuringId s'.Owns s'.state := by
  cases a with
  | dma1Ch1Isr samples =>
    simp only [measuringStep] at hstep
    split at hstep
    · rename_i hconv
      exact h.dma1Ch1Isr_lost hconv hleak hstep
    · cases hstep
  | runRawMeasurement =>
    obtain ⟨pc, hpc, hstep⟩ := Option.bind_eq_some_iff.mp hstep
    exact h.runRawMeasurement_lost hpc hleak hstep
  | triggerCalibration | triggerMeasurement | dispatch | post | getFreeBuffer | lock | unlock =>
    exact absurd trivial hleak

/-- When the queue is empty and no callback runs, only `g_curBuffer` is not free. -/
lemma MeasuringInv.free_of_drained (h : MeasuringInv s) (hdrained : s.Drained)
    (hid : MeasuringId e.id) (hcur : s.curBuffer ≠ some e) : s.state.pump.header e = .free := by
  obtain ⟨hsize, hrunning⟩ := hdrained
  have hheld : s.state.held = [] := by
    rw [← List.length_eq_zero_iff, ← Nat.le_zero, ← hsize]
    exact length_held_le s.state
  apply h.account.others e (Or.inl hid)
  · rw [hheld]
    simp
  · rintro (howner | howner)
    · exact hcur howner
    · rw [hrunning] at howner
      simp at howner

end Powerboard.Measuring
