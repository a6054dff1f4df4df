import Powerboard.Application.MeasurementsTheorems

/-!
# The steps of a measurement

Each step of `measuring.c`, from the start of a conversion to the post of the power state, is followed
by steps of a client that keeps the rules.
-/

namespace Powerboard.Application

open Bytes Machine MsgPump Measuring

section Steps
variable {v : MsgId → ℕ → Option Callback} {s s' : Measurements} {c c' : Clients} {e : Elem}
  {pc pc' : RawMeasurementPc} {i : ℕ} {dataAddress : MsgId → ℤ} {a : ClientAction}

/-- A step of another client. -/
theorem simulated_client (h : Follows v s c) (hh : Histories v s c) (hv : MeasuringCallbacks v)
    (ha : KeepsOff a) {o : Clients} (hstep : clientStep firmware s.others a = some o)
    (hs' : s' = { s with
      globals := { s.globals with state := o.state }
      reserved := o.reserved
      locks := o.locks }) : Simulated v s c s' True := by
  obtain ⟨c', hc', hstate, hlocks, hreserved⟩ :=
    clientStep_congr ha h.state h.locks h.reserved hstep
  have hoff := clientStep_offPools ha hc'
  have hdispatch : a ≠ .dispatch := by
    rintro rfl
    exact ha
  obtain ⟨hframe, hcontents⟩ := clientStep_frame h.delivery hdispatch hc'
  have hdata : ∀ e, e.id = msgIdVoltageRaw ∧ e ∈ c.state.held ∨
      s.globals.running.bind RawMeasurementPc.powerStatePtr = some e →
        c'.state.pump.data e = c.state.pump.data e := by
    rintro e (⟨hid, -⟩ | he)
    · exact hoff.data e (Or.inl hid)
    · exact hoff.data e (h.measuring_powerState he)
  obtain ⟨hhistories, hkept⟩ := hh.of_same s' hframe.posted
    (fun id hid => hcontents id (ha.not_posts hid)) (by rw [hframe.calls]) (by rw [hs'])
    (by rw [hs']) (by rw [hs']) (by rw [hs']; rfl)
    (hh.running_of_frame s' hv hframe (by rw [hs']) (by rw [hs']) hdata)
  subst hs'
  refine ⟨[a], c', (exec_cons_eq_some _).mpr ⟨c', hc', rfl⟩, ⟨?_, hhistories⟩,
    hkept.trans (and_iff_left trivial).symm⟩
  refine ⟨h.delivery.step hc', hstate, hframe.calls.trans h.calls, hlocks, hreserved, ?_, ?_, ?_,
    h.converting, h.calibrating, ?_⟩
  · intro e he
    rw [hoff.locks e he]
    exact h.unlocked e he
  · intro e he
    rw [hoff.reserved e (h.measuring_curBuffer he)]
    exact h.curBuffer e he
  · intro e he
    rw [hoff.reserved e (h.measuring_powerState he)]
    exact h.powerState e he
  · intro hreg
    obtain ⟨hcur, hdone, haccount⟩ := h.fresh hreg
    exact ⟨hcur, hdone, hoff.account _ _ (fun id hid => Or.inr (Or.inr hid)) haccount⟩

/-- `dma1_ch1_isr` writes the samples to `g_curBuffer` and hands it over. -/
theorem simulated_dma1Ch1Isr (h : Follows v s c) (hh : Histories v s c) (hv : MeasuringCallbacks v)
    {samples : List UInt16} {globals : Measuring.Globals} (hconv : s.globals.converting = true)
    (hstep : dma1Ch1Isr dataAddress s.globals samples = some globals) :
    Simulated v s c
      { s with globals := globals, conversions := s.conversions ++ [samples] }
      (¬ s.globals.state.pump.Full) := by
  obtain ⟨e, he⟩ := Option.ne_none_iff_exists'.mp (h.converting hconv)
  obtain ⟨hres, hid⟩ := h.curBuffer e he
  have hmeasuring := h.measuring_curBuffer he
  -- the rules allow the write
  obtain ⟨c1, hc1⟩ : ∃ c1, c1 = c.setPump (c.state.pump.setData e (ofHalfWords samples)) := ⟨_, rfl⟩
  have hwrite : clientStep firmware c (.write e (ofHalfWords samples)) = some c1 := by
    rw [hc1]
    exact if_pos hres
  have hdelivery1 : DeliveryInv firmware v c1 := h.delivery.step hwrite
  obtain ⟨r, c', hpost, hand⟩ := handOver dataAddress hdelivery1 (e := e)
    (by rw [hc1]; exact hres) (by rw [hc1]; exact h.unlocked e hmeasuring)
  have hframe1 := (clientStep_frame h.delivery (by simp) hwrite).1
  have hframe := hframe1.trans (clientStep_frame hdelivery1 (by simp) hand.step).1
  have hpump1 : c1.state.pump = c.state.pump.setData e (ofHalfWords samples) := by
    rw [hc1]
    rfl
  have hposted : c'.posted = c.posted ++ if r.1 then [(e.id, ofHalfWords samples)] else [] := by
    have hdata1 : c1.state.pump.data e = ofHalfWords samples := by
      rw [hpump1]
      exact Function.update_self _ _ _
    rw [hand.posted, hdata1, hc1]
    rfl
  -- the same post is made by `dma1_ch1_isr`
  unfold dma1Ch1Isr at hstep
  simp only [he, Option.map_some, ← hid, ← h.state] at hstep
  rw [hpump1] at hpost
  rw [hpost] at hstep
  obtain rfl := Option.some.inj hstep
  have hheld : ∀ e', e' ∈ c.state.held → e' ≠ e := by
    rintro e' he' rfl
    exact (h.delivery.reserved e' hres).1 he'
  have hdata : ∀ e', e'.id = msgIdVoltageRaw ∧ e' ∈ c.state.held ∨
      s.globals.running.bind RawMeasurementPc.powerStatePtr = some e' →
        c'.state.pump.data e' = c.state.pump.data e' := by
    intro e' he'
    have hne : e' ≠ e := by
      rcases he' with ⟨-, hin⟩ | hq
      · exact hheld e' hin
      · exact h.curBuffer_ne he hq
    rw [hand.state, hand.data, hpump1]
    exact Function.update_of_ne hne _ _
  obtain ⟨hhistories, hkept⟩ := hh.converted
    { s with
      globals := { s.globals.setPump r.2 with
        calibrationMeasurementDone := true, curBuffer := none, converting := false }
      conversions := s.conversions ++ [samples] }
    (hid ▸ hposted)
    ⟨hframe.calls, rfl, rfl, rfl, rfl, hh.running_of_frame _ hv hframe rfl rfl hdata⟩
  refine ⟨[.write e (ofHalfWords samples), .postReserved e], c', ?_, ⟨?_, ?_⟩, ?_⟩
  · exact (exec_cons_eq_some _).mpr ⟨c1, hwrite, (exec_cons_eq_some _).mpr ⟨c', hand.step, rfl⟩⟩
  · refine ⟨hdelivery1.step hand.step, ?_, hframe.calls.trans h.calls, ?_, ?_,
      ?_, ?_, ?_, ?_, ?_, ?_⟩
    · rw [hand.state, hc1]
      simp [Clients.setPump, Globals.setPump, h.state]
    · rw [hand.locks, hc1]
      exact h.locks
    · intro e' he'
      rw [hand.reserved e' fun heq => he' (heq ▸ hmeasuring), hc1]
      exact h.reserved e' he'
    · intro e' he'
      rw [hand.locks, hc1]
      exact h.unlocked e' he'
    · intro e' he'
      cases he'
    · intro q hq
      rw [hand.reserved q (h.curBuffer_ne he hq), hc1]
      exact h.powerState q hq
    · intro hfalse
      cases hfalse
    · intro _ hfalse
      cases hfalse
    · intro hreg
      rw [(h.fresh hreg).1] at he
      cases he
  · exact hhistories
  · rw [hkept, hand.success, hpump1, h.state]
    rfl

/-- `onRawMeasurement` hands its power state over. -/
theorem simulated_posting (h : Follows v s c) (hh : Histories v s c) (hv : MeasuringCallbacks v)
    {q : Elem} {globals : Measuring.Globals} (hpc : s.globals.running = some (.posting q))
    (hstep : runRawMeasurement dataAddress s.globals (.posting q) = some globals) :
    Simulated v s c { s with globals := globals } (¬ s.globals.state.pump.Full) := by
  have hq : s.globals.running.bind RawMeasurementPc.powerStatePtr = some q := by rw [hpc]; rfl
  obtain ⟨hres, hid⟩ := h.powerState q hq
  have hmeasuring := h.measuring_powerState hq
  obtain ⟨r, c', hpost, hand⟩ := handOver dataAddress h.delivery hres (h.unlocked q hmeasuring)
  have hframe := (clientStep_frame h.delivery (by simp) hand.step).1
  obtain ⟨i, e, hcall⟩ := hh.running _ hpc
  have hposted := hand.posted
  have hworks : c.state.pump.data q = _ := hcall.worksOn
  rw [hid, hworks] at hposted
  rw [h.state, hid] at hpost
  simp only [runRawMeasurement, hpost] at hstep
  obtain rfl := Option.some.inj hstep
  obtain ⟨hhistories, hkept⟩ := hh.returns h hv hpc hcall
    { s with globals := { s.globals.setPump r.2 with running := none } } r.1 hposted hframe.calls rfl rfl
    rfl rfl rfl
  refine ⟨[.postReserved q], c', (exec_cons_eq_some _).mpr ⟨c', hand.step, rfl⟩, ⟨?_, hhistories⟩, ?_⟩
  · refine ⟨h.delivery.step hand.step, ?_, hframe.calls.trans h.calls, hand.locks.trans h.locks, ?_, ?_,
      ?_, ?_, h.converting, h.calibrating, ?_⟩
    · rw [hand.state, h.state]
      rfl
    · intro e' he'
      rw [hand.reserved e' fun heq => he' (heq ▸ hmeasuring)]
      exact h.reserved e' he'
    · intro e' he'
      rw [hand.locks]
      exact h.unlocked e' he'
    · intro e' he'
      rw [hand.reserved e' (h.curBuffer_ne he' hq).symm]
      exact h.curBuffer e' he'
    · intro e' he'
      cases he'
    · intro hreg
      obtain ⟨hcur, hdone, haccount⟩ := h.fresh hreg
      refine ⟨hcur, hdone, hand.account _ _ ?_ haccount⟩
      rw [hid]
      decide
  · rw [hkept, hand.success, h.state]

/-- `onRawMeasurement` fills its power state. -/
theorem simulated_filling (h : Follows v s c) (hh : Histories v s c) {dataPtr : Option Elem}
    {q : Elem} {globals : Measuring.Globals}
    (hpc : s.globals.running = some (.filling dataPtr q))
    (hstep : runRawMeasurement dataAddress s.globals (.filling dataPtr q) = some globals) :
    Simulated v s c { s with globals := globals } True := by
  have hq : s.globals.running.bind RawMeasurementPc.powerStatePtr = some q := by rw [hpc]; rfl
  obtain ⟨hres, hid⟩ := h.powerState q hq
  obtain ⟨i, e, hcall⟩ := hh.running _ hpc
  obtain rfl : dataPtr = some e := hcall.worksOn
  obtain rfl := Option.some.inj hstep
  obtain ⟨c', hc'⟩ : ∃ c', c' = c.setPump (c.state.pump.setData q
    (powerStateOf s.globals.offsetVoltages (c.state.pump.data e))) := ⟨_, rfl⟩
  have hwrite : clientStep firmware c (.write q
      (powerStateOf s.globals.offsetVoltages (c.state.pump.data e))) = some c' := by
    rw [hc']
    exact if_pos hres
  have hframe := (clientStep_frame h.delivery (by simp) hwrite).1
  have hne : e ≠ q := by
    rintro rfl
    obtain ⟨rest, hheld⟩ := hcall.held
    exact (h.delivery.reserved e hres).1 (hheld ▸ List.mem_cons_self)
  have hworks : WorksOn s.globals.offsetVoltages c'.state.pump e (.posting q) := by
    rw [hc']
    show Function.update c.state.pump.data q _ q = _
    rw [Function.update_self]
    congr 1
    exact (Function.update_of_ne hne _ _).symm
  obtain ⟨s', hs'⟩ : ∃ s' : Measurements, s' = { s with
    globals := { s.globals.setPump (s.globals.state.pump.setData q (powerStateOf
      s.globals.offsetVoltages (s.globals.state.pump.data e))) with
        running := some (.posting q) } } := ⟨_, rfl⟩
  have hrunning : ∀ pc, s'.globals.running = some pc → ∃ i e, InRaw v s' c' pc i e := by
    intro pc hpc'
    rw [hs'] at hpc'
    obtain rfl := Option.some.inj hpc'
    exact ⟨i, e, hcall.of_frame hframe (by rw [hs']; exact hworks)⟩
  have hreturned : s'.returned = s.returned := by
    simp only [Measurements.returned, hs', Globals.setPump, hpc, Option.isSome_some]
  obtain ⟨hhistories, hkept⟩ := hh.of_same s' hframe.posted (fun _ _ => by rw [hc']; rfl)
    (by rw [hframe.calls]) (by rw [hs']) (by rw [hs']; rfl) (by rw [hs']; rfl) (by rw [hreturned])
    hrunning
  subst hs'
  refine ⟨[.write q _], c', (exec_cons_eq_some _).mpr ⟨c', hwrite, rfl⟩, ⟨?_, hhistories⟩,
    hkept.trans (and_iff_left trivial).symm⟩
  subst hc'
  refine ⟨h.delivery.step hwrite, ?_, h.calls, h.locks, h.reserved, h.unlocked, h.curBuffer, ?_,
    h.converting, h.calibrating, ?_⟩
  · simp only [Clients.setPump, Globals.setPump, h.state]
    rfl
  · intro e' he'
    obtain rfl := Option.some.inj he'
    exact ⟨hres, hid⟩
  · intro hreg
    obtain ⟨hcur, hdone, haccount⟩ := h.fresh hreg
    exact ⟨hcur, hdone, haccount.of_sameRing (sameRing_setData q _) fun _ _ => rfl⟩

/-- A reservation by `measuring.c`. -/
lemma Follows.reserve (h : Follows v s c) (s' : Measurements) {id : MsgId} {j : ℕ} {d : BufDescription}
    (hid : MeasuringMessage id) (hj : j < d.msgAmount)
    (hfree : s.globals.state.pump.header ⟨id, j⟩ = .free)
    (hget : MsgPump.getFreeBuffer firmware s.globals.state.pump id =
      .ok (some ⟨id, j⟩, s.globals.state.pump.setHeader ⟨id, j⟩ .reserved))
    (hs' : s'.globals.state = { s.globals.state with
      pump := s.globals.state.pump.setHeader ⟨id, j⟩ .reserved })
    (hcalls : s'.globals.calls = s.globals.calls) (hlocks : s'.locks = s.locks)
    (hreserved : s'.reserved = s.reserved)
    (hcurBuffer : ∀ e, s'.globals.curBuffer = some e →
      (s.globals.curBuffer = some e ∨ e = ⟨id, j⟩) ∧ e.id =
        if s'.globals.calibrationMeasurementDone then msgIdVoltageRaw else msgIdVoltageCalibration)
    (hpowerState : ∀ e, s'.globals.running.bind RawMeasurementPc.powerStatePtr = some e →
      (s.globals.running.bind RawMeasurementPc.powerStatePtr = some e ∨ e = ⟨id, j⟩) ∧
        e.id = msgIdSystemPowerState)
    (hconverting : s'.globals.converting = true → s'.globals.curBuffer ≠ none)
    (hcalibrating : s'.globals.timerRegistered = true →
      s'.globals.calibrationMeasurementDone = false → s'.globals.curBuffer ≠ none)
    (hfresh : s'.globals.timerRegistered = false → s.globals.timerRegistered = false ∧
      s'.globals.curBuffer = none ∧ s'.globals.calibrationMeasurementDone = false ∧
      id ≠ msgIdVoltageCalibration) :
    ∃ c', clientStep firmware c (.getFreeBuffer id) = some c' ∧ Follows v s' c' ∧
      ClientFrame c c' ∧ c'.posted = c.posted ∧ c'.state.pump.data = c.state.pump.data := by
  obtain ⟨c', hc'⟩ : ∃ c', c' = { c.setPump (s.globals.state.pump.setHeader ⟨id, j⟩ .reserved) with
    reserved := Function.update c.reserved ⟨id, j⟩ true } := ⟨_, rfl⟩
  have hreserve : clientStep firmware c (.getFreeBuffer id) = some c' := by
    rw [show s.globals.state.pump = c.state.pump by rw [h.state]] at hget hc'
    simp only [clientStep]
    rw [hget, hc']
  have hframe := (clientStep_frame h.delivery (by simp) hreserve).1
  have hupdate {e : Elem} (he : c.reserved e = true ∨ e = ⟨id, j⟩) : c'.reserved e = true := by
    rw [hc']
    by_cases heq : e = ⟨id, j⟩
    · rw [heq]
      exact Function.update_self _ _ _
    · exact (Function.update_of_ne heq _ _).trans (he.resolve_right heq)
  refine ⟨c', hreserve, ⟨h.delivery.step hreserve, ?_, ?_, ?_, ?_, ?_, ?_, ?_, hconverting,
    hcalibrating, ?_⟩, hframe, ?_, ?_⟩
  · rw [hc', hs', ← h.state]
    rfl
  · rw [hcalls, ← h.calls, hframe.calls]
  · rw [hlocks, hc', ← h.locks]
    rfl
  · intro e he
    rw [hreserved, hc', ← h.reserved e he]
    exact Function.update_of_ne (fun heq : e = ⟨id, j⟩ => he (heq ▸ hid)) _ _
  · rw [hc']
    exact h.unlocked
  · intro e he
    obtain ⟨hold, heid⟩ := hcurBuffer e he
    exact ⟨hupdate (hold.imp_left fun hcur => (h.curBuffer e hcur).1), heid⟩
  · intro e he
    obtain ⟨hold, heid⟩ := hpowerState e he
    exact ⟨hupdate (hold.imp_left fun hq => (h.powerState e hq).1), heid⟩
  · intro hreg
    obtain ⟨hold, hcur, hdone, hne⟩ := hfresh hreg
    refine ⟨hcur, hdone, ?_⟩
    rw [hc']
    have haccount := (h.fresh hold).2.2
    rw [h.state] at haccount
    have houtcome : GetFreeOutcome d s.globals.state.pump id
        (some ⟨id, j⟩, s.globals.state.pump.setHeader ⟨id, j⟩ .reserved) := .reserved j hj hfree
    have hother := haccount.getFreeOther hne houtcome
    rw [← h.state] at hother ⊢
    exact hother
  · rw [hc']
    rfl
  · rw [hc', h.state]
    rfl

/-- `onRawMeasurement` reserves an element for the power state, or gives up. -/
theorem simulated_entered (h : Follows v s c) (hh : Histories v s c) (hv : MeasuringCallbacks v)
    {dataPtr : Option Elem} {globals : Measuring.Globals}
    (hpc : s.globals.running = some (.entered dataPtr))
    (hstep : runRawMeasurement dataAddress s.globals (.entered dataPtr) = some globals) :
    Simulated v s c { s with globals := globals } (∃ i < systemPowerState.msgAmount,
      (s.globals.state.pump.header ⟨msgIdSystemPowerState, i⟩).IsFree) := by
  obtain ⟨i, e, hcall⟩ := hh.running _ hpc
  obtain rfl : dataPtr = some e := hcall.worksOn
  obtain ⟨r, hget, hr⟩ := getFreeBuffer_outcome (p := s.globals.state.pump)
    lookup_systemPowerState (by decide)
  simp only [runRawMeasurement] at hstep
  rw [hget] at hstep
  cases hr with
  | noneFree hnone =>
    obtain rfl := Option.some.inj hstep
    obtain ⟨hhistories, hkept⟩ := hh.returns h hv hpc hcall
      { s with globals := { s.globals with running := none } } false
      (List.append_nil _).symm rfl rfl rfl rfl rfl rfl
    refine ⟨[], c, rfl, ⟨?_, hhistories⟩, ?_⟩
    · refine ⟨h.delivery, h.state, h.calls, h.locks, h.reserved, h.unlocked, h.curBuffer, ?_,
        h.converting, h.calibrating, h.fresh⟩
      intro e' he'
      cases he'
    · refine hkept.trans (and_congr_right fun _ => iff_of_false Bool.false_ne_true ?_)
      rintro ⟨j, hj, hfree⟩
      exact hnone j hj (MsgHeader.isFree_iff.mp hfree)
  | reserved j hj hfree =>
    obtain rfl := Option.some.inj hstep
    obtain ⟨s', hs'⟩ : ∃ s' : Measurements, s' = { s with
      globals := { s.globals.setPump (s.globals.state.pump.setHeader
        ⟨msgIdSystemPowerState, j⟩ .reserved) with
          running := some (.filling (some e) ⟨msgIdSystemPowerState, j⟩) } } := ⟨_, rfl⟩
    rw [← hs']
    obtain ⟨c', hc', hfollows, hframe, hposted, hdata⟩ := h.reserve s' (Or.inr (Or.inl rfl))
      hj hfree hget (by rw [hs']; rfl) (by rw [hs']; rfl) (by rw [hs']) (by rw [hs'])
      (by
        intro e' he'
        rw [hs'] at he' ⊢
        exact ⟨Or.inl he', (h.curBuffer e' he').2⟩)
      (by
        intro e' he'
        rw [hs'] at he'
        obtain rfl := Option.some.inj he'
        exact ⟨Or.inr rfl, rfl⟩)
      (by rw [hs']; exact h.converting) (by rw [hs']; exact h.calibrating)
      (by
        intro hreg
        rw [hs'] at hreg ⊢
        obtain ⟨hcur, hdone, -⟩ := h.fresh hreg
        exact ⟨hreg, hcur, hdone, by decide⟩)
    have hrunning : ∀ pc, s'.globals.running = some pc → ∃ i e, InRaw v s' c' pc i e := by
      intro pc hpc'
      rw [hs'] at hpc'
      obtain rfl := Option.some.inj hpc'
      exact ⟨i, e, hcall.of_frame hframe rfl⟩
    have hreturned : s'.returned = s.returned := by
      simp only [Measurements.returned, hs', Globals.setPump, hpc, Option.isSome_some]
    obtain ⟨hhistories, hkept⟩ := hh.of_same s' hframe.posted (fun _ _ => by rw [hposted])
      (by rw [hframe.calls]) (by rw [hs']) (by rw [hs']; rfl) (by rw [hs']; rfl) (by rw [hreturned])
      hrunning
    exact ⟨[.getFreeBuffer _], c', (exec_cons_eq_some _).mpr ⟨c', hc', rfl⟩, ⟨hfollows, hhistories⟩,
      hkept.trans (and_iff_left ⟨j, hj, MsgHeader.isFree_iff.mpr hfree⟩).symm⟩

/-- Measuring goes on with nothing reserved. -/
lemma Follows.register (h : Follows v s c)
    (hcalibrating : s.globals.calibrationMeasurementDone = false → s.globals.curBuffer ≠ none) :
    Follows v { s with globals := { s.globals with timerRegistered := true } } c := by
  refine ⟨h.delivery, h.state, h.calls, h.locks, h.reserved, h.unlocked, h.curBuffer, h.powerState,
    h.converting, fun _ => hcalibrating, ?_⟩
  intro hreg
  cases hreg

lemma Histories.register (hh : Histories v s c) :
    Histories v { s with globals := { s.globals with timerRegistered := true } } c ∧
      (Kept { s with globals := { s.globals with timerRegistered := true } } c ↔ Kept s c) := by
  refine hh.of_same { s with globals := { s.globals with timerRegistered := true } }
    (List.prefix_refl _) (fun _ _ => rfl) rfl rfl rfl rfl rfl fun pc hpc => ?_
  obtain ⟨i, e, hcall⟩ := hh.running pc hpc
  exact ⟨i, e, hcall.loop, hcall.held, hcall.lt, hcall.entry, hcall.worksOn⟩

/-- The start of a conversion, if none runs and there is a free element. -/
theorem simulated_startConversion (h : Follows v s c) (hh : Histories v s c)
    (hv : MeasuringCallbacks v) {id : MsgId} {d : BufDescription}
    (hd : firmware.messageBuffers id = some d) (hfirst : systemFirstId < id)
    {globals : Measuring.Globals}
    (hid : s.globals.curBuffer = none → id =
      if s.globals.calibrationMeasurementDone then msgIdVoltageRaw else msgIdVoltageCalibration)
    (hcalibrating : s.globals.curBuffer = none → s.globals.calibrationMeasurementDone = false →
      ∃ i < d.msgAmount, s.globals.state.pump.header ⟨id, i⟩ = .free)
    (hstep : startConversion s.globals id = some globals) :
    Simulated v s c { s with globals := { globals with timerRegistered := true } } True := by
  have hstay (hnot : s.globals.calibrationMeasurementDone = false → s.globals.curBuffer ≠ none) :
      Simulated v s c { s with globals := { s.globals with timerRegistered := true } } True :=
    ⟨[], c, rfl, ⟨h.register hnot, hh.register.1⟩, hh.register.2.trans (and_iff_left trivial).symm⟩
  unfold startConversion at hstep
  cases hcur : s.globals.curBuffer with
  | some e =>
    rw [hcur, Option.isNone_some, if_neg Bool.false_ne_true] at hstep
    obtain rfl := Option.some.inj hstep
    exact hstay fun _ => by simp [hcur]
  | none =>
    obtain ⟨r, hget, hr⟩ := getFreeBuffer_outcome (p := s.globals.state.pump) hd hfirst
    rw [hcur, Option.isNone_none, if_pos rfl, hget] at hstep
    cases hr with
    | noneFree hnone =>
      obtain rfl := Option.some.inj hstep
      refine hstay fun hdone => ?_
      obtain ⟨i, hi, hfree⟩ := hcalibrating hcur hdone
      exact absurd hfree (hnone i hi)
    | reserved j hj hfree =>
      obtain rfl := Option.some.inj hstep
      have hmeasuring : MeasuringMessage id := by
        rw [hid hcur]
        split
        · exact Or.inl rfl
        · exact Or.inr (Or.inr rfl)
      obtain ⟨s', hs'⟩ : ∃ s' : Measurements, s' = { s with
        globals := { s.globals.setPump (s.globals.state.pump.setHeader ⟨id, j⟩ .reserved) with
          curBuffer := some ⟨id, j⟩, converting := true, timerRegistered := true } } := ⟨_, rfl⟩
      obtain ⟨c', hc', hfollows, hframe, hposted, hdata⟩ := h.reserve s' hmeasuring hj hfree
        hget (by rw [hs']; rfl) (by rw [hs']; rfl) (by rw [hs']) (by rw [hs'])
        (by
          intro e' he'
          rw [hs'] at he' ⊢
          obtain rfl := Option.some.inj he'
          exact ⟨Or.inr rfl, hid hcur⟩)
        (by
          intro e' he'
          rw [hs'] at he'
          exact ⟨Or.inl he', (h.powerState e' he').2⟩)
        (by rw [hs']; simp) (by rw [hs']; simp)
        (by
          intro hreg
          rw [hs'] at hreg
          cases hreg)
      obtain ⟨hhistories, hkept⟩ := hh.of_same s' hframe.posted (fun _ _ => by rw [hposted])
        (by rw [hframe.calls]) (by rw [hs']) (by rw [hs']; rfl) (by rw [hs']; rfl) (by rw [hs']; rfl)
        (hh.running_of_frame s' hv hframe (by rw [hs']; rfl) (by rw [hs']; rfl) fun e _ =>
          congrFun hdata e)
      subst hs'
      exact ⟨[.getFreeBuffer id], c', (exec_cons_eq_some _).mpr ⟨c', hc', rfl⟩,
        ⟨hfollows, hhistories⟩, hkept.trans (and_iff_left trivial).symm⟩

/-- `triggerCalibration` finds the pool for the calibration unused. -/
theorem simulated_triggerCalibration (h : Follows v s c) (hh : Histories v s c)
    (hv : MeasuringCallbacks v) {globals : Measuring.Globals}
    (hreg : s.globals.timerRegistered = false)
    (hstep : Measuring.triggerCalibration s.globals = some globals) :
    Simulated v s c { s with globals := globals } True := by
  obtain ⟨hcur, hdone, haccount⟩ := h.fresh hreg
  obtain ⟨started, hstarted, rfl⟩ := Option.map_eq_some_iff.mp hstep
  refine simulated_startConversion h hh hv lookup_voltageCalibration (by decide) ?_ ?_ hstarted
  · intro _
    rw [hdone, if_neg Bool.false_ne_true]
  · intro _ _
    have hposted := hh.calibration
    rw [hh.begun.mp hdone, List.take_nil, List.map_nil, List.sublist_nil] at hposted
    refine ⟨0, by decide, ?_⟩
    rw [← h.state]
    exact haccount.others _ rfl (fun hin => not_held h.delivery hposted hin rfl) id

/-- `triggerMeasurement` does nothing before the calibration is done. -/
theorem simulated_triggerMeasurement (h : Follows v s c) (hh : Histories v s c)
    (hv : MeasuringCallbacks v) {globals : Measuring.Globals}
    (hreg : s.globals.timerRegistered = true)
    (hstep : Measuring.triggerMeasurement s.globals = some globals) :
    Simulated v s c { s with globals := globals } True := by
  have hregistered : globals.timerRegistered = true := by
    cases triggerMeasurement_outcome hstep with
    | converting | noneFree => exact hreg
    | started => exact hreg
  have heta : { globals with timerRegistered := true } = globals := by
    rw [← hregistered]
  rw [← heta]
  refine simulated_startConversion h hh hv lookup_voltageRaw (by decide) ?_ ?_ hstep
  · intro hcur
    cases hdone : s.globals.calibrationMeasurementDone with
    | true => rfl
    | false => exact absurd hcur (h.calibrating hreg hdone)
  · intro hcur hdone
    exact absurd hcur (h.calibrating hreg hdone)

end Steps

end Powerboard.Application
