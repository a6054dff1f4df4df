import Powerboard.Application.ClientsTheorems

/-!
# Measuring as a client of the pump

The relation between measuring, together with other clients, and the clients of the message pump. The
first part says what is reserved, the second what was posted of what was converted. The clients of the
pump can follow a step when there is a run of theirs that leads to the related state.
-/

namespace Powerboard.Application

open Bytes Machine MsgPump Measuring

/-! ## The relation -/

/-- Measuring and the other clients are together the clients of the pump: what is `g_curBuffer`, or is
being filled by `onRawMeasurement`, is reserved. -/
structure Follows (v : MsgId → ℕ → Option Callback) (s : Measurements) (c : Clients) : Prop where
  delivery : DeliveryInv firmware v c
  state : c.state = s.globals.state
  calls : c.calls = s.globals.calls
  locks : c.locks = s.locks
  reserved : ∀ e, ¬ MeasuringMessage e.id → c.reserved e = s.reserved e
  unlocked : ∀ e, MeasuringMessage e.id → c.locks e = 0
  curBuffer : ∀ e, s.globals.curBuffer = some e → c.reserved e = true ∧ e.id =
    if s.globals.calibrationMeasurementDone then msgIdVoltageRaw else msgIdVoltageCalibration
  powerState : ∀ e, s.globals.running.bind RawMeasurementPc.powerStatePtr = some e →
    c.reserved e = true ∧ e.id = msgIdSystemPowerState
  converting : s.globals.converting = true → s.globals.curBuffer ≠ none
  /-- from the start of the calibration until it is done `g_curBuffer` is taken -/
  calibrating : s.globals.timerRegistered = true →
    s.globals.calibrationMeasurementDone = false → s.globals.curBuffer ≠ none
  /-- before that, the pool for the calibration is not used -/
  fresh : s.globals.timerRegistered = false → s.globals.curBuffer = none ∧
    s.globals.calibrationMeasurementDone = false ∧
    Account firmware (fun id => id = msgIdVoltageCalibration) (fun _ => False) c.state

/-- What a running `onRawMeasurement` works on: the message in the element. -/
def WorksOn (offsetVoltages : List Int32) (p : Pump) (e : Elem) : RawMeasurementPc → Prop
  | .entered dataPtr | .filling dataPtr _ => dataPtr = some e
  | .posting powerStatePtr => p.data powerStatePtr = powerStateOf offsetVoltages (p.data e)

/-- The loop is in the call of `onRawMeasurement` in entry `i`, for the message at the front. -/
structure InRaw (v : MsgId → ℕ → Option Callback) (s : Measurements) (c : Clients)
    (pc : RawMeasurementPc) (i : ℕ) (e : Elem) : Prop where
  loop : c.state.pc = .calling (i + 1)
  held : ∃ rest, c.state.held = e :: rest
  lt : i < maxReceivers
  entry : v e.id i = some onRawMeasurement
  worksOn : WorksOn s.globals.offsetVoltages c.state.pump e pc

/-- What was posted of what was converted, and what was called. -/
structure Histories (v : MsgId → ℕ → Option Callback) (s : Measurements) (c : Clients) : Prop where
  begun : s.globals.calibrationMeasurementDone = false ↔ s.conversions = []
  /-- no calibration is posted behind a raw measurement -/
  before : c.posted.Pairwise fun m m' => m.1 = msgIdVoltageRaw → m'.1 ≠ msgIdVoltageCalibration
  calibration : (contentsOf c.posted msgIdVoltageCalibration).Sublist
    ((s.conversions.take 1).map ofHalfWords)
  raw : (contentsOf c.posted msgIdVoltageRaw).Sublist ((s.conversions.drop 1).map ofHalfWords)
  offsets : s.globals.offsetVoltages =
    offsetsOf (givenTo c.calls msgIdVoltageCalibration onRawCalibMeasurement)
  powerStates : (contentsOf c.posted msgIdSystemPowerState).Sublist
    ((givenTo s.returned msgIdVoltageRaw onRawMeasurement).map
      (powerStateOf s.globals.offsetVoltages))
  running : ∀ pc, s.globals.running = some pc → ∃ i e, InRaw v s c pc i e

/-- As much was posted as was converted and called. -/
def Kept (s : Measurements) (c : Clients) : Prop :=
  (contentsOf c.posted msgIdVoltageCalibration).length +
      (contentsOf c.posted msgIdVoltageRaw).length +
      (contentsOf c.posted msgIdSystemPowerState).length =
    s.conversions.length + (givenTo s.returned msgIdVoltageRaw onRawMeasurement).length

/-- The clients of the pump can follow the step, and nothing is lost in it exactly if this holds. -/
def Simulated (v : MsgId → ℕ → Option Callback) (s : Measurements) (c : Clients)
    (s' : Measurements) (kept : Prop) : Prop :=
  ∃ bs c', exec (clientStep firmware) c bs = some c' ∧ (Follows v s' c' ∧ Histories v s' c') ∧
    (Kept s' c' ↔ Kept s c ∧ kept)

/-! ## Steps and histories -/

section Histories
variable {v : MsgId → ℕ → Option Callback} {s s' : Measurements} {c c' : Clients} {e : Elem}
  {pc pc' : RawMeasurementPc} {i : ℕ} {dataAddress : MsgId → ℤ} {a : ClientAction}

/-- No more can be posted. -/
lemma Histories.le (h : Histories v s c) :
    (contentsOf c.posted msgIdVoltageCalibration).length +
        (contentsOf c.posted msgIdVoltageRaw).length ≤ s.conversions.length ∧
      (contentsOf c.posted msgIdSystemPowerState).length ≤
        (givenTo s.returned msgIdVoltageRaw onRawMeasurement).length := by
  have hcalibration := h.calibration.length_le
  have hraw := h.raw.length_le
  have hpowerStates := h.powerStates.length_le
  simp only [List.length_map, List.length_take, List.length_drop] at hcalibration hraw hpowerStates
  exact ⟨by omega, hpowerStates⟩

lemma before_append {posted more : List (MsgId × List UInt8)}
    (h : posted.Pairwise fun m m' => m.1 = msgIdVoltageRaw → m'.1 ≠ msgIdVoltageCalibration)
    (hmore : contentsOf more msgIdVoltageCalibration = []) :
    (posted ++ more).Pairwise fun m m' =>
      m.1 = msgIdVoltageRaw → m'.1 ≠ msgIdVoltageCalibration := by
  have hne : ∀ m ∈ more, m.1 ≠ msgIdVoltageCalibration := by
    intro m hm hid
    have hmem : m.2 ∈ contentsOf more msgIdVoltageCalibration :=
      List.mem_filterMap.mpr ⟨m, hm, if_pos hid⟩
    rw [hmore] at hmem
    cases hmem
  refine List.pairwise_append.mpr ⟨h, ?_, fun _ _ m' hm' _ => hne m' hm'⟩
  exact List.pairwise_of_forall_mem_list fun _ _ m' hm' _ => hne m' hm'

/-- A step that posts none of the three messages. -/
lemma Histories.of_same (h : Histories v s c) (s' : Measurements) (hposted : c.posted <+: c'.posted)
    (hsame : ∀ id, MeasuringMessage id → contentsOf c'.posted id = contentsOf c.posted id)
    (hcalibrations : givenTo c'.calls msgIdVoltageCalibration onRawCalibMeasurement =
      givenTo c.calls msgIdVoltageCalibration onRawCalibMeasurement)
    (hconversions : s'.conversions = s.conversions)
    (hdone : s'.globals.calibrationMeasurementDone = s.globals.calibrationMeasurementDone)
    (hoffsets : s'.globals.offsetVoltages = s.globals.offsetVoltages)
    (hreturned : givenTo s'.returned msgIdVoltageRaw onRawMeasurement =
      givenTo s.returned msgIdVoltageRaw onRawMeasurement)
    (hrunning : ∀ pc, s'.globals.running = some pc → ∃ i e, InRaw v s' c' pc i e) :
    Histories v s' c' ∧ (Kept s' c' ↔ Kept s c) := by
  have hraw := hsame msgIdVoltageRaw (Or.inl rfl)
  have hpowerState := hsame msgIdSystemPowerState (Or.inr (Or.inl rfl))
  have hcalibration := hsame msgIdVoltageCalibration (Or.inr (Or.inr rfl))
  refine ⟨⟨by rw [hdone, hconversions]; exact h.begun, ?_, ?_, ?_, ?_, ?_, hrunning⟩, ?_⟩
  · obtain ⟨more, hmore⟩ := hposted
    rw [← hmore]
    apply before_append h.before
    rw [← hmore, contentsOf_append] at hcalibration
    exact List.append_right_eq_self.mp hcalibration
  · rw [hcalibration, hconversions]
    exact h.calibration
  · rw [hraw, hconversions]
    exact h.raw
  · rw [hoffsets, hcalibrations]
    exact h.offsets
  · rw [hpowerState, hreturned, hoffsets]
    exact h.powerStates
  · rw [Kept, hraw, hpowerState, hcalibration, hconversions, hreturned]
    rfl

/-- Room at the end for one that is taken. -/
lemma sublist_concat {l m : List (List UInt8)} {p : Prop} [Decidable p] (h : l.Sublist m)
    (x : List UInt8) : (l ++ if p then [x] else []).Sublist (m ++ [x]) := by
  split
  · exact h.append_right [x]
  · rw [List.append_nil]
    exact h.trans (List.sublist_append_left m [x])

/-- What a conversion changes but for the posts. -/
structure Converts (v : MsgId → ℕ → Option Callback) (s s' : Measurements) (c c' : Clients)
    (samples : List UInt16) : Prop where
  calls : c'.calls = c.calls
  conversions : s'.conversions = s.conversions ++ [samples]
  done : s'.globals.calibrationMeasurementDone = true
  offsets : s'.globals.offsetVoltages = s.globals.offsetVoltages
  returned : s'.returned = s.returned
  running : ∀ pc, s'.globals.running = some pc → ∃ i e, InRaw v s' c' pc i e

lemma Converts.begun {samples : List UInt16} (h : Converts v s s' c c' samples) :
    s'.globals.calibrationMeasurementDone = false ↔ s'.conversions = [] := by
  rw [h.done, h.conversions]
  simp

/-- The calls are the same, and with them the offsets. -/
lemma Histories.offsets_of_converts {samples : List UInt16} (h : Histories v s c)
    (hconverts : Converts v s s' c c' samples) : s'.globals.offsetVoltages =
      offsetsOf (givenTo c'.calls msgIdVoltageCalibration onRawCalibMeasurement) := by
  rw [hconverts.offsets, hconverts.calls]
  exact h.offsets

/-- A conversion after the first one is a raw measurement. -/
lemma Histories.convertedNext (h : Histories v s c) {samples : List UInt16} {success : Bool}
    (hdone : s.globals.calibrationMeasurementDone = true)
    (hposted : c'.posted = c.posted ++ if success then [(msgIdVoltageRaw, ofHalfWords samples)] else [])
    (hconverts : Converts v s s' c c' samples) :
    Histories v s' c' ∧ (Kept s' c' ↔ Kept s c ∧ success = true) := by
  obtain ⟨first, rest, hcons⟩ : ∃ first rest, s.conversions = first :: rest := by
    apply List.exists_cons_of_ne_nil
    intro hnil
    exact absurd (hdone.symm.trans (h.begun.mpr hnil)) (by decide)
  have hle := h.le
  have hcalibration := h.calibration
  have hraw := h.raw
  have hconversions := hconverts.conversions
  rw [hcons] at hcalibration hraw hconversions
  have hc := contentsOf_posted_of_ne hposted msgIdVoltageCalibration (by decide)
  have hr := contentsOf_posted_self hposted
  have hp := contentsOf_posted_of_ne hposted msgIdSystemPowerState (by decide)
  refine ⟨⟨hconverts.begun, ?_, ?_, ?_, h.offsets_of_converts hconverts, ?_, hconverts.running⟩, ?_⟩
  · rw [hposted]
    apply before_append h.before
    cases success <;> rfl
  · rw [hc, hconversions]
    exact hcalibration
  · rw [hr, hconversions]
    simp only [List.cons_append, List.drop_succ_cons, List.drop_zero, List.map_append,
      List.map_singleton]
    exact sublist_concat hraw _
  · rw [hp, hconverts.offsets, hconverts.returned]
    exact h.powerStates
  · rw [Kept, Kept, hc, hr, hp, hconverts.returned, hconversions]
    rw [hcons] at hle ⊢
    cases success with
    | true =>
      simp only [and_true, if_true, List.length_append, List.length_singleton]
      omega
    | false =>
      simp only [Bool.false_eq_true, if_false, List.append_nil, and_false, iff_false]
      simp only [List.length_append, List.length_singleton]
      omega

/-- The first conversion is posted for the calibration. -/
lemma Histories.convertedFirst (h : Histories v s c) {samples : List UInt16} {success : Bool}
    (hdone : s.globals.calibrationMeasurementDone = false)
    (hposted : c'.posted = c.posted ++
      if success then [(msgIdVoltageCalibration, ofHalfWords samples)] else [])
    (hconverts : Converts v s s' c c' samples) :
    Histories v s' c' ∧ (Kept s' c' ↔ Kept s c ∧ success = true) := by
  have hnil := h.begun.mp hdone
  have hle := h.le
  have hraw := h.raw
  have hcalibration := h.calibration
  have hconversions := hconverts.conversions
  rw [hnil] at hraw hcalibration hconversions hle
  simp only [List.length_nil] at hle
  rw [List.drop_nil, List.map_nil, List.sublist_nil] at hraw
  rw [List.take_nil, List.map_nil, List.sublist_nil] at hcalibration
  have hc := contentsOf_posted_self hposted
  have hr := contentsOf_posted_of_ne hposted msgIdVoltageRaw (by decide)
  have hp := contentsOf_posted_of_ne hposted msgIdSystemPowerState (by decide)
  rw [hcalibration, List.nil_append] at hc
  refine ⟨⟨hconverts.begun, ?_, ?_, ?_, h.offsets_of_converts hconverts, ?_, hconverts.running⟩, ?_⟩
  · -- nothing was measured yet
    rw [hposted]
    refine List.pairwise_append.mpr ⟨h.before, by split <;> simp, fun m hm _ _ hid => ?_⟩
    have hmem : m.2 ∈ contentsOf c.posted msgIdVoltageRaw :=
      List.mem_filterMap.mpr ⟨m, hm, if_pos hid⟩
    rw [hraw] at hmem
    cases hmem
  · rw [hc, hconversions]
    cases success <;> simp
  · rw [hr, hraw]
    exact List.nil_sublist _
  · rw [hp, hconverts.offsets, hconverts.returned]
    exact h.powerStates
  · rw [Kept, Kept, hc, hr, hp, hconverts.returned, hconversions, hnil, hcalibration]
    cases success with
    | true =>
      simp
      omega
    | false =>
      simp
      omega

/-- A conversion: the first one is posted for the calibration, the others are raw measurements. -/
lemma Histories.converted (h : Histories v s c) (s' : Measurements) {samples : List UInt16}
    {success : Bool}
    (hposted : c'.posted = c.posted ++ if success then
      [(if s.globals.calibrationMeasurementDone then msgIdVoltageRaw else msgIdVoltageCalibration,
        ofHalfWords samples)] else [])
    (hconverts : Converts v s s' c c' samples) :
    Histories v s' c' ∧ (Kept s' c' ↔ Kept s c ∧ success = true) := by
  cases hdone : s.globals.calibrationMeasurementDone with
  | true =>
    rw [hdone, if_pos rfl] at hposted
    exact h.convertedNext hdone hposted hconverts
  | false =>
    rw [hdone, if_neg Bool.false_ne_true] at hposted
    exact h.convertedFirst hdone hposted hconverts

/-- The loop does not go on while `onRawMeasurement` runs. -/
lemma InRaw.of_frame (h : InRaw v s c pc i e) (hframe : ClientFrame c c')
    (hworks : WorksOn s'.globals.offsetVoltages c'.state.pump e pc') : InRaw v s' c' pc' i e := by
  obtain ⟨rest, hheld⟩ := h.held
  obtain ⟨more, hmore⟩ := hframe.held
  refine ⟨hframe.pc.trans h.loop, ⟨rest ++ more, ?_⟩, h.lt, h.entry, hworks⟩
  rw [← List.cons_append, ← hheld]
  exact hmore.symm

/-- Its call is the last one, with what is in the element. -/
lemma Follows.calls_eq (h : Follows v s c) (hv : MeasuringCallbacks v)
    (hrunning : s.globals.running = some pc) (hcall : InRaw v s c pc i e) :
    c.calls = s.returned ++ [{ callback := onRawMeasurement, id := msgIdVoltageRaw,
                               content := some (c.state.pump.data e) }] := by
  obtain ⟨rest, hheld⟩ := hcall.held
  obtain ⟨before, hbefore⟩ := last_call h.delivery hcall.loop hheld hcall.entry
  rw [hv.onlyRaw e.id i hcall.lt hcall.entry] at hbefore
  have hreturned : s.returned = before := by
    rw [Measurements.returned, hrunning, Option.isSome_some, if_pos rfl, ← h.calls, hbefore,
      List.dropLast_concat]
  rw [hreturned, hbefore]

lemma worksOn_congr {offsetVoltages : List Int32} {p p' : Pump}
    (h : WorksOn offsetVoltages p e pc) (hdata : p'.data e = p.data e)
    (hposting : ∀ q, pc = .posting q → p'.data q = p.data q) : WorksOn offsetVoltages p' e pc := by
  cases pc with
  | entered | filling => exact h
  | posting q =>
    show p'.data q = _
    rw [hposting q rfl, hdata]
    exact h

/-- What `onRawMeasurement` works on stays, if the data of what is queued and of its power state do. -/
lemma Histories.running_of_frame (h : Histories v s c) (s' : Measurements) (hv : MeasuringCallbacks v)
    (hframe : ClientFrame c c')
    (hsame : s'.globals.running = s.globals.running)
    (hoffsets : s'.globals.offsetVoltages = s.globals.offsetVoltages)
    (hdata : ∀ e, e.id = msgIdVoltageRaw ∧ e ∈ c.state.held ∨
      s.globals.running.bind RawMeasurementPc.powerStatePtr = some e →
        c'.state.pump.data e = c.state.pump.data e) :
    ∀ pc, s'.globals.running = some pc → ∃ i e, InRaw v s' c' pc i e := by
  intro pc hpc
  rw [hsame] at hpc
  obtain ⟨i, e, hcall⟩ := h.running pc hpc
  refine ⟨i, e, hcall.of_frame hframe ?_⟩
  rw [hoffsets]
  apply worksOn_congr hcall.worksOn
  · obtain ⟨rest, hheld⟩ := hcall.held
    exact hdata e (Or.inl ⟨hv.onlyRaw e.id i hcall.lt hcall.entry, hheld ▸ List.mem_cons_self⟩)
  · rintro q rfl
    exact hdata q (Or.inr (by rw [hpc]; rfl))

lemma Follows.measuring_curBuffer (h : Follows v s c) (he : s.globals.curBuffer = some e) :
    MeasuringMessage e.id := by
  rw [(h.curBuffer e he).2]
  split
  · exact Or.inl rfl
  · exact Or.inr (Or.inr rfl)

lemma Follows.measuring_powerState (h : Follows v s c)
    (he : s.globals.running.bind RawMeasurementPc.powerStatePtr = some e) : MeasuringMessage e.id :=
  Or.inr (Or.inl (h.powerState e he).2)

/-- `g_curBuffer` is of another pool than the power states. -/
lemma Follows.curBuffer_ne (h : Follows v s c) {q : Elem} (he : s.globals.curBuffer = some e)
    (hq : s.globals.running.bind RawMeasurementPc.powerStatePtr = some q) : q ≠ e := by
  rintro rfl
  have hid := (h.curBuffer q he).2
  rw [(h.powerState q hq).2] at hid
  split at hid
  · exact absurd hid (by decide)
  · exact absurd hid (by decide)

/-- `onRawMeasurement` returns, with its power state posted or not. -/
lemma Histories.returns (hh : Histories v s c) (h : Follows v s c) (hv : MeasuringCallbacks v)
    (hrunning : s.globals.running = some pc) (hcall : InRaw v s c pc i e) (s' : Measurements)
    (success : Bool)
    (hposted : c'.posted = c.posted ++ if success then [(msgIdSystemPowerState,
      powerStateOf s.globals.offsetVoltages (c.state.pump.data e))] else [])
    (hcalls : c'.calls = c.calls) (hcalls' : s'.globals.calls = s.globals.calls)
    (hconversions : s'.conversions = s.conversions)
    (hdone : s'.globals.calibrationMeasurementDone = s.globals.calibrationMeasurementDone)
    (hoffsets : s'.globals.offsetVoltages = s.globals.offsetVoltages)
    (hrunning' : s'.globals.running = none) :
    Histories v s' c' ∧ (Kept s' c' ↔ Kept s c ∧ success = true) := by
  have hle := hh.le
  have hgiven : givenTo s'.returned msgIdVoltageRaw onRawMeasurement =
      givenTo s.returned msgIdVoltageRaw onRawMeasurement ++ [c.state.pump.data e] := by
    rw [Measurements.returned, hrunning', Option.isSome_none, if_neg Bool.false_ne_true, hcalls',
      ← h.calls, h.calls_eq hv hrunning hcall, givenTo_append, givenTo_singleton, if_pos ⟨rfl, rfl⟩,
      Option.toList_some]
  have hc := contentsOf_posted_of_ne hposted msgIdVoltageCalibration (by decide)
  have hr := contentsOf_posted_of_ne hposted msgIdVoltageRaw (by decide)
  have hp := contentsOf_posted_self hposted
  refine ⟨⟨by rw [hdone, hconversions]; exact hh.begun, ?_, ?_, ?_, ?_, ?_, ?_⟩, ?_⟩
  · rw [hposted]
    apply before_append hh.before
    cases success <;> rfl
  · rw [hc, hconversions]
    exact hh.calibration
  · rw [hr, hconversions]
    exact hh.raw
  · rw [hoffsets, hcalls]
    exact hh.offsets
  · rw [hp, hgiven, hoffsets, List.map_append, List.map_singleton]
    exact sublist_concat hh.powerStates _
  · intro pc' hpc'
    rw [hrunning'] at hpc'
    cases hpc'
  · rw [Kept, Kept, hc, hr, hp, hgiven, hconversions]
    cases success with
    | true =>
      simp only [and_true, if_true, List.length_append, List.length_singleton]
      omega
    | false =>
      simp only [Bool.false_eq_true, if_false, List.append_nil, and_false, iff_false]
      simp only [List.length_append, List.length_singleton]
      omega

end Histories

end Powerboard.Application
