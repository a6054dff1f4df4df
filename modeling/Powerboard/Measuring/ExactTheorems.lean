import Powerboard.Measuring.Exact

/-!
# The measurements do not overflow

Samples of 12 bits sum up to less than `2 ^ 17` in each channel, their average has 12 bits again, and the
largest product, of a difference of averages with 330000, is below `2 ^ 31`.
-/

namespace Powerboard.Measuring

open Bytes Checked

/-! ## The samples -/

/-- The samples are what is read from their bytes. -/
lemma rawDataAt_ofHalfWords (samples : List UInt16) (i : ℕ) :
    rawDataAt (ofHalfWords samples) i = samples.getD i 0 := readHalfWord_ofHalfWords samples i

lemma toNat_rawDataAt_lt {samples : List UInt16} (h12 : ∀ v ∈ samples, v.toNat < 4096) (i : ℕ) :
    (rawDataAt (ofHalfWords samples) i).toNat < 4096 := by
  rw [rawDataAt_ofHalfWords, List.getD_eq_getElem?_getD]
  cases hi : samples[i]? with
  | none => decide
  | some v => exact h12 v (List.mem_of_getElem? hi)

/-! ## Their sums -/

section Sums
variable {content : List UInt8}

/-- A sample of 12 bits as an `int32_t`. -/
lemma toInt_sample {i : ℕ} (h12 : (rawDataAt content i).toNat < 4096) :
    (rawDataAt content i).toUInt32.toInt32.toInt = (rawDataAt content i).toNat := by
  have hlt : (rawDataAt content i).toUInt32.toNat < 2 ^ 31 := by
    rw [UInt16.toNat_toUInt32]
    omega
  have hvalue := eq_of_fit (fit_toInt32 hlt)
  rw [hvalue, UInt16.toNat_toUInt32]

/-- A step of the loop that sums the samples up. -/
def smoothStep (content : List UInt8) (voltages : List Int32) (i : ℕ) : List Int32 :=
  voltages.modify (i % measuringChannelCount) (· + (rawDataAt content i).toUInt32.toInt32)

/-- The sums of the first samples. -/
def sums (content : List UInt8) (n : ℕ) : List Int32 :=
  (List.range n).foldl (smoothStep content) (List.replicate measuringChannelCount 0)

/-- How many of the first samples are of the channel. -/
def samplesOf (k n : ℕ) : ℕ := (n + 4 - k) / measuringChannelCount

/-- The sums are not negative, and each sample has added 12 bits at most. -/
def Bounded (n : ℕ) (voltages : List Int32) : Prop :=
  voltages.length = measuringChannelCount ∧
    ∀ k (hk : k < voltages.length), 0 ≤ voltages[k].toInt ∧
      voltages[k].toInt ≤ 4095 * samplesOf k n

lemma bounded_zero : Bounded 0 (List.replicate measuringChannelCount 0) := by
  refine ⟨List.length_replicate, fun k hk => ?_⟩
  rw [List.getElem_replicate]
  have hzero : (0 : Int32).toInt = 0 := rfl
  omega

/-- The sum to which the next sample goes. -/
lemma Bounded.sum_le {n : ℕ} {voltages : List Int32} (h : Bounded n voltages)
    (hn : n < rawMeasurementCount) {k : ℕ} (hk : k < voltages.length) :
    voltages[k].toInt ≤ 4095 * 20 := by
  obtain ⟨hlength, hbounds⟩ := h
  have hle := (hbounds k hk).2
  have hcount : samplesOf k n ≤ 20 := by
    unfold samplesOf measuringChannelCount
    unfold rawMeasurementCount measuringChannelCount at hn
    omega
  omega

/-- The addition of a sample does not wrap. -/
lemma Bounded.fit_add {n : ℕ} {voltages : List Int32} (h : Bounded n voltages)
    (hn : n < rawMeasurementCount) (h12 : (rawDataAt content n).toNat < 4096) {k : ℕ}
    (hk : k < voltages.length) :
    int32.fit (voltages[k].toInt + (rawDataAt content n).toNat) =
        some (voltages[k] + (rawDataAt content n).toUInt32.toInt32).toInt ∧
      (voltages[k] + (rawDataAt content n).toUInt32.toInt32).toInt =
        voltages[k].toInt + (rawDataAt content n).toNat := by
  have hsum := h.sum_le hn hk
  have hpos := (h.2 k hk).1
  have hlo : int32.lo ≤ voltages[k].toInt + (rawDataAt content n).toNat := by
    simp only [int32]
    omega
  have hhi : voltages[k].toInt + (rawDataAt content n).toNat ≤ int32.hi := by
    simp only [int32]
    omega
  have hfit : int32.fit (voltages[k].toInt + (rawDataAt content n).toNat) =
      some (voltages[k] + (rawDataAt content n).toUInt32.toInt32).toInt := by
    rw [← toInt_sample h12] at hlo hhi ⊢
    exact Checked.fit_add hlo hhi
  exact ⟨hfit, eq_of_fit hfit⟩

/-- A step adds a sample to the sum of its channel. -/
lemma Bounded.smoothStep {n : ℕ} {voltages : List Int32} (h : Bounded n voltages)
    (hn : n < rawMeasurementCount) (h12 : (rawDataAt content n).toNat < 4096) :
    Bounded (n + 1) (smoothStep content voltages n) := by
  refine ⟨by rw [Measuring.smoothStep, List.length_modify, h.1], fun k hk => ?_⟩
  rw [Measuring.smoothStep, List.length_modify] at hk
  have hk5 : k < 5 := hk.trans_eq h.1
  obtain ⟨hpos, hle⟩ := h.2 k hk
  simp only [Measuring.smoothStep, List.getElem_modify]
  unfold samplesOf measuringChannelCount at *
  split
  · next heq =>
    rw [(h.fit_add hn h12 hk).2]
    omega
  · next hne => omega

lemma Bounded.smoothStepExact {n : ℕ} {voltages : List Int32} (h : Bounded n voltages)
    (hn : n < rawMeasurementCount) (h12 : (rawDataAt content n).toNat < 4096) :
    smoothStepExact content (voltages.map Int32.toInt) n =
      some ((Measuring.smoothStep content voltages n).map Int32.toInt) := by
  have hk : n % measuringChannelCount < voltages.length := by
    rw [h.1]
    exact Nat.mod_lt _ (by decide)
  have hsample : int32.fit (rawDataAt content n).toNat = some ((rawDataAt content n).toNat : ℤ) :=
    fit_of_le (by simp only [int32]; omega) (by simp only [int32]; omega)
  have hget : (voltages.map Int32.toInt).getD (n % measuringChannelCount) 0 =
      voltages[n % measuringChannelCount].toInt := by
    rw [List.getD_eq_getElem?_getD, List.getElem?_map, List.getElem?_eq_getElem hk]
    rfl
  simp only [Measuring.smoothStepExact, hsample, hget, (h.fit_add hn h12 hk).1, Option.bind_eq_bind,
    Option.bind_some, Option.pure_def, Option.some.injEq]
  apply List.ext_getElem
  · simp only [Measuring.smoothStep, List.length_set, List.length_map, List.length_modify]
  · intro i hi hi'
    simp only [Measuring.smoothStep, List.getElem_set, List.getElem_map, List.getElem_modify]
    split
    · next heq =>
      subst heq
      rfl
    · rfl

/-- The loop sums the samples up without a wrap. -/
lemma sums_exact (h12 : ∀ i, (rawDataAt content i).toNat < 4096) {n : ℕ}
    (hn : n ≤ rawMeasurementCount) :
    Bounded n (sums content n) ∧
      (List.range n).foldlM (smoothStepExact content) (List.replicate measuringChannelCount 0) =
        some ((sums content n).map Int32.toInt) := by
  induction n with
  | zero => exact ⟨bounded_zero, rfl⟩
  | succ n ih =>
    obtain ⟨hbounded, hexact⟩ := ih (by omega)
    have hsucc : sums content (n + 1) = smoothStep content (sums content n) n := by
      simp only [sums, List.range_succ, List.foldl_append, List.foldl_cons, List.foldl_nil]
    rw [hsucc]
    refine ⟨hbounded.smoothStep hn (h12 n), ?_⟩
    rw [List.range_succ, List.foldlM_append, hexact]
    exact (hbounded.smoothStepExact hn (h12 n)) ▸ by simp

end Sums

/-! ## Their averages -/

/-- The average of the samples of a channel. -/
def average (sum : Int32) : Int32 :=
  (sum.toUInt32 / UInt32.ofNat (rawMeasurementCount / measuringChannelCount)).toInt32

lemma smooth_eq (content : List UInt8) :
    smooth content = (sums content rawMeasurementCount).map average := rfl

/-- The sum of a channel keeps its value when it becomes unsigned, and the average has 12 bits. -/
lemma averageExact_eq {sum : Int32} (hpos : 0 ≤ sum.toInt) (hle : sum.toInt ≤ 4095 * 20) :
    averageExact sum.toInt = some (average sum).toInt ∧
      0 ≤ (average sum).toInt ∧ (average sum).toInt ≤ 4095 := by
  have hcount : rawMeasurementCount / measuringChannelCount = 20 := rfl
  have hdivisor : (UInt32.ofNat 20).toNat = 20 := rfl
  have hdividend := fit_toUInt32 hpos
  have hnat := eq_of_fit hdividend
  have hquotient : uint32.fit ((sum.toUInt32.toNat : ℤ) / (20 : ℕ)) =
      some ((sum.toUInt32 / UInt32.ofNat 20).toNat : ℤ) :=
    fit_udiv (x := sum.toUInt32) (y := UInt32.ofNat 20)
  have hdiv : (sum.toUInt32 / UInt32.ofNat 20).toNat = sum.toUInt32.toNat / 20 := by
    rw [UInt32.toNat_div, hdivisor]
  have hresult := fit_toInt32 (x := sum.toUInt32 / UInt32.ofNat 20) (by omega)
  have hvalue : (average sum).toInt = (sum.toUInt32 / UInt32.ofNat 20).toNat := eq_of_fit hresult
  refine ⟨?_, by omega, by omega⟩
  simp only [averageExact, hcount, hdividend, hquotient, Option.bind_eq_bind, Option.bind_some]
  exact hresult

/-- A list of computations that all succeed. -/
lemma mapM_eq_some {α β : Type} {f : α → Option β} {g : α → β} {l : List α}
    (h : ∀ a ∈ l, f a = some (g a)) : l.mapM f = some (l.map g) := by
  induction l with
  | nil => rfl
  | cons a l ih =>
    obtain ⟨ha, hl⟩ := List.forall_mem_cons.mp h
    simp [List.mapM_cons, ha, ih hl]

section Average
variable {content : List UInt8}

lemma sums_bounds (h12 : ∀ i, (rawDataAt content i).toNat < 4096) :
    ∀ sum ∈ sums content rawMeasurementCount, 0 ≤ sum.toInt ∧ sum.toInt ≤ 4095 * 20 := by
  obtain ⟨⟨hlength, hbounds⟩, -⟩ := sums_exact h12 le_rfl
  intro sum hsum
  obtain ⟨k, hk, rfl⟩ := List.getElem_of_mem hsum
  have hcount : samplesOf k rawMeasurementCount = 20 := by
    have hk5 : k < 5 := hk.trans_eq hlength
    unfold samplesOf rawMeasurementCount measuringChannelCount
    omega
  have hsum := hbounds k hk
  rw [hcount] at hsum
  exact hsum

/-- The averages have 12 bits each. -/
lemma smooth_bounds (h12 : ∀ i, (rawDataAt content i).toNat < 4096) :
    ∀ v ∈ smooth content, 0 ≤ v.toInt ∧ v.toInt ≤ 4095 := by
  intro v hv
  rw [smooth_eq, List.mem_map] at hv
  obtain ⟨sum, hsum, rfl⟩ := hv
  obtain ⟨hpos, hle⟩ := sums_bounds h12 sum hsum
  exact (averageExact_eq hpos hle).2

lemma smoothExact_eq (h12 : ∀ i, (rawDataAt content i).toNat < 4096) :
    smoothExact content = some ((smooth content).map Int32.toInt) := by
  obtain ⟨-, hsums⟩ := sums_exact h12 le_rfl
  have haverages : ((sums content rawMeasurementCount).map Int32.toInt).mapM averageExact =
      some ((smooth content).map Int32.toInt) := by
    rw [List.mapM_map, smooth_eq, List.map_map]
    apply mapM_eq_some
    intro sum hsum
    obtain ⟨hpos, hle⟩ := sums_bounds h12 sum hsum
    exact (averageExact_eq hpos hle).1
  simp only [smoothExact, hsums, Option.bind_eq_bind, Option.bind_some]
  exact haverages

end Average

/-! ## Voltages and currents -/

lemma voltageExact_eq {v : Int32} (hpos : 0 ≤ v.toInt) (hle : v.toInt ≤ 4095) :
    voltageExact v.toInt = some ((v * 330 * resistanceFactor / 4096).toUInt32.toNat : ℤ) ∧
      ((v * 330 * resistanceFactor / 4096).toUInt32.toNat : ℤ) ≤ 3629 := by
  have h330 : (330 : Int32).toInt = 330 := rfl
  have hfactor : resistanceFactor.toInt = 11 := rfl
  have h4096 : (4096 : Int32).toInt = 4096 := rfl
  have hfirst : int32.fit (v.toInt * 330) = some (v * 330).toInt := by
    rw [← h330]
    apply fit_mul <;> rw [h330] <;> simp only [int32] <;> omega
  have hfirst' := eq_of_fit hfirst
  have hsecond : int32.fit ((v * 330).toInt * 11) = some (v * 330 * resistanceFactor).toInt := by
    rw [← hfactor]
    apply fit_mul <;> rw [hfactor] <;> simp only [int32] <;> omega
  have hsecond' := eq_of_fit hsecond
  have hdiv : (v * 330 * resistanceFactor).toInt.tdiv 4096 =
      (v * 330 * resistanceFactor).toInt / 4096 := Int.tdiv_eq_ediv_of_nonneg (by omega)
  have hthird : int32.fit ((v * 330 * resistanceFactor).toInt.tdiv 4096) =
      some (v * 330 * resistanceFactor / 4096).toInt := by
    rw [← h4096]
    exact fit_tdiv (by decide)
  have hthird' := eq_of_fit hthird
  have hfourth := fit_toUInt32 (x := v * 330 * resistanceFactor / 4096) (by omega)
  constructor
  · simp only [voltageExact, hfirst, hsecond, hthird, hfourth, Option.bind_eq_bind, Option.bind_some]
  · have hvalue := eq_of_fit hfourth
    omega

lemma currentExact_eq {offset v : Int32} (hoffset : 0 ≤ offset.toInt ∧ offset.toInt ≤ 4095)
    (hv : 0 ≤ v.toInt ∧ v.toInt ≤ 4095) :
    currentExact offset.toInt v.toInt = some ((offset - v) * 330000 / 9 / 4096).toInt := by
  have h330000 : (330000 : Int32).toInt = 330000 := rfl
  have h9 : (9 : Int32).toInt = 9 := rfl
  have h4096 : (4096 : Int32).toInt = 4096 := rfl
  have hfirst : int32.fit (offset.toInt - v.toInt) = some (offset - v).toInt := by
    apply fit_sub <;> simp only [int32] <;> omega
  have hfirst' := eq_of_fit hfirst
  have hsecond : int32.fit ((offset - v).toInt * 330000) = some ((offset - v) * 330000).toInt := by
    rw [← h330000]
    apply fit_mul <;> rw [h330000] <;> simp only [int32] <;> omega
  have hsecond' := eq_of_fit hsecond
  have hthird : int32.fit (((offset - v) * 330000).toInt.tdiv 9) =
      some ((offset - v) * 330000 / 9).toInt := by
    rw [← h9]
    exact fit_tdiv (by decide)
  have hfourth : int32.fit (((offset - v) * 330000 / 9).toInt.tdiv 4096) =
      some ((offset - v) * 330000 / 9 / 4096).toInt := by
    rw [← h4096]
    exact fit_tdiv (by decide)
  simp only [currentExact, Option.bind_eq_bind]
  rw [hfirst, Option.bind_some, hsecond, Option.bind_some, hthird, Option.bind_some, hfourth]

/-! ## The power state -/

/-- An entry of a list of 12-bit numbers, or the 0 behind it. -/
lemma getD_bounds {l : List Int32} (h : ∀ v ∈ l, 0 ≤ v.toInt ∧ v.toInt ≤ 4095) (k : ℕ) :
    0 ≤ (l.getD k 0).toInt ∧ (l.getD k 0).toInt ≤ 4095 := by
  rw [List.getD_eq_getElem?_getD]
  cases hk : l[k]? with
  | none => decide
  | some v => exact h v (List.mem_of_getElem? hk)

lemma getD_map_toInt (l : List Int32) (k : ℕ) :
    (l.map Int32.toInt).getD k 0 = (l.getD k 0).toInt := by
  rw [List.getD_eq_getElem?_getD, List.getD_eq_getElem?_getD, List.getElem?_map]
  cases l[k]? <;> rfl

/-- With offsets and samples of 12 bits, every test succeeds, the power state holds the numbers that
are computed, and the battery voltage is at most 3629. -/
lemma powerStateExact_eq {offsetVoltages : List Int32} {content : List UInt8}
    (hoffsets : ∀ v ∈ offsetVoltages, 0 ≤ v.toInt ∧ v.toInt ≤ 4095)
    (h12 : ∀ i, (rawDataAt content i).toNat < 4096) :
    powerStateExact (offsetVoltages.map Int32.toInt) content =
        some (powerState offsetVoltages content).numbers ∧
      (powerState offsetVoltages content).batteryVoltcV.toNat ≤ 3629 := by
  have hbounds := smooth_bounds h12
  have hvoltage (k : ℕ) := voltageExact_eq (getD_bounds hbounds k).1 (getD_bounds hbounds k).2
  have hcurrent (k : ℕ) := currentExact_eq (getD_bounds hoffsets k) (getD_bounds hbounds k)
  constructor
  · simp only [powerStateExact, smoothExact_eq h12, getD_map_toInt, hvoltage, hcurrent,
      Option.bind_eq_bind, Option.bind_some, Option.pure_def]
    rfl
  · exact Int.ofNat_le.mp (hvoltage 0).2

end Powerboard.Measuring
