import Powerboard.PowerCheck.PowerCheck

/-!
# The relative level

Between the thresholds the level is 255 times the voltage above the low one, divided by their distance.
-/

namespace Powerboard.PowerCheck

open Bytes Measuring

/-! ## The message -/

/-- What `onRawMeasurement` writes into a message is what is read from it. -/
lemma systemPowerStateAt_encode (p : SystemPowerState) : systemPowerStateAt p.encode = p := by
  have hlength (w : UInt32) : (ofWord w).length = 4 := rfl
  have hbattery := readWord_append [] p.batteryVoltcV
  have hmotor := readWord_append (ofWord p.batteryVoltcV) p.motorVoltcV
  have hsystem := readWord_append (ofWord p.batteryVoltcV ++ ofWord p.motorVoltcV)
    p.systemVoltcV
  have hmotorCurrent := readWord_append (ofWord p.batteryVoltcV ++ ofWord p.motorVoltcV ++
    ofWord p.systemVoltcV) p.motorCurrentcA.toUInt32
  have hsystemCurrent := readWord_append (ofWord p.batteryVoltcV ++ ofWord p.motorVoltcV ++
    ofWord p.systemVoltcV ++ ofWord p.motorCurrentcA.toUInt32) p.systemCurrentcA.toUInt32 []
  simp only [List.append_nil, List.nil_append, List.append_assoc, List.length_append, List.length_nil,
    hlength, Nat.reduceAdd] at hbattery hmotor hsystem hmotorCurrent hsystemCurrent
  simp only [systemPowerStateAt, SystemPowerState.encode, List.append_assoc, hbattery, hmotor,
    hsystem, hmotorCurrent, hsystemCurrent]
  rfl

/-! ## The level -/

section Level
variable {g : Globals} {curLevel : UInt32}

lemma relativeLevel_of_above (hlow : g.lowThresh < curLevel) (hhigh : g.highThresh < curLevel) :
    relativeLevel g curLevel = 0xff := by
  rw [relativeLevel, if_neg (UInt32.not_lt.mpr (UInt32.le_of_lt hlow)), if_pos hhigh]

/-- The quotient of the level is at most 255. -/
lemma quotient_le {low cur high : ℕ} (hhigh : cur ≤ high) :
    255 * (cur - low) / (high - low) ≤ 255 := by
  apply Nat.div_le_of_le_mul
  rw [Nat.mul_comm]
  exact Nat.mul_le_mul_right 255 (by omega)

lemma toNat_relativeLevel (hlow : g.lowThresh < curLevel) (hhigh : curLevel ≤ g.highThresh)
    (hfits : 255 * (curLevel.toNat - g.lowThresh.toNat) < 2 ^ 32) :
    (relativeLevel g curLevel).toNat =
      255 * (curLevel.toNat - g.lowThresh.toNat) / (g.highThresh.toNat - g.lowThresh.toNat) := by
  rw [relativeLevel, if_neg (UInt32.not_lt.mpr (UInt32.le_of_lt hlow)),
    if_neg (UInt32.not_lt.mpr hhigh)]
  rw [UInt32.lt_iff_toNat_lt] at hlow
  rw [UInt32.le_iff_toNat_le] at hhigh
  have hdistance : (curLevel - g.lowThresh).toNat = curLevel.toNat - g.lowThresh.toNat :=
    UInt32.toNat_sub_of_le _ _ (UInt32.le_iff_toNat_le.mpr hlow.le)
  have hrange : (g.highThresh - g.lowThresh).toNat = g.highThresh.toNat - g.lowThresh.toNat :=
    UInt32.toNat_sub_of_le _ _ (UInt32.le_iff_toNat_le.mpr (by omega))
  have hproduct : (255 * (curLevel - g.lowThresh)).toNat =
      255 * (curLevel.toNat - g.lowThresh.toNat) := by
    rw [UInt32.toNat_mul, hdistance]
    exact Nat.mod_eq_of_lt hfits
  rw [UInt32.toNat_toUInt8, UInt32.toNat_div, hproduct, hrange]
  exact Nat.mod_eq_of_lt (Nat.lt_succ_of_le (quotient_le hhigh))

end Level

/-! ## Level 0 -/

lemma onNewPwrMeasurement_of_lt {g : Globals} {buf : List UInt8}
    (hlow : g.lowThresh < (systemPowerStateAt buf).batteryVoltcV) :
    onNewPwrMeasurement g buf =
      .post (ledColor (relativeLevel g (systemPowerStateAt buf).batteryVoltcV))
        (relativeLevel g (systemPowerStateAt buf).batteryVoltcV) := by
  rw [onNewPwrMeasurement, if_neg (UInt32.not_le.mpr hlow)]

/-- The converter is enabled exactly by a level that is not 0. -/
lemma postsNonzero_iff_level {g : Globals} {buf : List UInt8}
    (hlow : g.lowThresh < (systemPowerStateAt buf).batteryVoltcV) :
    PostsNonzero g buf ↔ 1 ≤ (relativeLevel g (systemPowerStateAt buf).batteryVoltcV).toNat := by
  rw [PostsNonzero, onNewPwrMeasurement_of_lt hlow]
  constructor
  · rintro ⟨color, level, heq, hlevel, -⟩
    obtain ⟨-, rfl⟩ := Reaction.post.inj heq
    rwa [UInt8.le_iff_toNat_le] at hlevel
  · intro hlevel
    refine ⟨_, _, rfl, UInt8.le_iff_toNat_le.mpr hlevel, fun b rest => ?_⟩
    have hpos : 0 < relativeLevel g (systemPowerStateAt buf).batteryVoltcV :=
      UInt8.lt_iff_toNat_lt.mpr (Nat.lt_of_succ_le hlevel)
    rw [onRelativeBatteryVoltage, List.getD_cons_zero, if_pos hpos]

/-- The default thresholds are less than 256 apart. -/
lemma postsNonzero_defaultThresholds {buf : List UInt8}
    (hlow : defaultThresholds.lowThresh < (systemPowerStateAt buf).batteryVoltcV) :
    PostsNonzero defaultThresholds buf := by
  have hlowThresh : defaultThresholds.lowThresh.toNat = 970 := rfl
  have hhighThresh : defaultThresholds.highThresh.toNat = 1200 := rfl
  rw [postsNonzero_iff_level hlow]
  by_cases hhigh : defaultThresholds.highThresh < (systemPowerStateAt buf).batteryVoltcV
  · rw [relativeLevel_of_above hlow hhigh]
    decide
  · have hle := UInt32.not_lt.mp hhigh
    have hle' := UInt32.le_iff_toNat_le.mp hle
    have hlow' := UInt32.lt_iff_toNat_lt.mp hlow
    rw [toNat_relativeLevel hlow hle (by omega), Nat.le_div_iff_mul_le (by omega)]
    omega

/-- The thresholds that the endpoints set have 16 bits. -/
lemma toNat_thresholds_lt (g : Globals) (lower upper : List UInt8) :
    (g.set lower upper).lowThresh.toNat < 2 ^ 16 ∧ (g.set lower upper).highThresh.toNat < 2 ^ 16 := by
  constructor
  · exact UInt16.toNat_lt _
  · exact UInt16.toNat_lt _

/-- With thresholds from the endpoints, the level of a voltage above the low one is not 0 exactly if the
voltage is above the high one, or above the low one by a 255th of their distance. -/
theorem postsNonzero_iff (g : Globals) (lower upper : List UInt8) (buf : List UInt8)
    (hlow : (g.set lower upper).lowThresh < (systemPowerStateAt buf).batteryVoltcV) :
    PostsNonzero (g.set lower upper) buf ↔
      (g.set lower upper).highThresh < (systemPowerStateAt buf).batteryVoltcV ∨
        (g.set lower upper).highThresh.toNat - (g.set lower upper).lowThresh.toNat ≤
          255 * ((systemPowerStateAt buf).batteryVoltcV.toNat -
            (g.set lower upper).lowThresh.toNat) := by
  obtain ⟨-, hhighLt⟩ := toNat_thresholds_lt g lower upper
  rw [postsNonzero_iff_level hlow]
  by_cases hhigh : (g.set lower upper).highThresh < (systemPowerStateAt buf).batteryVoltcV
  · rw [relativeLevel_of_above hlow hhigh]
    exact iff_of_true (by decide) (.inl hhigh)
  · have hle := UInt32.not_lt.mp hhigh
    have hle' := UInt32.le_iff_toNat_le.mp hle
    have hlow' := UInt32.lt_iff_toNat_lt.mp hlow
    rw [toNat_relativeLevel hlow hle (by omega), Nat.le_div_iff_mul_le (by omega), one_mul]
    exact (or_iff_right hhigh).symm

/-- A power state of a voltage, with no motor and no current. -/
def batteryOnly (batteryVoltcV : UInt32) : List UInt8 :=
  SystemPowerState.encode
    { batteryVoltcV := batteryVoltcV, motorVoltcV := 0, systemVoltcV := 500
      motorCurrentcA := 0, systemCurrentcA := 0 }

theorem postsNonzero_iff_narrow :
    PostsNonzero (defaultThresholds.set [0xca, 0x03] [0xc9, 0x04]) (batteryOnly 971) := by
  have hlow : (defaultThresholds.set [0xca, 0x03] [0xc9, 0x04]).lowThresh <
      (systemPowerStateAt (batteryOnly 971)).batteryVoltcV := by decide
  exact (postsNonzero_iff defaultThresholds [0xca, 0x03] [0xc9, 0x04] (batteryOnly 971) hlow).mpr
    (.inr (by decide))

/-- With the thresholds 0 and 65535, a voltage of 1 gives the level 0, and the board does not switch
itself off. -/
theorem wide_thresholds_post_zero :
    (defaultThresholds.set [0, 0] [0xff, 0xff]).lowThresh <
        (systemPowerStateAt (batteryOnly 1)).batteryVoltcV ∧
      onNewPwrMeasurement (defaultThresholds.set [0, 0] [0xff, 0xff]) (batteryOnly 1) =
        .post { red := 0xff, green := 0, blue := 0 } 0 ∧
      ¬ PostsNonzero (defaultThresholds.set [0, 0] [0xff, 0xff]) (batteryOnly 1) := by
  have hpost : onNewPwrMeasurement (defaultThresholds.set [0, 0] [0xff, 0xff]) (batteryOnly 1) =
      .post { red := 0xff, green := 0, blue := 0 } 0 := by decide
  refine ⟨by decide, hpost, ?_⟩
  rintro ⟨color, level, heq, hlevel, -⟩
  obtain ⟨-, rfl⟩ := Reaction.post.inj (hpost.symm.trans heq)
  exact absurd hlevel (by decide)

end Powerboard.PowerCheck
