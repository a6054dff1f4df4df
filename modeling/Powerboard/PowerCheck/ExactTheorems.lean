import Powerboard.Measuring.ExactTheorems
import Powerboard.PowerCheck.PowerCheckTheorems

/-!
# From samples to a level without an overflow

A battery voltage that was measured is at most 3629, so that 255 times it has 32 bits, and between the
thresholds their distance is not 0.
-/

namespace Powerboard.PowerCheck

open Measuring Checked

/-! ## The level -/

section Level
variable {g : Globals} {curLevel : UInt32}

/-- Above the low threshold every test succeeds, that of the divisor included. -/
lemma relativeLevelExact_eq (hlow : g.lowThresh < curLevel) (hcur : curLevel.toNat ≤ 3629) :
    relativeLevelExact g.lowThresh.toNat g.highThresh.toNat curLevel.toNat =
      some ((relativeLevel g curLevel).toNat : ℤ) := by
  have hlow' := UInt32.lt_iff_toNat_lt.mp hlow
  rw [relativeLevelExact, if_neg (by omega)]
  by_cases hhigh : g.highThresh < curLevel
  · have hhigh' := UInt32.lt_iff_toNat_lt.mp hhigh
    rw [if_pos (by omega), relativeLevel_of_above hlow hhigh]
    rfl
  · have hle := UInt32.not_lt.mp hhigh
    have hle' := UInt32.le_iff_toNat_le.mp hle
    have h255 : (255 : UInt32).toNat = 255 := rfl
    have habove := fit_usub (UInt32.le_of_lt hlow)
    have hdistance := eq_of_fit habove
    have hdividend := fit_umul (x := 255) (y := curLevel - g.lowThresh) (by rw [h255]; omega)
    have hproduct := eq_of_fit hdividend
    rw [h255, Nat.cast_ofNat] at hdividend hproduct
    have hdivisor := fit_usub (UInt32.le_trans (UInt32.le_of_lt hlow) hle)
    have hrange := eq_of_fit hdivisor
    have hquotient := fit_udiv (x := 255 * (curLevel - g.lowThresh)) (y := g.highThresh - g.lowThresh)
    -- the quotient is the level before it becomes an 8-bit number
    have hlevel : (255 * (curLevel - g.lowThresh) / (g.highThresh - g.lowThresh)).toNat =
        (relativeLevel g curLevel).toNat := by
      rw [toNat_relativeLevel hlow hle (by omega), UInt32.toNat_div]
      congr 1 <;> omega
    have hlt := (relativeLevel g curLevel).toNat_lt
    rw [if_neg (by omega)]
    simp only [habove, hdividend, hdivisor, Option.bind_eq_bind, Option.bind_some]
    rw [if_neg (by omega), hquotient, Option.bind_some, hlevel]
    exact fit_of_le (by simp only [uint8]; omega) (by simp only [uint8]; omega)

/-- The level of a higher voltage is not lower. -/
lemma relativeLevel_mono {higher : UInt32} (hlow : g.lowThresh < curLevel) (hle : curLevel ≤ higher)
    (hhigher : higher.toNat ≤ 3629) : relativeLevel g curLevel ≤ relativeLevel g higher := by
  have hlow' := UInt32.lt_iff_toNat_lt.mp hlow
  have hle' := UInt32.le_iff_toNat_le.mp hle
  have hlowHigher : g.lowThresh < higher := UInt32.lt_of_lt_of_le hlow hle
  rw [UInt8.le_iff_toNat_le]
  by_cases hhigh : g.highThresh < higher
  · rw [relativeLevel_of_above hlowHigher hhigh]
    exact Nat.le_of_lt_succ (UInt8.toNat_lt _)
  · have hnot := UInt32.not_lt.mp hhigh
    rw [toNat_relativeLevel hlow (UInt32.le_trans hle hnot) (by omega),
      toNat_relativeLevel hlowHigher hnot (by omega)]
    exact Nat.div_le_div_right (Nat.mul_le_mul_left 255 (by omega))

/-- At the high threshold and above it the level is 255. -/
lemma relativeLevel_eq_full (hlow : g.lowThresh < curLevel) (hhigh : g.highThresh ≤ curLevel)
    (hcur : curLevel.toNat ≤ 3629) : relativeLevel g curLevel = 0xff := by
  have hlow' := UInt32.lt_iff_toNat_lt.mp hlow
  have hhigh' := UInt32.le_iff_toNat_le.mp hhigh
  by_cases habove : g.highThresh < curLevel
  · exact relativeLevel_of_above hlow habove
  · have hle := UInt32.not_lt.mp habove
    have heq : g.highThresh = curLevel := UInt32.le_antisymm hhigh hle
    have hfull : (255 : UInt8).toNat = 255 := rfl
    apply UInt8.toNat_inj.mp
    rw [toNat_relativeLevel hlow hle (by omega), heq, hfull]
    exact Nat.mul_div_cancel _ (by omega)

/-- The numbers of a colour have 8 bits. -/
lemma ledColorExact_eq (level : UInt8) :
    ledColorExact level.toNat =
      some (((ledColor level).red.toNat : ℤ), ((ledColor level).green.toNat : ℤ)) := by
  have hlt := level.toNat_lt
  have h255 : (255 : UInt8).toNat = 255 := rfl
  have h128 : (128 : UInt8).toNat = 128 := rfl
  have h2 : (2 : UInt8).toNat = 2 := rfl
  have hint (x : ℤ) (hlo : -512 ≤ x) (hhi : x ≤ 512) : int32.fit x = some x :=
    fit_of_le (by simp only [int32]; omega) (by simp only [int32]; omega)
  have hbyte (x : ℤ) (hlo : 0 ≤ x) (hhi : x ≤ 255) : uint8.fit x = some x := fit_of_le hlo hhi
  rw [ledColorExact, hint _ (by omega) (by omega), Option.bind_eq_bind, Option.bind_some,
    hbyte _ (by omega) (by omega), Option.bind_some, ledColor]
  by_cases hfull : level ≥ 128
  · have hfull' := UInt8.le_iff_toNat_le.mp hfull
    have hrest : (255 - level).toNat = 255 - level.toNat :=
      UInt8.toNat_sub_of_le _ _ (UInt8.le_iff_toNat_le.mpr (by omega))
    have hred : (2 * (255 - level)).toNat = 2 * (255 - level.toNat) := by
      rw [UInt8.toNat_mul, hrest, h2]
      omega
    rw [if_pos (by omega), if_pos hfull, Option.bind_some, hint _ (by omega) (by omega),
      Option.bind_some, hbyte _ (by omega) (by omega)]
    simp only [Option.bind_some, Option.pure_def, hred, h255, Option.some.injEq, Prod.mk.injEq]
    omega
  · have hfull' := UInt8.lt_iff_toNat_lt.mp (UInt8.not_le.mp hfull)
    have hgreen : (2 * level).toNat = 2 * level.toNat := by
      rw [UInt8.toNat_mul, h2]
      omega
    rw [if_neg (by omega), if_neg hfull, hint _ (by omega) (by omega), Option.bind_some,
      hbyte _ (by omega) (by omega)]
    simp only [Option.bind_some, Option.pure_def, hgreen, h255, Option.some.injEq, Prod.mk.injEq]
    omega

end Level

/-! ## The whole chain -/

/-- With samples of 12 bits nothing overflows from the samples to the level, and the level is monotone
in the voltage up to 255 at the high threshold. -/
theorem computesExactly {calibration samples : List UInt16}
    (hcalibration : ∀ v ∈ calibration, v.toNat < 4096) (hsamples : ∀ v ∈ samples, v.toNat < 4096)
    (g : Globals) :
    ComputesExactly g calibration samples ∧
      ∀ v w : UInt32, g.lowThresh < v → v ≤ w → w.toNat ≤ 3629 →
        relativeLevel g v ≤ relativeLevel g w ∧ (g.highThresh ≤ v → relativeLevel g v = 0xff) := by
  have hoffsets := toNat_rawDataAt_lt hcalibration
  obtain ⟨hpowerState, hbattery⟩ :=
    powerStateExact_eq (smooth_bounds hoffsets) (toNat_rawDataAt_lt hsamples)
  have hread := systemPowerStateAt_encode (measured calibration samples)
  constructor
  · constructor
    case offsetVoltages => exact smoothExact_eq hoffsets
    case powerState => exact hpowerState
    case batteryVoltcV_le => exact hbattery
    case switchAllOff_iff =>
      rw [onNewPwrMeasurement, hread]
      split
      · next hoff => exact iff_of_true rfl hoff
      · next hon => exact iff_of_false (by simp) hon
    case post =>
      intro color level hpost
      rw [onNewPwrMeasurement, hread] at hpost
      split at hpost
      · cases hpost
      · next hon =>
        obtain ⟨rfl, rfl⟩ := Reaction.post.inj hpost
        have hlow := UInt32.not_le.mp hon
        exact ⟨relativeLevelExact_eq hlow hbattery, ledColorExact_eq _⟩
  · intro v w hlow hle hw
    have hv := (UInt32.le_iff_toNat_le.mp hle).trans hw
    exact ⟨relativeLevel_mono hlow hle hw, fun hhigh => relativeLevel_eq_full hlow hhigh hv⟩

theorem computesExactly_constant :
    ComputesExactly defaultThresholds (List.replicate 100 2048) (List.replicate 100 1300) := by
  have hcalibration : ∀ v ∈ List.replicate 100 (2048 : UInt16), v.toNat < 4096 := by
    intro v hv
    rw [List.eq_of_mem_replicate hv]
    decide
  have hsamples : ∀ v ∈ List.replicate 100 (1300 : UInt16), v.toNat < 4096 := by
    intro v hv
    rw [List.eq_of_mem_replicate hv]
    decide
  exact (computesExactly hcalibration hsamples defaultThresholds).1

end Powerboard.PowerCheck
