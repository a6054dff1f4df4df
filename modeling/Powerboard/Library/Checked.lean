import Mathlib.Data.UInt
import Mathlib.Tactic

/-!
# Arithmetic with tested results

A computation of C on integers can be written over `ℤ`, with a test behind every operation and
conversion whether its result is a value of its type (`IntType.fit`). If the tests succeed, no result
has wrapped, and the machine computes what is written. The rules say this for the operations, from the
values of the machine, so that a computation is followed step by step.
-/

namespace Powerboard.Checked

/-- The range of an integer type. -/
structure IntType where
  lo : ℤ
  hi : ℤ

/-- `int32_t` -/
def int32 : IntType := { lo := -2147483648, hi := 2147483647 }

/-- `uint32_t` -/
def uint32 : IntType := { lo := 0, hi := 4294967295 }

/-- `uint8_t` -/
def uint8 : IntType := { lo := 0, hi := 255 }

/-- The result of an operation, if it is a value of the type. -/
def IntType.fit (t : IntType) (x : ℤ) : Option ℤ := if t.lo ≤ x ∧ x ≤ t.hi then some x else none

theorem fit_of_le {t : IntType} {x : ℤ} (hlo : t.lo ≤ x) (hhi : x ≤ t.hi) : t.fit x = some x :=
  if_pos ⟨hlo, hhi⟩

theorem eq_of_fit {t : IntType} {x y : ℤ} (h : t.fit x = some y) : y = x := by
  unfold IntType.fit at h
  split at h
  · exact (Option.some.inj h).symm
  · exact nomatch h

/-! ## Signed words -/

section Int32
variable {x y : Int32}

theorem bmod_of_int32 {z : ℤ} (hlo : int32.lo ≤ z) (hhi : z ≤ int32.hi) : z.bmod (2 ^ 32) = z := by
  simp only [int32] at hlo hhi
  apply Int.bmod_eq_of_le_mul_two
  · omega
  · omega

theorem fit_add (hlo : int32.lo ≤ x.toInt + y.toInt) (hhi : x.toInt + y.toInt ≤ int32.hi) :
    int32.fit (x.toInt + y.toInt) = some (x + y).toInt := by
  rw [fit_of_le hlo hhi, Int32.toInt_add, bmod_of_int32 hlo hhi]

theorem fit_sub (hlo : int32.lo ≤ x.toInt - y.toInt) (hhi : x.toInt - y.toInt ≤ int32.hi) :
    int32.fit (x.toInt - y.toInt) = some (x - y).toInt := by
  rw [fit_of_le hlo hhi, Int32.toInt_sub, bmod_of_int32 hlo hhi]

theorem fit_mul (hlo : int32.lo ≤ x.toInt * y.toInt) (hhi : x.toInt * y.toInt ≤ int32.hi) :
    int32.fit (x.toInt * y.toInt) = some (x * y).toInt := by
  rw [fit_of_le hlo hhi, Int32.toInt_mul, bmod_of_int32 hlo hhi]

/-- The division of C rounds towards zero. By a positive number it does not leave the range. -/
theorem fit_tdiv (hpos : 0 < y.toInt) :
    int32.fit (x.toInt.tdiv y.toInt) = some (x / y).toInt := by
  have hne : y ≠ -1 := by
    rintro rfl
    exact absurd hpos (by decide)
  rw [← Int32.toInt_div_of_ne_right x y hne]
  have hlo := Int32.le_toInt (x / y)
  have hhi := Int32.toInt_lt (x / y)
  apply fit_of_le <;> simp only [int32] <;> omega

end Int32

/-! ## Unsigned words -/

section UInt32
variable {x y : UInt32}

theorem fit_usub (h : y ≤ x) :
    uint32.fit ((x.toNat : ℤ) - y.toNat) = some ((x - y).toNat : ℤ) := by
  have hle := UInt32.le_iff_toNat_le.mp h
  have hlt := x.toNat_lt
  rw [UInt32.toNat_sub_of_le _ _ h, Nat.cast_sub hle]
  apply fit_of_le
  · show (0 : ℤ) ≤ _
    omega
  · show _ ≤ (4294967295 : ℤ)
    omega

theorem fit_umul (h : x.toNat * y.toNat < 2 ^ 32) :
    uint32.fit ((x.toNat : ℤ) * y.toNat) = some ((x * y).toNat : ℤ) := by
  rw [UInt32.toNat_mul, Nat.mod_eq_of_lt h, Nat.cast_mul]
  apply fit_of_le
  · show (0 : ℤ) ≤ _
    exact Int.mul_nonneg (Int.natCast_nonneg _) (Int.natCast_nonneg _)
  · show _ ≤ (4294967295 : ℤ)
    rw [← Nat.cast_mul]
    omega

/-- A quotient is never too large. -/
theorem fit_udiv : uint32.fit ((x.toNat : ℤ) / y.toNat) = some ((x / y).toNat : ℤ) := by
  have hlt := x.toNat_lt
  have hle : x.toNat / y.toNat ≤ x.toNat := Nat.div_le_self _ _
  rw [UInt32.toNat_div, ← Int.natCast_ediv]
  apply fit_of_le
  · exact Int.natCast_nonneg _
  · show _ ≤ (4294967295 : ℤ)
    omega

end UInt32

/-! ## Conversions -/

/-- A signed and an unsigned word with the same bits -/
theorem toInt_eq (x : Int32) :
    x.toInt = if 2 * x.toUInt32.toNat < 2 ^ 32 then (x.toUInt32.toNat : ℤ)
      else (x.toUInt32.toNat : ℤ) - 2 ^ 32 := by
  have h := BitVec.toInt_eq_toNat_cond x.toBitVec
  push_cast at h
  exact h

theorem fit_toUInt32 {x : Int32} (h : 0 ≤ x.toInt) :
    uint32.fit x.toInt = some (x.toUInt32.toNat : ℤ) := by
  have hlt := x.toUInt32.toNat_lt
  rw [toInt_eq] at h ⊢
  split at h
  · next hsmall =>
    rw [if_pos hsmall]
    apply fit_of_le
    · exact Int.natCast_nonneg _
    · show _ ≤ (4294967295 : ℤ)
      omega
  · omega

theorem fit_toInt32 {x : UInt32} (h : x.toNat < 2 ^ 31) :
    int32.fit x.toNat = some x.toInt32.toInt := by
  have heq : x.toInt32.toInt = x.toNat := by
    rw [toInt_eq, UInt32.toUInt32_toInt32, if_pos (by omega)]
  rw [heq]
  apply fit_of_le
  · show (-2147483648 : ℤ) ≤ _
    omega
  · show _ ≤ (2147483647 : ℤ)
    omega

end Powerboard.Checked
