import Mathlib.Tactic

/-!
# Bits and fields of a register

A hardware register is a word in which single bits, or fields of a few bits, belong to different
users. Bits are set by `reg ||| pins` and cleared by `reg &&& ~~~pins`; a field is replaced by
`replaceField`. Each lemma says what a write leaves of the bits and fields beside it.
-/

namespace Powerboard.Registers

variable {n : ℕ}

/-! ## Bits -/

/-- A bit that is alone in its word. -/
theorem getLsbD_one_shiftLeft {i : ℕ} (hi : i < n) (j : ℕ) :
    (1#n <<< i).getLsbD j = decide (i = j) := by
  rw [← BitVec.twoPow_eq, BitVec.getLsbD_twoPow]
  simp [hi]

theorem getLsbD_clear (reg pins : BitVec n) (j : ℕ) :
    (reg &&& ~~~pins).getLsbD j = (reg.getLsbD j && !pins.getLsbD j) := by
  rw [BitVec.getLsbD_and, BitVec.getLsbD_not]
  by_cases hj : j < n
  · simp [hj]
  · simp [BitVec.getLsbD_of_ge reg j (by omega)]

/-- Whether a bit is set can be asked with the word that has only this bit. -/
theorem and_one_shiftLeft_ne_zero {pins : BitVec n} {i : ℕ} (hi : i < n) :
    pins &&& (1#n <<< i) ≠ 0#n ↔ pins.getLsbD i = true := by
  constructor
  · intro hne
    by_contra hbit
    refine hne (BitVec.eq_of_getLsbD_eq fun j _ => ?_)
    rw [BitVec.getLsbD_and, getLsbD_one_shiftLeft hi]
    by_cases hij : i = j
    · subst hij
      simpa using hbit
    · simp [hij]
  · intro hbit heq
    have hget := congrArg (BitVec.getLsbD · i) heq
    simp [getLsbD_one_shiftLeft hi, hbit] at hget

/-! ## Fields -/

/-- The field of the bits in `mask <<< pos` gets the value `v`. -/
def replaceField (mask v : BitVec n) (pos : ℕ) (reg : BitVec n) : BitVec n :=
  (reg &&& ~~~(mask <<< pos)) ||| (v <<< pos)

/-- A word below `2 ^ w` shifted by `pos` has bits only in the `w` places from `pos`. -/
theorem getLsbD_shiftLeft_of_lt {v : BitVec n} {w : ℕ} (hv : v.toNat < 2 ^ w) {pos j : ℕ}
    (hj : j < pos ∨ pos + w ≤ j) : (v <<< pos).getLsbD j = false := by
  rw [BitVec.getLsbD_shiftLeft]
  rcases hj with hj | hj
  · simp [hj]
  · have hbit : v.getLsbD (j - pos) = false := by
      rw [← BitVec.testBit_toNat]
      exact Nat.testBit_lt_two_pow (hv.trans_le (Nat.pow_le_pow_right (by norm_num) (by omega)))
    simp [hbit]

section Field
variable {mask v : BitVec n} {w : ℕ}

theorem getLsbD_replaceField_of_disjoint (hmask : mask.toNat < 2 ^ w) (hv : v.toNat < 2 ^ w)
    (reg : BitVec n) {pos j : ℕ} (hj : j < pos ∨ pos + w ≤ j) :
    (replaceField mask v pos reg).getLsbD j = reg.getLsbD j := by
  rw [replaceField, BitVec.getLsbD_or, getLsbD_clear, getLsbD_shiftLeft_of_lt hmask hj,
    getLsbD_shiftLeft_of_lt hv hj]
  simp

/-- A field beside the one that is replaced. -/
theorem extractLsb'_replaceField_of_disjoint (hmask : mask.toNat < 2 ^ w) (hv : v.toNat < 2 ^ w)
    (reg : BitVec n) {pos other len : ℕ} (h : other + len ≤ pos ∨ pos + w ≤ other) :
    (replaceField mask v pos reg).extractLsb' other len = reg.extractLsb' other len := by
  apply BitVec.eq_of_getLsbD_eq
  intro k hk
  rw [BitVec.getLsbD_extractLsb', BitVec.getLsbD_extractLsb',
    getLsbD_replaceField_of_disjoint hmask hv reg (by omega)]

/-- The field that is replaced has the value, if the mask covers it. -/
theorem extractLsb'_replaceField (hmask : ∀ k < w, mask.getLsbD k = true) (reg : BitVec n)
    {pos : ℕ} (hpos : pos + w ≤ n) :
    (replaceField mask v pos reg).extractLsb' pos w = v.setWidth w := by
  apply BitVec.eq_of_getLsbD_eq
  intro k hk
  have hlt : pos + k < n := by omega
  rw [BitVec.getLsbD_extractLsb', replaceField, BitVec.getLsbD_or, getLsbD_clear,
    BitVec.getLsbD_shiftLeft, BitVec.getLsbD_shiftLeft, BitVec.getLsbD_setWidth]
  simp [hlt, hk, hmask k hk]

/-- A loop that replaces the fields at `pos i` for the `i` that are in a mask. -/
def setFields (mask v : BitVec n) {k : ℕ} (pins : BitVec k) (pos : ℕ → ℕ) (is : List ℕ)
    (reg : BitVec n) : BitVec n :=
  is.foldl (fun reg i => if pins.getLsbD i then replaceField mask v (pos i) reg else reg) reg

/-- Exactly the fields in the mask have the value. -/
theorem extractLsb'_setFields {k : ℕ} {pins : BitVec k} {pos : ℕ → ℕ} {is : List ℕ}
    (hmask : ∀ k < w, mask.getLsbD k = true) (hlt : mask.toNat < 2 ^ w) (hv : v.toNat < 2 ^ w)
    (hpos : ∀ i ∈ is, pos i + w ≤ n) {j : ℕ}
    (hapart : ∀ i ∈ is, i ≠ j → pos i + w ≤ pos j ∨ pos j + w ≤ pos i) (reg : BitVec n) :
    (setFields mask v pins pos is reg).extractLsb' (pos j) w =
      if pins.getLsbD j = true ∧ j ∈ is then v.setWidth w else reg.extractLsb' (pos j) w := by
  induction is generalizing reg with
  | nil => simp [setFields]
  | cons i is ih =>
    have hrest := ih (fun a ha => hpos a (List.mem_cons_of_mem i ha))
      fun a ha => hapart a (List.mem_cons_of_mem i ha)
    simp only [setFields, List.foldl_cons] at hrest ⊢
    rw [hrest]
    by_cases hi : pins.getLsbD i = true
    · rw [if_pos hi]
      by_cases hij : i = j
      · subst hij
        rw [extractLsb'_replaceField hmask reg (hpos i List.mem_cons_self)]
        simp [hi]
      · rw [extractLsb'_replaceField_of_disjoint hlt hv reg
          ((hapart i List.mem_cons_self hij).symm)]
        simp [Ne.symm hij]
    · rw [if_neg hi]
      by_cases hij : i = j
      · subst hij
        simp [hi]
      · simp [Ne.symm hij]

end Field

end Powerboard.Registers
