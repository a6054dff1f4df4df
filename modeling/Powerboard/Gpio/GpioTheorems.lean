import Powerboard.Gpio.Gpio

/-!
# Pins are configured and driven each on its own
-/

namespace Powerboard.Gpio

open Machine Registers

/-! ## Configuring -/

lemma toNat_setWidth_lt {v : BitVec 8} {k : ℕ} (h : v.toNat < k) : (v.setWidth 32).toNat < k := by
  rwa [BitVec.toNat_setWidth_of_le (by decide)]

lemma mask2_covers (k : ℕ) (hk : k < 2) : (0x3#32).getLsbD k = true := by
  interval_cases k <;> rfl

lemma mask4_covers (k : ℕ) (hk : k < 4) : (0xf#32).getLsbD k = true := by
  interval_cases k <;> rfl

/-- The field of two bits of a pin, in the registers with one for each pin of a port -/
lemma pinField_setFields {v : BitVec 8} (hv : v.toNat < 4) (gpios : BitVec 16) (reg : BitVec 32)
    {i : ℕ} (hi : i < 16) :
    (setFields 0x3#32 (v.setWidth 32) gpios (2 * ·) (List.range 16) reg).extractLsb' (2 * i) 2 =
      if gpios.getLsbD i = true then v.setWidth 2 else reg.extractLsb' (2 * i) 2 := by
  have hpos : ∀ a ∈ List.range 16, 2 * a + 2 ≤ 32 := fun a ha => by
    have ha := List.mem_range.mp ha
    omega
  have hapart : ∀ a ∈ List.range 16, a ≠ i → 2 * a + 2 ≤ 2 * i ∨ 2 * i + 2 ≤ 2 * a :=
    fun a _ hne => by omega
  refine (extractLsb'_setFields mask2_covers (by decide) (toNat_setWidth_lt hv) hpos hapart
    reg).trans ?_
  simp [hi]

/-- The field of four bits of a pin in `GPIO_AFRL` or `GPIO_AFRH` -/
lemma afrField_setFields {v : BitVec 8} (hv : v.toNat < 16) (gpios : BitVec 16) (reg : BitVec 32)
    {base i : ℕ} (hi : base ≤ i ∧ i < base + 8) :
    (setFields 0xf#32 (v.setWidth 32) gpios (fun i => 4 * (i - base)) (List.range' base 8)
        reg).extractLsb' (4 * (i - base)) 4 =
      if gpios.getLsbD i = true then v.setWidth 4 else reg.extractLsb' (4 * (i - base)) 4 := by
  have hmem : ∀ {a}, a ∈ List.range' base 8 → base ≤ a ∧ a < base + 8 := fun ha =>
    List.mem_range'_1.mp ha
  have hpos : ∀ a ∈ List.range' base 8, 4 * (a - base) + 4 ≤ 32 := fun a ha => by
    have ha := hmem ha
    omega
  have hapart : ∀ a ∈ List.range' base 8, a ≠ i →
      4 * (a - base) + 4 ≤ 4 * (i - base) ∨ 4 * (i - base) + 4 ≤ 4 * (a - base) :=
    fun a ha hne => by
      have ha := hmem ha
      omega
  refine (extractLsb'_setFields mask4_covers (by decide) (toNat_setWidth_lt hv) hpos hapart
    reg).trans ?_
  simp [List.mem_range'_1, hi]

/-- A call configures the pins in its mask and no other. -/
lemma pin_configure {call : Configure} (hfits : call.Fits) (p : PortRegisters) {i : ℕ}
    (hi : i < 16) : (configure p call).pin i = (p.pin i).after i call := by
  cases call with
  | modeSetup mode pullUpDown gpios =>
    simp only [configure, gpioModeSetup, PortRegisters.pin, PinConfig.after,
      pinField_setFields hfits.1 gpios _ hi, pinField_setFields hfits.2 gpios _ hi]
    split_ifs <;> rfl
  | setOutputOptions otype speed gpios =>
    simp only [configure, gpioSetOutputOptions, PortRegisters.pin, PinConfig.after,
      pinField_setFields hfits gpios _ hi]
    by_cases hpin : gpios.getLsbD i = true <;> by_cases hotype : otype = 0x1#8 <;>
      simp [hpin, hotype, show i < 32 by omega]
  | setAf altFuncNum gpios =>
    simp only [configure, gpioSetAf, PortRegisters.pin, PinConfig.after]
    by_cases hlow : i < 8
    · have hfield := afrField_setFields hfits gpios p.afrl (show 0 ≤ i ∧ i < 0 + 8 by omega)
      simp only [Nat.sub_zero] at hfield
      simp only [hlow, if_true, List.range_eq_range', hfield]
      split_ifs <;> rfl
    · have hfield := afrField_setFields hfits gpios p.afrh (show 8 ≤ i ∧ i < 8 + 8 by omega)
      simp only [hlow, if_false, hfield]
      split_ifs <;> rfl

/-- After any calls, in any order and on any masks, every pin of the port is configured as the calls
with this pin in their masks say, each overriding those before it. -/
theorem pins_configured (calls : List Configure) (hfits : ∀ call ∈ calls, call.Fits)
    (p : PortRegisters) {i : ℕ} (hi : i < 16) :
    (calls.foldl configure p).pin i = calls.foldl (PinConfig.after i) (p.pin i) := by
  induction calls generalizing p with
  | nil => rfl
  | cons call calls ih =>
    rw [List.foldl_cons, List.foldl_cons, ← pin_configure (hfits call List.mem_cons_self) p hi]
    exact ih (fun c hc => hfits c (List.mem_cons_of_mem call hc)) _

/-- A port after reset -/
def resetPort : PortRegisters :=
  { moder := 0, otyper := 0, ospeedr := 0, pupdr := 0, afrl := 0, afrh := 0 }

/-- The pins of the red and the green LED become outputs, then pins of the timer. -/
def ledSetup : List Configure :=
  [.modeSetup 1 0 0x38, .setOutputOptions 0 2 0x38, .modeSetup 2 0 0x30, .setAf 1 0x30]

theorem pins_configured_ledSetup :
    (ledSetup.foldl configure resetPort).pin 4 =
      { mode := 2, pullUpDown := 0, openDrain := false, speed := 2, alternateFunction := 1 } := by
  refine (pins_configured ledSetup (fun call hcall => ?_) resetPort (by decide)).trans (by decide)
  simp only [ledSetup, List.mem_cons, List.not_mem_nil, or_false] at hcall
  rcases hcall with rfl | rfl | rfl | rfl
  · exact ⟨by decide, by decide⟩
  · exact show (2#8).toNat < 4 by decide
  · exact ⟨by decide, by decide⟩
  · exact show (1#8).toNat < 16 by decide

/-! ## Driving -/

/-- Pin `i` after a write to `GPIO_BSRR` -/
lemma getLsbD_writeBsrr (odr v : BitVec 32) {i : ℕ} (hi : i < 16) :
    (writeBsrr odr v).getLsbD i = (v.getLsbD i || odr.getLsbD i && !v.getLsbD (16 + i)) := by
  have hlow : (0xffff#32).getLsbD i = true := by interval_cases i <;> rfl
  rw [writeBsrr, BitVec.getLsbD_or, getLsbD_clear, BitVec.getLsbD_and, hlow, Bool.and_true,
    BitVec.getLsbD_ushiftRight, Bool.or_comm]

lemma getLsbD_pins (gpios : BitVec 16) {i : ℕ} (hi : i < 16) :
    (gpios.setWidth 32).getLsbD i = gpios.getLsbD i ∧
      (gpios.setWidth 32).getLsbD (16 + i) = false := by
  constructor
  · simp [show i < 32 by omega]
  · rw [BitVec.getLsbD_setWidth, BitVec.getLsbD_of_ge gpios (16 + i) (by omega), Bool.and_false]

lemma set_apply (odr : BitVec 32) (gpios : BitVec 16) {i : ℕ} (hi : i < 16) :
    (gpioSet odr gpios).getLsbD i = (PinOp.set gpios).apply i (odr.getLsbD i) := by
  obtain ⟨hlow, hhigh⟩ := getLsbD_pins gpios hi
  rw [gpioSet, getLsbD_writeBsrr _ _ hi, hlow, hhigh]
  simp [PinOp.apply]

lemma clear_apply (odr : BitVec 32) (gpios : BitVec 16) {i : ℕ} (hi : i < 16) :
    (gpioClear odr gpios).getLsbD i = (PinOp.clear gpios).apply i (odr.getLsbD i) := by
  have hlow := (getLsbD_pins gpios hi).1
  rw [gpioClear, getLsbD_writeBsrr _ _ hi, BitVec.getLsbD_shiftLeft, BitVec.getLsbD_shiftLeft,
    Nat.add_sub_cancel_left, hlow]
  simp [PinOp.apply, hi, show 16 + i < 32 by omega, Bool.and_comm]

/-- What a toggle writes for pin `i`, when it has read `port` before. -/
lemma toggle_apply (odr port : BitVec 32) (gpios : BitVec 16) {i : ℕ} (hi : i < 16) :
    (gpioToggle odr port gpios).getLsbD i =
      if gpios.getLsbD i = true then !port.getLsbD i else odr.getLsbD i := by
  obtain ⟨hlow, hhigh⟩ := getLsbD_pins gpios hi
  rw [gpioToggle, getLsbD_writeBsrr _ _ hi]
  simp only [BitVec.getLsbD_or, BitVec.getLsbD_shiftLeft, BitVec.getLsbD_and,
    BitVec.getLsbD_not, Nat.add_sub_cancel_left, hlow, hhigh, hi, show i < 32 by omega,
    show 16 + i < 32 by omega]
  cases gpios.getLsbD i <;> cases port.getLsbD i <;> simp

variable {owner : ℕ → ℕ}

/-- The pins are as their owners left them, and what a context has read of its own pins is still
so. -/
structure OutputsOk (owner : ℕ → ℕ) (level : ℕ → Bool) (s : Outputs) : Prop where
  level : ∀ i < 16, s.odr.getLsbD i = level i
  port : ∀ c port, s.port c = some port → ∀ i < 16, owner i = c →
    port.getLsbD i = s.odr.getLsbD i

/-- The level that the owner of a pin makes with an access -/
def levelAfter (owner : ℕ → ℕ) (level : ℕ → Bool) (a : Access) (i : ℕ) : Bool :=
  (a.completes (owner i)).elim (level i) (PinOp.apply i (level i))

/-- A context that writes, writes to its own pins. -/
lemma OutputsOk.write {level level' : ℕ → Bool} {s : Outputs} (h : OutputsOk owner level s)
    {context : ℕ} {odr : BitVec 32} {port : ℕ → Option (BitVec 32)} (hport : port context = none)
    (hothers : ∀ c, c ≠ context → port c = s.port c)
    (hlevel : ∀ i < 16, odr.getLsbD i = level' i)
    (hkeep : ∀ i < 16, owner i ≠ context → level' i = level i) :
    OutputsOk owner level' { odr := odr, port := port } where
  level := hlevel
  port c p hp i hi howner := by
    have hne : c ≠ context := by
      rintro rfl
      simp [hport] at hp
    simp only [hothers c hne] at hp
    rw [h.port c p hp i hi howner, h.level i hi, hlevel i hi,
      hkeep i hi (by rw [howner]; exact hne)]

/-- A pin that is not in the mask of an access keeps its level. -/
lemma apply_of_not_mem (op : PinOp) {gpios : BitVec 16} {i : ℕ} (hi : gpios.getLsbD i = false)
    (hop : op = .set gpios ∨ op = .clear gpios ∨ op = .toggle gpios) (level : Bool) :
    op.apply i level = level := by
  rcases hop with rfl | rfl | rfl <;> simp [PinOp.apply, hi]

lemma levelAfter_of_ne {level : ℕ → Bool} {a : Access} {i : ℕ}
    (hne : a.completes (owner i) = none) : levelAfter owner level a i = level i := by
  simp [levelAfter, hne]

/-- The operation of a context on its own pins is one of their owner, and of no other pin's. -/
lemma OutputsOk.operate {level : ℕ → Bool} {s : Outputs} {a : Access}
    (h : OutputsOk owner level s) {context : ℕ} {gpios : BitVec 16} {op : PinOp}
    {odr : BitVec 32} {port : ℕ → Option (BitVec 32)} (hport : port context = none)
    (hothers : ∀ c, c ≠ context → port c = s.port c)
    (hcompletes : ∀ c, a.completes c = if context = c then some op else none)
    (howns : ∀ i, gpios.getLsbD i = true → owner i = context)
    (hop : op = .set gpios ∨ op = .clear gpios ∨ op = .toggle gpios)
    (hodr : ∀ i < 16, odr.getLsbD i = op.apply i (s.odr.getLsbD i)) :
    OutputsOk owner (levelAfter owner level a) { odr := odr, port := port } := by
  have hkeep (i : ℕ) (hne : owner i ≠ context) : levelAfter owner level a i = level i := by
    apply levelAfter_of_ne
    rw [hcompletes, if_neg (Ne.symm hne)]
  refine h.write hport hothers (fun i hi => ?_) fun i _ hne => hkeep i hne
  rw [hodr i hi, h.level i hi]
  by_cases howner : owner i = context
  · rw [levelAfter, hcompletes, if_pos howner.symm]
    rfl
  · have hpin : gpios.getLsbD i = false := by
      by_contra hpin
      exact howner (howns i (by simpa using hpin))
    rw [apply_of_not_mem _ hpin hop, hkeep i howner]

/-- Every access is its owner's operation on each pin. -/
lemma access_ok {level : ℕ → Bool} {s t : Outputs} {a : Access} (h : OutputsOk owner level s)
    (ha : a.OnOwnPins owner) (hstep : access s a = some t) :
    OutputsOk owner (levelAfter owner level a) t := by
  cases a with
  | set context gpios =>
    simp only [access, Option.ite_none_right_eq_some, Option.some.injEq] at hstep
    obtain ⟨hnone, rfl⟩ := hstep
    exact h.operate hnone (fun _ _ => rfl) (fun _ => rfl) ha (.inl rfl)
      fun i hi => set_apply _ _ hi
  | clear context gpios =>
    simp only [access, Option.ite_none_right_eq_some, Option.some.injEq] at hstep
    obtain ⟨hnone, rfl⟩ := hstep
    exact h.operate hnone (fun _ _ => rfl) (fun _ => rfl) ha (.inr (.inl rfl))
      fun i hi => clear_apply _ _ hi
  | toggleRead context =>
    simp only [access, Option.ite_none_right_eq_some, Option.some.injEq] at hstep
    obtain ⟨-, rfl⟩ := hstep
    refine ⟨fun i hi => h.level i hi, fun c p hp i hi howner => ?_⟩
    by_cases hc : c = context
    · subst hc
      simp only [Function.update_self, Option.some.injEq] at hp
      rw [← hp]
    · simp only [Function.update_of_ne hc] at hp
      exact h.port c p hp i hi howner
  | toggleWrite context gpios =>
    simp only [access, Option.map_eq_some_iff] at hstep
    obtain ⟨port, hport, rfl⟩ := hstep
    refine h.operate (Function.update_self ..) (fun c hc => Function.update_of_ne hc _ _)
      (fun _ => rfl) ha (.inr (.inr rfl)) fun i hi => ?_
    rw [toggle_apply _ _ _ hi]
    -- on its own pins a context has read what is still there
    by_cases hpin : gpios.getLsbD i = true
    · rw [if_pos hpin, h.port context port hport i hi (ha i hpin)]
      simp [PinOp.apply, hpin]
    · rw [if_neg hpin]
      simp [PinOp.apply, hpin]

/-- Contexts that work each on its own pins of one port do not disturb one another, in whatever order
their accesses come and although a toggle reads and writes in two: every pin has the level that the
operations of its owner make of it. -/
theorem pins_independent (owner : ℕ → ℕ) {odr : BitVec 32} {as : List Access} {s : Outputs}
    (has : ∀ a ∈ as, a.OnOwnPins owner)
    (h : exec access { odr := odr, port := fun _ => none } as = some s) {i : ℕ} (hi : i < 16) :
    s.odr.getLsbD i =
      (as.filterMap (Access.completes (owner i))).foldl (PinOp.apply i) (odr.getLsbD i) := by
  -- the levels of all pins, since an access may be any context's
  have hrun : ∀ (as : List Access) (level : ℕ → Bool) (u : Outputs), (∀ a ∈ as, a.OnOwnPins owner) →
      OutputsOk owner level u → exec access u as = some s →
      s.odr.getLsbD i = (as.filterMap (Access.completes (owner i))).foldl (PinOp.apply i)
        (level i) := by
    intro as
    induction as with
    | nil =>
      intro level u _ hu hexec
      simp only [exec_nil, Option.some.injEq] at hexec
      rw [← hexec]
      exact hu.level i hi
    | cons a as ih =>
      intro level u has hu hexec
      obtain ⟨v, hv, hexec⟩ := (exec_cons_eq_some access).mp hexec
      rw [ih (levelAfter owner level a) v (fun b hb => has b (List.mem_cons_of_mem a hb))
        (access_ok hu (has a List.mem_cons_self) hv) hexec]
      cases hcompletes : a.completes (owner i) with
      | none => rw [levelAfter_of_ne hcompletes, List.filterMap_cons_none hcompletes]
      | some op =>
        rw [List.filterMap_cons_some hcompletes, List.foldl_cons]
        simp [levelAfter, hcompletes]
  exact hrun as (fun i => odr.getLsbD i) _ has ⟨fun _ _ => rfl, by simp⟩ h

/-- A timer toggles pin 5, and the main program sets pin 3 and pin 7 in between. -/
def toggleAmongSets : List Access :=
  [.clear 0 0x8, .toggleRead 1, .set 0 0x8, .set 0 0x80, .toggleWrite 1 0x20]

theorem pins_independent_toggle :
    ∃ s, exec access { odr := 0, port := fun _ => none } toggleAmongSets = some s ∧
      s.odr.getLsbD 5 = true := by
  have howns : ∀ a ∈ toggleAmongSets, a.OnOwnPins fun i => if i = 5 then 1 else 0 := by
    have hpins : ∀ (gpios : BitVec 16) (c : ℕ), (∀ i < 16, gpios.getLsbD i = true →
        (if i = 5 then 1 else 0) = c) →
        ∀ i, gpios.getLsbD i = true → (if i = 5 then 1 else 0) = c := by
      intro gpios c h i hi
      by_cases hlt : i < 16
      · exact h i hlt hi
      · rw [BitVec.getLsbD_of_ge gpios i (by omega)] at hi
        cases hi
    intro a ha
    simp only [toggleAmongSets, List.mem_cons, List.not_mem_nil, or_false] at ha
    rcases ha with rfl | rfl | rfl | rfl | rfl
    · exact hpins _ _ (by decide)
    · trivial
    · exact hpins _ _ (by decide)
    · exact hpins _ _ (by decide)
    · exact hpins _ _ (by decide)
  exact ⟨_, rfl, pins_independent (fun i => if i = 5 then 1 else 0) howns rfl (i := 5) (by decide)⟩

end Powerboard.Gpio
