import Powerboard.Gpio.GpioTheorems
import Powerboard.GpioInterrupts.GpioInterrupts

/-!
# Which lines a registration touches

A registration reduces its mask to the lowest pin but does not test that this pin has a handle. The
removal tests it, but clears the bits of all the pins of its mask.
-/

namespace Powerboard.GpioInterrupts

open Machine Registers

variable {s : GpioState} {callback : Option InterruptCallback} {port : Port}
  {pin triggerLevel : BitVec 32} {info : Option ℕ} {line : Fin gpioMaxPin} {i j : ℕ}

/-! ## The lowest pin -/

lemma LowestPin.unique (hi : LowestPin pin i) (hj : LowestPin pin j) : i = j := by
  rcases Nat.lt_trichotomy i j with hlt | heq | hgt
  · exact absurd hi.1 (by rw [hj.2 i hlt]; exact Bool.false_ne_true)
  · exact heq
  · exact absurd hj.1 (by rw [hi.2 j hgt]; exact Bool.false_ne_true)

/-- The loop tests the bits of the mask one by one. -/
lemma pinIdx_eq_find (pin : BitVec 32) :
    pinIdx pin = ((List.range 32).find? (pin.getLsbD ·)).getD 32 := by
  unfold pinIdx
  congr 1
  apply List.find?_congr
  intro i hi
  rw [Bool.eq_iff_iff, decide_eq_true_iff]
  exact and_one_shiftLeft_ne_zero (List.mem_range.mp hi)

/-- The loop stops at the lowest pin, -/
lemma lowestPin_pinIdx (h : pinIdx pin < 32) : LowestPin pin (pinIdx pin) := by
  rw [pinIdx_eq_find] at h ⊢
  cases hfind : (List.range 32).find? (pin.getLsbD ·) with
  | none =>
    rw [hfind] at h
    exact absurd h (lt_irrefl _)
  | some i =>
    obtain ⟨hbit, _, hbelow⟩ := List.find?_range_eq_some.mp hfind
    exact ⟨hbit, fun j hj => by simpa using hbelow j hj⟩

/-- and not behind a pin of the mask. -/
lemma pinIdx_le (hbit : pin.getLsbD i = true) : pinIdx pin ≤ i := by
  rw [pinIdx_eq_find]
  cases hfind : (List.range 32).find? (pin.getLsbD ·) with
  | none =>
    have hclear := List.find?_range_eq_none.mp hfind i (BitVec.lt_of_getLsbD hbit)
    rw [hbit] at hclear
    exact absurd hclear (by decide)
  | some k =>
    obtain ⟨_, _, hbelow⟩ := List.find?_range_eq_some.mp hfind
    by_contra hlt
    have hclear := hbelow i (not_le.mp hlt)
    rw [hbit] at hclear
    exact absurd hclear (by decide)

lemma pinIdx_lt_iff : pinIdx pin < gpioMaxPin ↔ ∃ i < gpioMaxPin, pin.getLsbD i = true := by
  constructor
  · intro h
    exact ⟨pinIdx pin, h, (lowestPin_pinIdx (h.trans (by decide))).1⟩
  · rintro ⟨i, hi, hbit⟩
    exact (pinIdx_le hbit).trans_lt hi

lemma LowestPin.pinIdx_eq (h : LowestPin pin i) : pinIdx pin = i :=
  (lowestPin_pinIdx ((pinIdx_le h.1).trans_lt (BitVec.lt_of_getLsbD h.1))).unique h

/-! ## The registers -/

lemma portIdx_lt (port : Port) : (portIdx port).toNat < gpioMaxPin := by
  cases port <;> decide

/-- The bits of the other pins. -/
lemma getLsbD_triggerOn (enabled : Bool) (reg : BitVec 32) (hj : pin.getLsbD j = false) :
    (triggerOn enabled pin reg).getLsbD j = reg.getLsbD j := by
  cases enabled with
  | true => simp [triggerOn, hj]
  | false => simp only [triggerOn, Bool.false_eq_true, if_false, getLsbD_clear, hj, Bool.not_false,
      Bool.and_true]

lemma getLsbD_triggerOn_self (enabled : Bool) (reg : BitVec 32) (hj : pin.getLsbD j = true) :
    (triggerOn enabled pin reg).getLsbD j = enabled := by
  cases enabled with
  | true => simp [triggerOn, hj]
  | false => simp only [triggerOn, Bool.false_eq_true, if_false, getLsbD_clear, hj, Bool.not_true,
      Bool.and_false]

/-- The port selections of the other lines. -/
lemma connectLine_of_ne (exticr : Vector (BitVec 32) 4) (port : Port) (hne : j ≠ line) :
    (connectLine exticr line port)[j / 4]?.map (·.extractLsb' (j % 4 * 4) 4) =
      exticr[j / 4]?.map (·.extractLsb' (j % 4 * 4) 4) := by
  have hline : line.val < 16 := line.isLt
  have hindex : line.val / 4 < 4 := by omega
  unfold connectLine
  by_cases hsame : line.val / 4 = j / 4
  · have hport : ((portIdx port).setWidth 32).toNat < 2 ^ 4 := by
      rw [BitVec.toNat_setWidth_of_le (by decide)]
      exact portIdx_lt port
    rw [← hsame, Vector.getElem?_set_self, Option.map_some, Vector.getElem?_eq_getElem hindex,
      Option.map_some,
      extractLsb'_replaceField_of_disjoint (show (0xf#32).toNat < 2 ^ 4 by decide) hport _ (by omega)]
  · rw [Vector.getElem?_set_ne _ hsame]

/-! ## The lines -/

/-- A registration of line `line` leaves the others as they are. -/
lemma line_takeLine_of_ne (s : GpioState) (hne : j ≠ line) :
    (takeLine s line callback port (1#32 <<< line.val) triggerLevel info).line j = s.line j := by
  have hpin : (1#32 <<< line.val).getLsbD j = false := by
    rw [getLsbD_one_shiftLeft (line.isLt.trans (by decide))]
    exact decide_eq_false (Ne.symm hne)
  unfold takeLine nvicEnableIrq gpioModeSetup GpioState.line
  dsimp only
  rw [Vector.getElem?_set_ne _ (Ne.symm hne), getLsbD_triggerOn _ _ hpin, getLsbD_triggerOn _ _ hpin,
    connectLine_of_ne _ _ hne]

/-- The line that is registered has what the call asks for. -/
lemma line_takeLine_self (s : GpioState) :
    (takeLine s line callback port (1#32 <<< line.val) triggerLevel info).line line =
      { handle := some { callback := callback, info := info }
        rising := decide (triggerLevel &&& triggerLevelRising ≠ 0#32)
        falling := decide (triggerLevel &&& triggerLevelFalling ≠ 0#32)
        unmasked := s.extiImr.getLsbD line
        portSelection := some ((portIdx port).setWidth 4) } := by
  have hline : line.val < 16 := line.isLt
  have hindex : line.val / 4 < 4 := by omega
  have hpin : (1#32 <<< line.val).getLsbD line = true := by
    rw [getLsbD_one_shiftLeft (hline.trans (by decide))]
    exact decide_eq_true rfl
  unfold takeLine nvicEnableIrq gpioModeSetup GpioState.line connectLine
  dsimp only
  rw [Vector.getElem?_set_self, getLsbD_triggerOn_self _ _ hpin, getLsbD_triggerOn_self _ _ hpin,
    Vector.getElem?_set_self, Option.map_some,
    extractLsb'_replaceField (by decide) _ (show line.val % 4 * 4 + 4 ≤ 32 by omega),
    BitVec.setWidth_setWidth_of_le _ (by decide)]

/-- Only the pin that is registered is configured. -/
lemma pin_takeLine_of_ne (s : GpioState) {other : Port} (hj : j < 16)
    (hne : other ≠ port ∨ j ≠ line) :
    ((takeLine s line callback port (1#32 <<< line.val) triggerLevel info).gpio other).pin j =
      (s.gpio other).pin j := by
  unfold takeLine nvicEnableIrq gpioModeSetup
  dsimp only
  by_cases hport : other = port
  · subst hport
    have hpin : ((1#32 <<< line.val).setWidth 16).getLsbD j = false := by
      rw [BitVec.getLsbD_setWidth, getLsbD_one_shiftLeft (line.isLt.trans (by decide)),
        decide_eq_false (hne.resolve_left (fun h => h rfl)).symm, Bool.and_false]
    have hfits : (Gpio.Configure.modeSetup 0#8 0#8 ((1#32 <<< line.val).setWidth 16)).Fits :=
      ⟨by decide, by decide⟩
    rw [Function.update_self]
    refine (Gpio.pin_configure hfits (s.gpio other) hj).trans ?_
    simp only [Gpio.PinConfig.after, hpin, Bool.false_eq_true, if_false]
  · rw [Function.update_of_ne hport]

/-- A removal of line `line` clears the bits of every pin of its mask. -/
lemma line_releaseLine_of_ne (s : GpioState) (port : Port) (hne : j ≠ line) :
    (releaseLine s line port pin).line j = { s.line j with
      rising := (s.line j).rising && !pin.getLsbD j
      falling := (s.line j).falling && !pin.getLsbD j
      unmasked := (s.line j).unmasked && !pin.getLsbD j } := by
  unfold releaseLine gpioDisableInterrupt GpioState.line
  dsimp only
  rw [Vector.getElem?_set_ne _ (Ne.symm hne), getLsbD_clear, getLsbD_clear, getLsbD_clear]

lemma releaseLine_keeps_iff (s : GpioState) (port : Port) (hne : j ≠ line) :
    (releaseLine s line port pin).line j = s.line j ↔
      (pin.getLsbD j = true → (s.line j).Idle) := by
  rw [line_releaseLine_of_ne s port hne]
  obtain ⟨handle, rising, falling, unmasked, portSelection⟩ := s.line j
  cases pin.getLsbD j with
  | false => simp
  | true => simp [Line.Idle]

/-! ## The two functions, by the lowest pin -/

/-- A registration without a pin below 16 uses a handle that does not exist. -/
lemma gpioRegisterForInterrupt_of_ge (s : GpioState) (hpin : ¬pinIdx pin < gpioMaxPin) :
    gpioRegisterForInterrupt s callback port pin triggerLevel info = none := by
  unfold gpioRegisterForInterrupt
  dsimp only
  rw [if_pos (portIdx_lt port), dif_neg hpin]

lemma gpioRegisterForInterrupt_of_lowestPin (s : GpioState) (h : LowestPin pin line) :
    gpioRegisterForInterrupt s callback port pin triggerLevel info =
      some (if (s.interruptHandles.get line).callback = none ∨
          callback = (s.interruptHandles.get line).callback then
        takeLine s line callback port (1#32 <<< line.val) triggerLevel info
      else s) := by
  have hlt : pinIdx pin < gpioMaxPin := h.pinIdx_eq ▸ line.isLt
  obtain rfl : line = ⟨pinIdx pin, hlt⟩ := Fin.ext h.pinIdx_eq.symm
  unfold gpioRegisterForInterrupt
  dsimp only
  rw [if_pos (portIdx_lt port), dif_pos hlt, if_pos (hlt.trans (by decide))]
  exact (apply_ite some _ _ _).symm

lemma gpioUnregisterForInterrupt_of_ge (s : GpioState) (hpin : ¬pinIdx pin < gpioMaxPin) :
    gpioUnregisterForInterrupt s callback port pin = s := by
  unfold gpioUnregisterForInterrupt
  rw [dif_neg hpin]

lemma gpioUnregisterForInterrupt_of_lowestPin (s : GpioState) (h : LowestPin pin line) :
    gpioUnregisterForInterrupt s callback port pin =
      if callback = (s.interruptHandles.get line).callback then releaseLine s line port pin else s := by
  have hlt : pinIdx pin < gpioMaxPin := h.pinIdx_eq ▸ line.isLt
  obtain rfl : line = ⟨pinIdx pin, hlt⟩ := Fin.ext h.pinIdx_eq.symm
  unfold gpioUnregisterForInterrupt
  rw [dif_pos hlt]
  rfl

/-! ## One call -/

lemma handle_line (s : GpioState) (line : Fin gpioMaxPin) :
    (s.line line).handle = some (s.interruptHandles.get line) :=
  Vector.getElem?_eq_getElem line.isLt

/-- A call that changes the state only if the handle is free for it, and then only one line. -/
lemma keepsOtherLines_ite (h : LowestPin pin line) {t : GpioState} {free : Prop} [Decidable free]
    (hother : free → ∀ j ≠ line.val, t.line j = s.line j)
    (hfree : (s.line line).BelongsToOther callback → ¬free) :
    KeepsOtherLines callback pin s (if free then t else s) where
  refused hnone := by
    have hbit := h.1
    rw [hnone line line.isLt] at hbit
    exact absurd hbit Bool.false_ne_true
  other_line j hj := by
    by_cases hcond : free
    · rw [if_pos hcond]
      refine hother hcond j ?_
      rintro rfl
      exact hj h
    · rw [if_neg hcond]
  other_callback j hj := by
    by_cases hcond : free
    · rw [if_pos hcond]
      refine hother hcond j ?_
      rintro rfl
      exact hfree hj hcond
    · rw [if_neg hcond]

/-- A registration touches one line exactly if its mask has a pin with a handle. -/
lemma registerFor_touchesOneLine_iff (s : GpioState) (callback : Option InterruptCallback)
    (port : Port) (pin triggerLevel : BitVec 32) (info : Option ℕ) :
    TouchesOneLine s (.registerFor callback port pin triggerLevel info) ↔
      MaskFits s (.registerFor callback port pin triggerLevel info) := by
  show (∃ t, gpioRegisterForInterrupt s callback port pin triggerLevel info = some t ∧
      KeepsOtherLines callback pin s t) ↔ ∃ i < gpioMaxPin, pin.getLsbD i = true
  rw [← pinIdx_lt_iff]
  constructor
  · rintro ⟨t, ht, _⟩
    by_contra hge
    rw [gpioRegisterForInterrupt_of_ge s hge] at ht
    exact absurd ht.symm (Option.some_ne_none t)
  · intro hlt
    have hlow : LowestPin pin (⟨pinIdx pin, hlt⟩ : Fin gpioMaxPin) :=
      lowestPin_pinIdx (hlt.trans (by decide))
    refine ⟨_, gpioRegisterForInterrupt_of_lowestPin s hlow, keepsOtherLines_ite hlow ?_ ?_⟩
    · exact fun _ j hj => line_takeLine_of_ne s hj
    · rintro ⟨handle, hhandle, hsome, hne⟩ hfree
      rw [handle_line, Option.some.injEq] at hhandle
      subst hhandle
      rcases hfree with hnone | heq
      · exact hsome hnone
      · exact hne heq.symm

/-- A removal touches one line exactly if the other lines of its mask are idle or it does not find
its callback. -/
lemma unregisterFor_touchesOneLine_iff (s : GpioState) (callback : Option InterruptCallback)
    (port : Port) (pin : BitVec 32) :
    TouchesOneLine s (.unregisterFor callback port pin) ↔
      MaskFits s (.unregisterFor callback port pin) := by
  show (∃ t, some (gpioUnregisterForInterrupt s callback port pin) = some t ∧
      KeepsOtherLines callback pin s t) ↔
    ∀ i handle, LowestPin pin i → (s.line i).handle = some handle → handle.callback = callback →
      ∀ j ≠ i, pin.getLsbD j = true → (s.line j).Idle
  constructor
  · rintro ⟨t, ht, hkeeps⟩ i handle hlow hhandle hcallback j hj
    obtain ⟨line, rfl⟩ : ∃ line : Fin gpioMaxPin, line.val = i :=
      ⟨⟨i, (Vector.getElem?_eq_some_iff.mp hhandle).choose⟩, rfl⟩
    have hfound : callback = (s.interruptHandles.get line).callback := by
      rw [handle_line, Option.some.injEq] at hhandle
      rw [hhandle, hcallback]
    rw [Option.some.injEq, gpioUnregisterForInterrupt_of_lowestPin s hlow, if_pos hfound] at ht
    rw [← releaseLine_keeps_iff s port hj, ht]
    exact hkeeps.other_line j fun hlow' => hj (hlow'.unique hlow)
  · intro hfits
    refine ⟨_, rfl, ?_⟩
    by_cases hlt : pinIdx pin < gpioMaxPin
    · have hlow : LowestPin pin (⟨pinIdx pin, hlt⟩ : Fin gpioMaxPin) :=
        lowestPin_pinIdx (hlt.trans (by decide))
      rw [gpioUnregisterForInterrupt_of_lowestPin s hlow]
      refine keepsOtherLines_ite hlow ?_ ?_
      · intro hfound j hj
        rw [releaseLine_keeps_iff s port hj]
        exact hfits _ _ hlow (handle_line s _) hfound.symm j hj
      · rintro ⟨handle, hhandle, _, hne⟩ hfound
        rw [handle_line, Option.some.injEq] at hhandle
        subst hhandle
        exact hne hfound.symm
    · rw [gpioUnregisterForInterrupt_of_ge s hlt]
      exact ⟨fun _ => rfl, fun _ _ => rfl, fun _ _ => rfl⟩

lemma touchesOneLine_iff (s : GpioState) (call : GpioCall) :
    TouchesOneLine s call ↔ MaskFits s call := by
  cases call with
  | registerFor callback port pin triggerLevel info =>
    exact registerFor_touchesOneLine_iff s callback port pin triggerLevel info
  | unregisterFor callback port pin => exact unregisterFor_touchesOneLine_iff s callback port pin
  | enable => exact Iff.rfl
  | disable => exact Iff.rfl

/-- A call whose mask fits keeps to the handles. -/
lemma MaskFits.enabled {call : GpioCall} (h : MaskFits s call) : ∃ t, gpioStep s call = some t := by
  cases call with
  | registerFor =>
    obtain ⟨t, ht, _⟩ := (touchesOneLine_iff s _).mpr h
    exact ⟨t, ht⟩
  | unregisterFor => exact ⟨_, rfl⟩
  | enable => exact ⟨_, rfl⟩
  | disable => exact ⟨_, rfl⟩

/-- A registration of a line that is free, or that the callback has already, sets this line up as it
asks for, and leaves the configuration of every other pin. -/
theorem registration_sets_line (s : GpioState) (h : LowestPin pin line)
    (hfree : (s.interruptHandles.get line).callback = none ∨
      callback = (s.interruptHandles.get line).callback) :
    ∃ t, gpioStep s (.registerFor callback port pin triggerLevel info) = some t ∧
      t.line line =
        { handle := some { callback := callback, info := info }
          rising := decide (triggerLevel &&& triggerLevelRising ≠ 0#32)
          falling := decide (triggerLevel &&& triggerLevelFalling ≠ 0#32)
          unmasked := s.extiImr.getLsbD line
          portSelection := some ((portIdx port).setWidth 4) } ∧
      ∀ other, ∀ j < 16, other ≠ port ∨ j ≠ line.val →
        (t.gpio other).pin j = (s.gpio other).pin j := by
  refine ⟨_, gpioRegisterForInterrupt_of_lowestPin s h, ?_⟩
  rw [if_pos hfree]
  exact ⟨line_takeLine_self s, fun _ _ hj hne => pin_takeLine_of_ne s hj hne⟩

/-! ## Every sequence of calls -/

/-- Each call of a sequence touches one line only, exactly if the mask of each fits. -/
theorem calls_touch_one_line_iff (s : GpioState) (cs : List GpioCall) :
    StepsMeet gpioStep TouchesOneLine s cs ↔ StepsMeet gpioStep MaskFits s cs :=
  stepsMeet_congr gpioStep touchesOneLine_iff s cs

/-- The state after `gpio_interrupts_init` -/
def initialized : GpioState :=
  gpioInterruptsInit
    { interruptHandles := Vector.replicate gpioMaxPin { callback := none, info := none }
      syscfgExticr := Vector.replicate 4 0#32
      extiRtsr := 0#32
      extiFtsr := 0#32
      extiImr := 0#32
      extiPr := 0#32
      rccAhbenr := 0#32
      rccApb2enr := 0#32
      gpio := fun _ => Gpio.resetPort
      nvicEnabled := 0#32 }

/-- A registration of pin `i` of port B for the rising edge -/
def risingOf (callback : InterruptCallback) (i : ℕ) : GpioCall :=
  .registerFor (some callback) .gpiob (1#32 <<< i) triggerLevelRising none

/-- A registration without a pin, and a removal with the pin of another callback in its mask. -/
theorem calls_touch_other_lines :
    ¬StepsMeet gpioStep TouchesOneLine initialized
        [.registerFor (some 1) .gpiob 0#32 triggerLevelRising none] ∧
      ¬StepsMeet gpioStep TouchesOneLine initialized
        [risingOf 1 0, risingOf 2 1, .unregisterFor (some 1) .gpiob 0x3#32] := by
  constructor
  · intro h
    obtain ⟨t, ht, _⟩ := h [] _ [] initialized rfl rfl
    exact absurd ht.symm (Option.some_ne_none t)
  · intro h
    obtain ⟨t, ht, hkeeps⟩ := h [risingOf 1 0, risingOf 2 1] _ [] _ rfl rfl
    have hline := hkeeps.other_line 1 fun hlow => absurd (hlow.2 0 (by decide)) (by decide)
    obtain rfl := Option.some.inj ht
    exact absurd (congrArg Line.rising hline) (by decide)

/-! ## A line that is in use -/

/-- The call is not one of this callback, and does not mask or unmask this line. -/
def GpioCall.Spares (callback : InterruptCallback) (j : ℕ) : GpioCall → Prop
  | .registerFor other _ _ _ _ | .unregisterFor other _ _ => other ≠ some callback
  | .enable _ pin | .disable _ pin => pin.getLsbD j = false

/-- A call that spares the line of a callback leaves it as it is. -/
lemma line_eq_of_spares {t : GpioState} {owner : InterruptCallback} {call : GpioCall}
    (hline : ∃ handle, (s.line j).handle = some handle ∧ handle.callback = some owner)
    (hfits : MaskFits s call) (hspares : call.Spares owner j) (hstep : gpioStep s call = some t) :
    t.line j = s.line j := by
  have hother {other : Option InterruptCallback} (hne : other ≠ some owner) :
      (s.line j).BelongsToOther other := by
    obtain ⟨handle, hhandle, howner⟩ := hline
    exact ⟨handle, hhandle, howner ▸ Option.some_ne_none owner, howner ▸ hne.symm⟩
  have htouches := (touchesOneLine_iff s call).mpr hfits
  cases call with
  | registerFor callback port pin triggerLevel info =>
    obtain ⟨u, hu, hkeeps⟩ := htouches
    obtain rfl := Option.some.inj (hu.symm.trans hstep)
    exact hkeeps.other_callback j (hother hspares)
  | unregisterFor callback port pin =>
    obtain ⟨u, hu, hkeeps⟩ := htouches
    obtain rfl := Option.some.inj (hu.symm.trans hstep)
    exact hkeeps.other_callback j (hother hspares)
  | enable port pin =>
    have hbit : pin.getLsbD j = false := hspares
    obtain rfl := Option.some.inj hstep
    simp [GpioState.line, gpioEnableInterrupt, hbit]
  | disable port pin =>
    have hbit : pin.getLsbD j = false := hspares
    obtain rfl := Option.some.inj hstep
    simp only [GpioState.line, gpioDisableInterrupt, getLsbD_clear, hbit, Bool.not_false,
      Bool.and_true]

/-- As long as the masks fit, all calls are made, and the line of a callback stays as it is through
the calls of others. -/
theorem line_kept_by_others {owner : InterruptCallback} {cs : List GpioCall}
    (hline : ∃ handle, (s.line j).handle = some handle ∧ handle.callback = some owner)
    (hfits : StepsMeet gpioStep MaskFits s cs) (hspares : ∀ call ∈ cs, call.Spares owner j) :
    (∃ t, exec gpioStep s cs = some t) ∧
      StatesMeet gpioStep (fun t => t.line j = s.line j) s cs := by
  constructor
  · exact exec_eq_some_of_steps gpioStep (fun _ _ hcall => hcall.enabled) hfits
  · refine exec_induction_of_steps gpioStep (C := fun u call => MaskFits u call ∧ call.Spares owner j)
      ?_ rfl ?_
    · rintro u call t hu ⟨hcall, hcallSpares⟩ hstep
      rw [← hu]
      exact line_eq_of_spares (hu ▸ hline) hcall hcallSpares hstep
    · intro pre call post u heq hu
      exact ⟨hfits pre call post u heq hu, hspares call (heq ▸ by simp)⟩

end Powerboard.GpioInterrupts
