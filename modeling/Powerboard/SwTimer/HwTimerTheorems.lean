import Powerboard.SwTimer.HwTimer
import Powerboard.SwTimer.OneTimerTheorems

/-!
# The precision of the hardware timer

The prescaler is the number of ticks divided by `2 ^ 16`, so that the counter value fits 16 bits, and
the interrupt comes less than a prescaler period early. What is left is less than `2 ^ 16` ticks, for
which no prescaler is needed, so that the second interrupt is not early. The bound that `timerStep` puts
on the elapsed ticks is the one that the registers have.
-/

namespace Powerboard.SwTimer

open Machine

/-! ## The registers -/

lemma toNat_psc (n : UInt32) : (hwTimerSetupTimer n).psc.toNat = n.toNat / 2 ^ 16 := by
  have hlt := n.toNat_lt
  have hmask : (0xffff0000 : UInt32).toNat >>> 16 = 2 ^ 16 - 1 := by decide
  have hshift : (16 : UInt32).toNat % 32 = 16 := rfl
  show ((n &&& 0xffff0000) >>> 16).toNat = _
  rw [UInt32.toNat_shiftRight, hshift, UInt32.toNat_and, Nat.shiftRight_and_distrib, hmask,
    Nat.and_two_pow_sub_one_eq_mod, Nat.shiftRight_eq_div_pow]
  omega

/-- The division of the ticks by the prescaler period fits 16 bits, so that `MIN` leaves it. -/
lemma div_period_lt (n : ℕ) : n / (n / 2 ^ 16 + 1) < 2 ^ 16 := by
  rw [Nat.div_lt_iff_lt_mul (by omega)]
  omega

lemma toNat_ccr1 (n : UInt32) :
    (hwTimerSetupTimer n).ccr1.toNat = n.toNat / (n.toNat / 2 ^ 16 + 1) := by
  have hlt := n.toNat_lt
  have hpsc : (hwTimerSetupTimer n).psc.toNat = n.toNat / 2 ^ 16 := toNat_psc n
  have hperiod : ((hwTimerSetupTimer n).psc + 1).toNat = n.toNat / 2 ^ 16 + 1 := by
    rw [UInt32.toNat_add, hpsc]
    have hone : (1 : UInt32).toNat = 1 := rfl
    omega
  have hdiv : (n / ((hwTimerSetupTimer n).psc + 1)).toNat = n.toNat / (n.toNat / 2 ^ 16 + 1) := by
    rw [UInt32.toNat_div, hperiod]
  have hmax : (0xffff : UInt32).toNat = 2 ^ 16 - 1 := rfl
  have hbound := div_period_lt n.toNat
  show (if n / ((hwTimerSetupTimer n).psc + 1) > 0xffff
    then 0xffff else n / ((hwTimerSetupTimer n).psc + 1)).toNat = _
  split
  · rename_i hgt
    rw [gt_iff_lt, UInt32.lt_iff_toNat_lt, hdiv, hmax] at hgt
    omega
  · exact hdiv

/-- The ticks to the interrupt are those given, rounded down to a multiple of the prescaler
period. -/
lemma ticksToInterrupt_eq (n : UInt32) :
    (hwTimerSetupTimer n).ticksToInterrupt =
      (n.toNat / 2 ^ 16 + 1) * (n.toNat / (n.toNat / 2 ^ 16 + 1)) := by
  rw [HwTimer.ticksToInterrupt, toNat_psc, toNat_ccr1]

lemma ticksToInterrupt_le (n : UInt32) : (hwTimerSetupTimer n).ticksToInterrupt ≤ n.toNat := by
  rw [ticksToInterrupt_eq]
  exact Nat.mul_div_le _ _

lemma lt_ticksToInterrupt_add (n : UInt32) :
    n.toNat < (hwTimerSetupTimer n).ticksToInterrupt + (n.toNat / 2 ^ 16 + 1) := by
  rw [ticksToInterrupt_eq]
  exact Nat.lt_mul_div_succ _ (by omega)

/-- The counter can be read back as ticks. -/
lemma toNat_getTicksElapsed {hw : HwTimer} (hpsc : hw.psc.toNat < 2 ^ 16)
    (hcnt : hw.cnt.toNat < 2 ^ 16) :
    hw.getTicksElapsed.toNat = (hw.psc.toNat + 1) * hw.cnt.toNat := by
  have hone : (1 : UInt32).toNat = 1 := rfl
  have hperiod : (hw.psc + 1).toNat = hw.psc.toNat + 1 := by
    rw [UInt32.toNat_add, hone]
    omega
  rw [HwTimer.getTicksElapsed, UInt32.toNat_mul, hperiod]
  apply Nat.mod_eq_of_lt
  calc (hw.psc.toNat + 1) * hw.cnt.toNat ≤ 2 ^ 16 * hw.cnt.toNat :=
        Nat.mul_le_mul_right _ (by omega)
    _ < 2 ^ 16 * 2 ^ 16 := by omega

/-- After a set-up in a run, `hw_timerGetTicksElapsed` returns at most what `timerStep` lets go by. -/
theorem getTicksElapsed_le {actions : List TimerAction} {s : Globals}
    (hrun : exec timerStep timerStart actions = some s) {caller : Caller} {ticks : ℕ}
    (hpc : s.pc = .returned caller (some ticks)) {cnt : UInt32} (hcnt : cnt.toNat ≤ 0xffff) :
    ({ hwTimerSetupTimer (UInt32.ofNat ticks) with cnt := cnt } : HwTimer).getTicksElapsed.toNat ≤
      maxTicksElapsed := by
  have hstep : ∀ s a t, WellFormed s ∧ InRange s → timerStep s a = some t →
      WellFormed t ∧ InRange t := fun s a t h ht => ⟨h.1.step ht, h.2.step h.1 ht⟩
  obtain ⟨_, hrange⟩ := exec_induction timerStep hstep ⟨.start, .start⟩ hrun
  have hprogrammed := hrange.programmed caller ticks hpc
  have hnoInterval : noInterval = 2 ^ 31 - 1 := by decide
  have hticks : (UInt32.ofNat ticks).toNat = ticks :=
    UInt32.toNat_ofNat_of_lt' (show ticks < 2 ^ 32 by omega)
  have hpsc : (hwTimerSetupTimer (UInt32.ofNat ticks)).psc.toNat = ticks / 2 ^ 16 := by
    rw [toNat_psc, hticks]
  rw [toNat_getTicksElapsed (by rw [hpsc]; omega) (by simp only; omega)]
  simp only [hpsc]
  exact Nat.mul_le_mul (by omega) hcnt

/-! ## What is left at an interrupt -/

/-- What `swTimer_trigger` sets the hardware timer up for, when so much is left. -/
def hwFor (count : ℤ) : HwTimer :=
  hwTimerSetupTimer (UInt32.ofNat (max count Caller.trigger.minimalTime).toNat)

/-- The count that can be left after so many interrupts, if the timer did not run out. -/
def Left : ℕ → ℤ → Prop
  | 0, count => 1 ≤ count ∧ count < noInterval
  | 1, count => 1 ≤ count ∧ count < 2 ^ 16
  | _, _ => False

lemma Left.bounds {interrupts : ℕ} {count : ℤ} (h : Left interrupts count) :
    1 ≤ count ∧ count < noInterval := by
  match interrupts, h with
  | 0, h => exact h
  | 1, ⟨hpos, hlt⟩ => exact ⟨hpos, hlt.trans (by decide)⟩

/-- An interrupt leaves a timer of which it takes less than a prescaler period too little, or none
when there is no prescaler. -/
lemma Left.next {interrupts : ℕ} {count : ℤ} (h : Left interrupts count) {ticksElapsed : ℕ}
    (helapsed : (hwFor count).ticksToInterrupt ≤ ticksElapsed) (hout : 0 < count - ticksElapsed) :
    Left (interrupts + 1) (count - ticksElapsed) := by
  obtain ⟨hpos, hlt⟩ := h.bounds
  have hnoInterval : noInterval = 2 ^ 31 - 1 := by decide
  have hmin : (Caller.trigger.minimalTime : ℤ) = 40 := rfl
  have hn : (UInt32.ofNat (max count Caller.trigger.minimalTime).toNat).toNat =
      (max count Caller.trigger.minimalTime).toNat := by
    apply UInt32.toNat_ofNat_of_lt'
    show _ < 2 ^ 32
    omega
  have hnear := lt_ticksToInterrupt_add (UInt32.ofNat (max count Caller.trigger.minimalTime).toNat)
  rw [hn] at hnear
  unfold hwFor at helapsed
  match interrupts, h with
  | 0, _ =>
    refine ⟨by omega, ?_⟩
    omega
  | 1, ⟨_, hsmall⟩ =>
    -- without a prescaler no tick is lost
    exfalso
    omega

/-! ## The loop -/

/-- Where the loop is, with this count in the handle. Up to the handle, a pass has the count that
was left before the interrupt, and enough ticks to take from it. -/
def LoopAt (j : ℕ) (count : ℤ) (s : TimerLoop) : Prop :=
  match s.timers.pc with
  | .idle => Left s.interrupts count ∧ s.hw = hwFor count
  | .updating caller => caller = .trigger ∧ s.steps = 0 ∧
    ∃ k, s.interrupts = k + 1 ∧ Left k count ∧
      (hwFor count).ticksToInterrupt ≤ s.timers.elapsed
  | .handling pass => pass.caller = .trigger ∧
    if pass.i ≤ j then pass.nextInterval = noInterval ∧ s.steps = pass.i + 1 ∧
      ∃ k, s.interrupts = k + 1 ∧ Left k count ∧
        (hwFor count).ticksToInterrupt ≤ pass.ticksElapsed
    else pass.nextInterval = count ∧ Left s.interrupts count
  | .calling _ => False
  | .rescheduling pass => pass.caller = .trigger ∧ pass.i = j ∧ pass.nextInterval = noInterval ∧
    Left s.interrupts count
  | .returned _ _ => Left s.interrupts count ∧ s.hw = hwFor count

/-- What the loop keeps until the timer expires. -/
structure LoopInv (j : ℕ) (callback : TimerCallback) (s : TimerLoop) : Prop where
  only : OnlyTimer j callback s.timers
  handling : s.timers.isHandlingClients = s.timers.pc.inPass
  elapsed : s.timers.elapsed ≤ maxTicksElapsed
  loopAt : ∀ hj : j < swTimerMaxHandles, LoopAt j s.timers.handles[j].tickCounter s

lemma OnlyTimer.active {j : ℕ} {callback : TimerCallback} {s : Globals}
    (honly : OnlyTimer j callback s) (hj : j < swTimerMaxHandles) : s.handles[j].Active := by
  rw [CallbackHandle.Active, honly.callback]
  exact Option.some_ne_none _

/-- A write to the handle that leaves the callback. -/
lemma OnlyTimer.write {j : ℕ} {callback : TimerCallback} {s t : Globals}
    (honly : OnlyTimer j callback s) {h : CallbackHandle}
    (ht : t.handles = s.handles.setIfInBounds j h) (hh : h.callback = some callback) :
    OnlyTimer j callback t where
  lt := honly.lt
  callback := by
    have hj := honly.lt
    simp only [ht, Vector.getElem_setIfInBounds_self hj, hh]
  others i hi hne := by
    have hother := honly.others i hi hne
    simpa only [ht, Vector.getElem_setIfInBounds_ne hi (Ne.symm hne)] using hother

lemma OnlyTimer.of_handles_eq {j : ℕ} {callback : TimerCallback} {s t : Globals}
    (honly : OnlyTimer j callback s) (ht : t.handles = s.handles) : OnlyTimer j callback t where
  lt := honly.lt
  callback := by
    have hj := honly.lt
    simpa only [ht] using honly.callback
  others i hi hne := by simpa only [ht] using honly.others i hi hne

lemma LoopInv.start {j : ℕ} {callback : TimerCallback} {s : TimerLoop}
    (hsetUp : SetUp j callback s) : LoopInv j callback s where
  only := hsetUp.only
  handling := by rw [hsetUp.notHandling, hsetUp.idle]; rfl
  elapsed := by rw [hsetUp.elapsed]; exact Nat.zero_le _
  loopAt hj := by
    have hactive := hsetUp.only.active hj
    have hmem : s.timers.handles[j] ∈ s.timers.handles := Vector.getElem_mem hj
    simp only [LoopAt, hsetUp.idle, hsetUp.interrupts]
    exact ⟨hsetUp.left _ hmem hactive, hsetUp.hw _ hmem hactive⟩

/-! ## The steps of the loop -/

/-- The state after a step of `swTimer_trigger`. -/
def TimerLoop.proceedTo (s : TimerLoop) (timers : Globals) : TimerLoop :=
  { s with
    timers := timers
    hw := programHw s.hw s.timers.pc timers.pc
    steps := s.steps + 1 }

/-- A step that writes no handle. -/
lemma LoopInv.of_handles_eq {j : ℕ} {callback : TimerCallback} {s : TimerLoop}
    (hinv : LoopInv j callback s) {timers : Globals} (hhandles : timers.handles = s.timers.handles)
    (hhandling : timers.isHandlingClients = s.timers.isHandlingClients)
    (hpass : timers.pc.inPass = s.timers.pc.inPass) (helapsed : timers.elapsed = s.timers.elapsed)
    (hat : ∀ hj : j < swTimerMaxHandles,
      LoopAt j s.timers.handles[j].tickCounter (s.proceedTo timers)) :
    LoopInv j callback (s.proceedTo timers) where
  only := hinv.only.of_handles_eq hhandles
  handling := hhandling.trans (hinv.handling.trans hpass.symm)
  elapsed := helapsed.trans_le hinv.elapsed
  loopAt hj := by
    have hticks : (s.proceedTo timers).timers.handles[j] = s.timers.handles[j] :=
      congrArg (fun handles : Vector CallbackHandle swTimerMaxHandles => handles[j]) hhandles
    rw [hticks]
    exact hat hj

lemma LoopInv.startPass {j : ℕ} {callback : TimerCallback} {s : TimerLoop}
    (hinv : LoopInv j callback s) {caller : Caller} (hpc : s.timers.pc = .updating caller) :
    LoopInv j callback (s.proceedTo (s.timers.startPass caller)) := by
  refine hinv.of_handles_eq rfl rfl (by rw [hpc]; rfl) rfl fun hj => ?_
  have hat := hinv.loopAt hj
  simp only [LoopAt, hpc] at hat
  obtain ⟨rfl, hsteps, k, hk, hleft, helapsed⟩ := hat
  refine ⟨rfl, ?_⟩
  rw [if_pos (Nat.zero_le j)]
  exact ⟨rfl, by rw [TimerLoop.proceedTo, hsteps], k, hk, hleft, helapsed⟩

/-- The pass goes over a handle that is not the timer's. -/
lemma LoopInv.skip {j : ℕ} {callback : TimerCallback} {s : TimerLoop}
    (hinv : LoopInv j callback s) {pass : Pass} (hpc : s.timers.pc = .handling pass)
    (hi : pass.i ≠ j) :
    LoopInv j callback
      (s.proceedTo { s.timers with pc := .handling { pass with i := pass.i + 1 } }) := by
  refine hinv.of_handles_eq rfl rfl (by rw [hpc]; rfl) rfl fun hj => ?_
  have hat := hinv.loopAt hj
  simp only [LoopAt, hpc] at hat
  obtain ⟨hcaller, hat⟩ := hat
  refine ⟨hcaller, ?_⟩
  by_cases hle : pass.i ≤ j
  · rw [if_pos hle] at hat
    obtain ⟨hnext, hsteps, hback⟩ := hat
    rw [if_pos (show pass.i + 1 ≤ j by omega)]
    exact ⟨hnext, by rw [TimerLoop.proceedTo, hsteps], hback⟩
  · rw [if_neg hle] at hat
    rw [if_neg (show ¬ pass.i + 1 ≤ j by omega)]
    exact hat

/-- The pass takes the elapsed ticks from the timer, which either runs out or has a count left that
is possible after this interrupt. -/
lemma LoopInv.visit {j : ℕ} {callback : TimerCallback} {s : TimerLoop}
    (hinv : LoopInv j callback s) {pass : Pass} (hpc : s.timers.pc = .handling pass)
    (hi : pass.i < swTimerMaxHandles) (hij : pass.i = j) :
    Expired callback (s.timers.handleClient pass s.timers.handles[pass.i]) ∨
      LoopInv j callback
        (s.proceedTo (s.timers.handleClient pass s.timers.handles[pass.i])) := by
  subst hij
  have hcallback := hinv.only.callback
  have hat := hinv.loopAt hi
  simp only [LoopAt, hpc, if_pos (le_refl pass.i)] at hat
  obtain ⟨hcaller, hnext, hsteps, k, hk, hleft, helapsed⟩ := hat
  unfold Globals.handleClient
  simp only [hcallback]
  split
  · next hout =>
    left
    exact ⟨_, List.mem_append_right _ (List.mem_singleton.mpr rfl), rfl⟩
  · next hcount =>
    right
    exact {
      only := hinv.only.write rfl hcallback
      handling := hinv.handling.trans (by rw [hpc]; rfl)
      elapsed := hinv.elapsed
      loopAt hj := by
        refine ⟨hcaller, rfl, hnext, ?_⟩
        simp only [TimerLoop.proceedTo, Vector.getElem_setIfInBounds_self hj, hk]
        exact hleft.next helapsed (not_le.mp hcount) }

lemma LoopInv.reschedule {j : ℕ} {callback : TimerCallback} {s : TimerLoop}
    (hinv : LoopInv j callback s) {pass : Pass} (hpc : s.timers.pc = .rescheduling pass)
    (hi : pass.i < swTimerMaxHandles) :
    LoopInv j callback (s.proceedTo (s.timers.reschedule pass s.timers.handles[pass.i])) := by
  have hat := hinv.loopAt hinv.only.lt
  simp only [LoopAt, hpc] at hat
  obtain ⟨hcaller, rfl, hnext, hleft⟩ := hat
  obtain ⟨hpos, hlt⟩ := hleft.bounds
  -- the count that is left is the smallest
  have hmin : toInt32 (min pass.nextInterval s.timers.handles[pass.i].tickCounter) =
      s.timers.handles[pass.i].tickCounter := by
    rw [hnext, min_eq_right hlt.le, toInt32_eq (by omega) hlt.le]
  rw [Globals.reschedule, if_pos (hinv.only.active hi), hmin]
  refine hinv.of_handles_eq rfl rfl (by rw [hpc]; rfl) rfl fun hj => ?_
  refine ⟨hcaller, ?_⟩
  rw [if_neg (Nat.not_succ_le_self pass.i)]
  exact ⟨rfl, hleft⟩

lemma LoopInv.finishPass {j : ℕ} {callback : TimerCallback} {s : TimerLoop}
    (hinv : LoopInv j callback s) {pass : Pass} (hpc : s.timers.pc = .handling pass)
    (hi : swTimerMaxHandles ≤ pass.i) :
    LoopInv j callback (s.proceedTo (s.timers.finishPass pass)) := by
  have hj := hinv.only.lt
  have hat := hinv.loopAt hj
  simp only [LoopAt, hpc, if_neg (show ¬ pass.i ≤ j by omega)] at hat
  obtain ⟨hcaller, hnext, hleft⟩ := hat
  obtain ⟨hpos, hlt⟩ := hleft.bounds
  rw [Globals.finishPass, if_pos (by rw [hnext]; exact hlt.ne)]
  exact {
    only := hinv.only.of_handles_eq rfl
    handling := rfl
    elapsed := Nat.zero_le _
    loopAt hj := by
      refine ⟨hleft, ?_⟩
      simp only [TimerLoop.proceedTo, programHw, hpc, hnext, hcaller, hwFor] }

lemma LoopInv.leave {j : ℕ} {callback : TimerCallback} {s : TimerLoop}
    (hinv : LoopInv j callback s) {caller : Caller} {programmed : Option ℕ}
    (hpc : s.timers.pc = .returned caller programmed) :
    LoopInv j callback (s.proceedTo { s.timers with pc := .idle }) := by
  refine hinv.of_handles_eq rfl rfl (by rw [hpc]; rfl) rfl fun hj => ?_
  have hat := hinv.loopAt hj
  simp only [LoopAt, hpc] at hat
  show Left s.interrupts _ ∧ programHw s.hw s.timers.pc .idle = _
  rw [hpc]
  exact hat

lemma LoopInv.interrupt {j : ℕ} {callback : TimerCallback} {s : TimerLoop}
    (hinv : LoopInv j callback s) (hpc : s.timers.pc = .idle)
    (helapsed : s.hw.ticksToInterrupt ≤ s.timers.elapsed) :
    LoopInv j callback
      { timers := trigger s.timers
        hw := s.hw.disable
        interrupts := s.interrupts + 1
        steps := 0 } := by
  rw [trigger, handleClients_idle .trigger hinv.handling hpc]
  exact {
    only := hinv.only.of_handles_eq rfl
    handling := rfl
    elapsed := hinv.elapsed
    loopAt hj := by
      have hat := hinv.loopAt hj
      simp only [LoopAt, hpc] at hat
      obtain ⟨hleft, hhw⟩ := hat
      exact ⟨rfl, rfl, s.interrupts, rfl, hleft, hhw ▸ helapsed⟩ }

/-- Where a call is, it goes on, and where it is at a callback, the timer has expired. -/
lemma LoopInv.proceed {j : ℕ} {callback : TimerCallback} {s : TimerLoop}
    (hinv : LoopInv j callback s) {timers : Globals} (ht : s.timers.proceed = some timers) :
    Expired callback timers ∨ LoopInv j callback (s.proceedTo timers) := by
  unfold Globals.proceed at ht
  split at ht
  · simp at ht
  · next caller hpc =>
    obtain rfl := Option.some.inj ht
    exact .inr (hinv.startPass hpc)
  · next pass hpc =>
    split at ht <;> obtain rfl := Option.some.inj ht
    · next hi =>
      by_cases hij : pass.i = j
      · exact hinv.visit hpc hi hij
      · right
        have hnone : s.timers.handles[pass.i].callback = none := by
          simpa [CallbackHandle.Active] using hinv.only.others pass.i hi hij
        simpa only [Globals.handleClient, hnone] using hinv.skip hpc hij
    · next hi => exact .inr (hinv.finishPass hpc (not_lt.mp hi))
  · simp at ht
  · next pass hpc =>
    split at ht
    · next hi =>
      obtain rfl := Option.some.inj ht
      exact .inr (hinv.reschedule hpc hi)
    · simp at ht
  · next caller programmed hpc =>
    obtain rfl := Option.some.inj ht
    exact .inr (hinv.leave hpc)

lemma LoopInv.elapse {j : ℕ} {callback : TimerCallback} {s : TimerLoop}
    (hinv : LoopInv j callback s) {ticks : ℕ} (hfits : s.timers.elapsed + ticks ≤ maxTicksElapsed) :
    LoopInv j callback
      { s with timers := { s.timers with
          elapsed := s.timers.elapsed + ticks
          now := s.timers.now + ticks } } where
  only := hinv.only.of_handles_eq rfl
  handling := hinv.handling
  elapsed := hfits
  loopAt hj := by
    have hat := hinv.loopAt hj
    cases hpc : s.timers.pc <;> simp only [LoopAt, hpc] at hat ⊢
    case updating caller =>
      obtain ⟨hcaller, hsteps, k, hk, hleft, helapsed⟩ := hat
      exact ⟨hcaller, hsteps, k, hk, hleft, helapsed.trans (Nat.le_add_right _ _)⟩
    all_goals exact hat

/-- Calls are only added. -/
lemma Expired.of_moves {callback : TimerCallback} {s t : Globals} {a : TimerAction}
    (hexpired : Expired callback s) (hmoves : Moves s a t) : Expired callback t := by
  obtain ⟨call, hmem, hcallback⟩ := hexpired
  refine ⟨call, ?_, hcallback⟩
  rcases calls_of_moves hmoves with heq | ⟨added, heq, _⟩
  · rwa [heq]
  · rw [heq]
    exact List.mem_append_left _ hmem

lemma trigger_calls (s : Globals) : (trigger s).calls = s.calls := by
  unfold trigger Globals.handleClients Globals.returnWithoutPass
  split
  · split <;> rfl
  · rfl

lemma loopInv_step {j : ℕ} {callback : TimerCallback} {s t : TimerLoop} {a : LoopAction}
    (hinv : Expired callback s.timers ∨ LoopInv j callback s) (ht : loopStep s a = some t) :
    Expired callback t.timers ∨ LoopInv j callback t := by
  cases a with
  | elapse ticks =>
    simp only [loopStep, timerStep, Option.map_eq_some_iff] at ht
    obtain ⟨timers, htimers, rfl⟩ := ht
    split at htimers
    · next hfits =>
      obtain rfl := Option.some.inj htimers
      exact hinv.imp id fun h => h.elapse hfits
    · simp at htimers
  | interrupt =>
    simp only [loopStep] at ht
    split at ht
    · next hdue =>
      obtain rfl := Option.some.inj ht
      refine hinv.imp (fun hexpired => ?_) fun h => h.interrupt hdue.1 hdue.2.2
      simpa only [Expired, trigger_calls] using hexpired
    · simp at ht
  | proceed =>
    simp only [loopStep, Option.map_eq_some_iff] at ht
    obtain ⟨timers, htimers, rfl⟩ := ht
    rcases hinv with hexpired | h
    · exact .inl (hexpired.of_moves (moves_of_proceed htimers))
    · exact h.proceed htimers

/-- Until the timer has expired, every run keeps the invariant. -/
lemma loopInv_exec {j : ℕ} {callback : TimerCallback} {s t : TimerLoop} {actions : List LoopAction}
    (hinv : LoopInv j callback s) (hrun : exec loopStep s actions = some t) :
    Expired callback t.timers ∨ LoopInv j callback t := by
  let Inv (s : TimerLoop) : Prop := Expired callback s.timers ∨ LoopInv j callback s
  have hstep : ∀ s a t, Inv s → loopStep s a = some t → Inv t := fun _ _ _ => loopInv_step
  exact exec_induction loopStep hstep (.inr hinv) hrun

/-! ## The timer expires -/

/-- After two interrupts no count can be left, so that the pass has not come to the handle yet. -/
lemma LoopInv.steps_le {j : ℕ} {callback : TimerCallback} {s : TimerLoop}
    (hinv : LoopInv j callback s) :
    s.interrupts ≤ 2 ∧ (s.interrupts = 2 → s.timers.pc ≠ .idle ∧ s.steps ≤ swTimerMaxHandles) := by
  have hat := hinv.loopAt hinv.only.lt
  have hlt := hinv.only.lt
  have hleft_le : ∀ {k count}, Left k count → k ≤ 1 := by
    intro k count h
    match k, h with
    | 0, _ => exact Nat.zero_le 1
    | 1, _ => exact le_rfl
  unfold LoopAt at hat
  split at hat
  case h_2 hpc =>
    obtain ⟨-, hsteps, k, hk, hleft, -⟩ := hat
    have hk1 := hleft_le hleft
    exact ⟨by omega, fun _ => ⟨by simp [hpc], by omega⟩⟩
  case h_3 pass hpc =>
    obtain ⟨-, hat⟩ := hat
    split at hat
    · obtain ⟨-, hsteps, k, hk, hleft, -⟩ := hat
      have hk1 := hleft_le hleft
      exact ⟨by omega, fun _ => ⟨by simp [hpc], by omega⟩⟩
    · have hle := hleft_le hat.2
      exact ⟨by omega, by omega⟩
  case h_4 => exact hat.elim
  case h_5 =>
    have hle := hleft_le hat.2.2.2
    exact ⟨by omega, by omega⟩
  all_goals
    have hle := hleft_le hat.1
    exact ⟨by omega, by omega⟩

/-- The counter comes to the compare value. -/
lemma hwFor_ticksToInterrupt_le {count : ℤ} (hlt : count < noInterval) :
    (hwFor count).ticksToInterrupt ≤ maxTicksElapsed := by
  have hnoInterval : noInterval = 2 ^ 31 - 1 := by decide
  have hmin : (Caller.trigger.minimalTime : ℤ) = 40 := rfl
  unfold hwFor
  generalize hn : (max count Caller.trigger.minimalTime).toNat = n
  have hticks : (UInt32.ofNat n).toNat = n :=
    UInt32.toNat_ofNat_of_lt' (show n < 2 ^ 32 by omega)
  have hccr1 := div_period_lt n
  rw [ticksToInterrupt_eq, hticks]
  exact Nat.mul_le_mul (by omega) (by omega)

lemma loopStep_elapse {s : TimerLoop} {ticks : ℕ}
    (hfits : s.timers.elapsed + ticks ≤ maxTicksElapsed) :
    loopStep s (.elapse ticks) = some { s with timers := { s.timers with
      elapsed := s.timers.elapsed + ticks, now := s.timers.now + ticks } } := by
  rw [loopStep, timerStep, if_pos hfits, Option.map_some]

lemma loopStep_interrupt {s : TimerLoop} (hpc : s.timers.pc = .idle) (hcen : s.hw.cen = true)
    (hdue : s.hw.ticksToInterrupt ≤ s.timers.elapsed) :
    loopStep s .interrupt = some
      { timers := trigger s.timers
        hw := s.hw.disable
        interrupts := s.interrupts + 1
        steps := 0 } :=
  if_pos ⟨hpc, hcen, hdue⟩

lemma LoopInv.goesOn {j : ℕ} {callback : TimerCallback} {s : TimerLoop}
    (hinv : LoopInv j callback s) : GoesOn s := by
  have hat := hinv.loopAt hinv.only.lt
  have hlt := hinv.only.lt
  have helapsed := hinv.elapsed
  unfold GoesOn
  split
  · next hpc =>
    simp only [LoopAt, hpc] at hat
    obtain ⟨hleft, hhw⟩ := hat
    have hticks : s.hw.ticksToInterrupt ≤ maxTicksElapsed := by
      rw [hhw]
      exact hwFor_ticksToInterrupt_le hleft.bounds.2
    have hcen : s.hw.cen = true := by rw [hhw]; rfl
    obtain ⟨ticks, hfits, hdue⟩ : ∃ ticks, s.timers.elapsed + ticks ≤ maxTicksElapsed ∧
        s.hw.ticksToInterrupt ≤ s.timers.elapsed + ticks :=
      ⟨s.hw.ticksToInterrupt - s.timers.elapsed, by omega, by omega⟩
    refine ⟨ticks, ?_⟩
    simp only [exec_cons_eq_some, exec_nil]
    exact ⟨_, _, loopStep_elapse hfits, _, loopStep_interrupt hpc hcen hdue, rfl⟩
  · next hpc =>
    suffices h : ∃ timers, s.timers.proceed = some timers by
      obtain ⟨timers, h⟩ := h
      exact ⟨_, by rw [loopStep, h, Option.map_some]⟩
    unfold LoopAt at hat
    unfold Globals.proceed
    cases hstep : s.timers.pc with
    | idle => exact absurd hstep hpc
    | updating caller => exact ⟨_, rfl⟩
    | handling pass =>
      dsimp only
      split
      · exact ⟨_, rfl⟩
      · exact ⟨_, rfl⟩
    | calling pass =>
      simp only [hstep] at hat
    | rescheduling pass =>
      simp only [hstep] at hat
      simp only [hat.2.1, dif_pos hlt]
      exact ⟨_, rfl⟩
    | returned caller programmed => exact ⟨_, rfl⟩

/-- Between two passes the hardware timer is set up for what is left. -/
lemma LoopInv.setUpForRest {j : ℕ} {callback : TimerCallback} {s : TimerLoop}
    (hinv : LoopInv j callback s) (hpc : s.timers.pc = .idle) : SetUpForRest s := by
  have hat := hinv.loopAt hinv.only.lt
  simp only [LoopAt, hpc] at hat
  intro handle hmem hactive
  obtain ⟨i, hi, rfl⟩ := Vector.getElem_of_mem hmem
  obtain rfl : i = j := by
    by_contra hne
    exact hinv.only.others i hi hne hactive
  exact hat.2

/-- The set-up is a prescaler period too early at most, and what is left then does not let the only
timer wait for a third interrupt: until it expires, the loop goes on, between two passes the hardware
timer is set up for the rest, there have been two interrupts at most, and the pass after the second
one has not come to the handle yet. -/
theorem expires_by_second_interrupt :
    (∀ n : UInt32, 1 ≤ n.toNat →
      (hwTimerSetupTimer n).psc.toNat < 2 ^ 16 ∧ (hwTimerSetupTimer n).ccr1.toNat < 2 ^ 16 ∧
      1 ≤ (hwTimerSetupTimer n).ccr1.toNat ∧
      (hwTimerSetupTimer n).ticksToInterrupt ≤ n.toNat ∧
      n.toNat <
        (hwTimerSetupTimer n).ticksToInterrupt + ((hwTimerSetupTimer n).psc.toNat + 1)) ∧
    (∀ hw : HwTimer, hw.psc.toNat < 2 ^ 16 → hw.cnt.toNat ≤ 0xffff →
      hw.getTicksElapsed.toNat = (hw.psc.toNat + 1) * hw.cnt.toNat) ∧
    ∀ (j : ℕ) (callback : TimerCallback) (s : TimerLoop), SetUp j callback s →
      ∀ (actions : List LoopAction) (t : TimerLoop), exec loopStep s actions = some t →
        ¬ Expired callback t.timers →
        GoesOn t ∧ (t.timers.pc = .idle → SetUpForRest t) ∧ t.interrupts ≤ 2 ∧
          (t.interrupts = 2 → t.timers.pc ≠ .idle ∧ t.steps ≤ swTimerMaxHandles) := by
  refine ⟨fun n hn => ?_, fun hw hpsc hcnt => ?_, fun j callback s hsetUp actions t hrun hnot => ?_⟩
  · have hlt := n.toNat_lt
    have hccr1 := div_period_lt n.toNat
    have hnear := lt_ticksToInterrupt_add n
    refine ⟨?_, ?_, ?_, ticksToInterrupt_le n, ?_⟩
    · rw [toNat_psc]
      omega
    · rwa [toNat_ccr1]
    · rw [toNat_ccr1, Nat.le_div_iff_mul_le (by omega)]
      omega
    · rwa [toNat_psc]
  · exact toNat_getTicksElapsed hpsc (by omega)
  · have hinv := (loopInv_exec (.start hsetUp) hrun).resolve_left hnot
    exact ⟨hinv.goesOn, hinv.setUpForRest, hinv.steps_le⟩

/-- A timer with so many ticks left. -/
def oneTimer (count : ℤ) : TimerLoop :=
  { timers :=
      { timerStart with
        handles := timerStart.handles.setIfInBounds 0 ⟨some 0, count.toNat, count, true, 0, 0⟩ }
    hw := hwFor count
    interrupts := 0
    steps := 0 }

lemma oneTimer_others {count : ℤ} {i : ℕ} (hi : i < swTimerMaxHandles) (hne : i ≠ 0) :
    ¬ (oneTimer count).timers.handles[i].Active := by
  simp only [oneTimer, timerStart, Vector.getElem_setIfInBounds_ne hi (Ne.symm hne),
    Vector.getElem_replicate]
  decide

lemma setUp_oneTimer {count : ℤ} (hpos : 1 ≤ count) (hlt : count < noInterval) :
    SetUp 0 0 (oneTimer count) := by
  have hhandle : ∀ handle ∈ (oneTimer count).timers.handles, handle.Active →
      handle = ⟨some 0, count.toNat, count, true, 0, 0⟩ := by
    intro handle hmem hactive
    obtain ⟨i, hi, rfl⟩ := Vector.getElem_of_mem hmem
    have h0 : i = 0 := by
      by_contra hne
      exact oneTimer_others hi hne hactive
    subst h0
    exact Vector.getElem_setIfInBounds_self hi
  exact {
    only := ⟨by decide, rfl, fun i hi => oneTimer_others hi⟩
    idle := rfl
    notHandling := rfl
    elapsed := rfl
    interrupts := rfl
    calls := rfl
    left handle hmem hactive := by
      rw [hhandle handle hmem hactive]
      exact ⟨hpos, hlt⟩
    hw handle hmem hactive := by
      rw [hhandle handle hmem hactive]
      rfl }

/-- The interrupt for 100001 ticks comes after 100000 of them, and `swTimer_trigger` returns. -/
def earlyInterrupt : List LoopAction :=
  [.elapse 100000, .interrupt] ++ List.replicate 36 .proceed

theorem expires_by_second_interrupt_early :
    ∃ t, exec loopStep (oneTimer 100001) earlyInterrupt = some t ∧
      t.timers.handles[0].tickCounter = 1 ∧ t.interrupts = 1 ∧ GoesOn t ∧ SetUpForRest t := by
  have hrun : (exec loopStep (oneTimer 100001) earlyInterrupt).map (fun t =>
      (t.timers.handles[0].tickCounter, t.interrupts, t.timers.calls, t.timers.pc)) =
      some (1, 1, [], .idle) := by decide +kernel
  obtain ⟨t, ht, hview⟩ := Option.map_eq_some_iff.mp hrun
  simp only [Prod.mk.injEq] at hview
  obtain ⟨hcount, hinterrupts, hcalls, hpc⟩ := hview
  have hnot : ¬ Expired 0 t.timers := by simp [Expired, hcalls]
  obtain ⟨-, -, hexpires⟩ := expires_by_second_interrupt
  have hsetUp : SetUp 0 0 (oneTimer 100001) := setUp_oneTimer (by decide) (by decide)
  obtain ⟨hgoesOn, hrest, -⟩ := hexpires 0 0 _ hsetUp _ t ht hnot
  exact ⟨t, ht, hcount, hinterrupts, hgoesOn, hrest hpc⟩

end Powerboard.SwTimer
