import Powerboard.Application.RegistrationTheorems
import Powerboard.MsgPump.MemoryTheorems

/-!
# Runs of the application

The invariant of the callbacks over every run from the start: what is sent, what is let pass, and when
the converter starts.
-/

namespace Powerboard.Application

open Machine MsgPump PowerCheck SystemInitializer

section Runs
variable {v : MsgId → ℕ → Option Callback} {lateInitTimer : Bool} {data : Elem → List UInt8}
  {thresholds : Globals} {layout : Layout firmware} {levelOffset : ℤ} {s s' t : App}
  {a : AppAction} {as : List AppAction}

/-- Some history goes beside the run. -/
def Shadowed (s : App) : Prop :=
  ∃ v calls, FirmwareCallbacks v s.lateInitTimer ∧ Shadow v s calls

lemma Shadowed.step (h : Shadowed s) (hlevel : LevelOutside levelOffset)
    (hstep : appStep layout levelOffset s a = some s') : Shadowed s' := by
  obtain ⟨v, calls, hv, hshadow⟩ := h
  by_cases ha : a = .onLateInitTimer
  · subst ha
    simp only [appStep] at hstep
    split_ifs at hstep with hlate
    rw [hlate] at hv
    obtain ⟨v', calls', hv', hshadow', hlate'⟩ := hshadow.register hv hstep
    exact ⟨v', calls', hlate' ▸ hv', hshadow'⟩
  · obtain ⟨new, hadds⟩ := exists_adds hstep ha
    exact ⟨v, _, hadds.lateInitTimer ▸ hv, hshadow.step hv hlevel ha hadds⟩

lemma shadowed_start (hv : FirmwareCallbacks v lateInitTimer) :
    Shadowed (appStart v lateInitTimer data thresholds) := by
  refine ⟨v, [], hv, appInv_start v lateInitTimer data thresholds, ?_, rfl, fun _ => rfl,
    ⟨[], rfl, rfl⟩, ?_⟩
  · intro hoff
    cases hoff
  · simp [appStart, App.given, givenTo, Clients.initial]

lemma shadowed_of_run (hv : FirmwareCallbacks v lateInitTimer) (hlevel : LevelOutside levelOffset)
    (h : exec (appStep layout levelOffset) (appStart v lateInitTimer data thresholds) as = some s) :
    Shadowed s :=
  exec_induction (appStep layout levelOffset) (fun _ _ _ hinv hstep => hinv.step hlevel hstep)
    (shadowed_start hv) h

lemma onLateInitTimer_eq (h : onLateInitTimer s = some s') : ∃ pump missed, s' =
    { s with clients := s.clients.setPump pump, lateInitTimer := false, missed := missed } := by
  unfold onLateInitTimer at h
  split at h
  · exact ⟨_, _, (Option.some.inj h).symm⟩
  · cases h

/-- As long as no other client posts levels, they are those of the power check. -/
lemma Shadowed.levelsPosted (h : Shadowed s) (hlevel : LevelOutside levelOffset)
    (hothers : OthersKeepOff msgIdRelativeBatteryVoltage s a)
    (hstep : appStep layout levelOffset s a = some s') (hlevels : LevelsPosted s) :
    LevelsPosted s' := by
  by_cases ha : a = .onLateInitTimer
  · subst ha
    simp only [appStep] at hstep
    split_ifs at hstep
    obtain ⟨pump, missed, rfl⟩ := onLateInitTimer_eq hstep
    exact hlevels
  · obtain ⟨v, calls, hv, hshadow⟩ := h
    obtain ⟨new, hadds⟩ := exists_adds hstep ha
    have hposted : LevelsPosted (s'.withCalls (calls ++ new.toList)) :=
      hshadow.inv.levelsPosted hv hlevel ha hothers (hadds.step calls) hlevels
    exact hposted

lemma levelsPosted_of_run (hv : FirmwareCallbacks v lateInitTimer)
    (hlevel : LevelOutside levelOffset)
    (hothers : StepsMeet (appStep layout levelOffset) (OthersKeepOff msgIdRelativeBatteryVoltage)
      (appStart v lateInitTimer data thresholds) as)
    (h : exec (appStep layout levelOffset) (appStart v lateInitTimer data thresholds) as = some s) :
    LevelsPosted s := by
  have hstep (u : App) (a : AppAction) (t : App) (hu : Shadowed u ∧ LevelsPosted u)
      (hC : OthersKeepOff msgIdRelativeBatteryVoltage u a)
      (hstep : appStep layout levelOffset u a = some t) : Shadowed t ∧ LevelsPosted t :=
    ⟨hu.1.step hlevel hstep, hu.1.levelsPosted hlevel hC hstep hu.2⟩
  have hstart : Shadowed (appStart v lateInitTimer data thresholds) ∧
      LevelsPosted (appStart v lateInitTimer data thresholds) := ⟨shadowed_start hv, rfl⟩
  exact (exec_induction_of_steps _ hstep hstart hothers as [] s (List.append_nil as).symm h).2

/-- In the endless loop only interrupts go on. -/
lemma StaysOff.step (hoff : StaysOff s t) {t' : App}
    (hstep : appStep layout levelOffset t a = some t') :
    StaysOff s t' := by
  cases appMoves_of_step hstep with
  | run memory pc _ hrunning hrun =>
    obtain rfl := Option.some.inj (hoff.running.symm.trans hrunning)
    cases hrun
  | client b clients hb hclients =>
    have hadds : Adds layout levelOffset t (.client b) { t with clients := clients } none :=
      adds_client hb hclients
    have hcalls := hadds.calls
    rw [Option.toList_none, List.append_nil] at hcalls
    exact ⟨hoff.running, hcalls.trans hoff.calls, hoff.thresholds, hoff.passed, hoff.offers,
      hoff.frames, hoff.replies, hoff.buck⟩
  | dispatch _ hidle => cases hidle.symm.trans hoff.running
  | onLateInitTimer _ _ hregister =>
    obtain ⟨pump, missed, rfl⟩ := onLateInitTimer_eq hregister
    exact ⟨hoff.running, hoff.calls, hoff.thresholds, hoff.passed, hoff.offers, hoff.frames,
      hoff.replies, hoff.buck⟩

/-- Of the power states and the levels, every 50th is sent, in order: from the first post to the frames
nothing is lost but what a full queue refuses, and what is on its way is in the queue. -/
theorem every_fiftieth_is_sent (hv : FirmwareCallbacks v lateInitTimer)
    (hlevel : LevelOutside levelOffset)
    (h : exec (appStep layout levelOffset) (appStart v lateInitTimer data thresholds) as = some s) :
    Distributed s := by
  obtain ⟨v', calls, hv', hshadow⟩ := shadowed_of_run hv hlevel h
  exact hshadow.distributed hv'

/-- A power state is distributed only if it was above the low threshold. After one that was not, or a
packet for `masterOff`, the board stays off. Nothing else stops a callback. -/
theorem undervoltage_is_not_distributed (hv : FirmwareCallbacks v lateInitTimer)
    (hlevel : LevelOutside levelOffset)
    (h : exec (appStep layout levelOffset) (appStart v lateInitTimer data thresholds) as = some s) :
    Checked s ∧ OffForReason s ∧
      (s.running = some .switchedOff → ∀ bs t,
        exec (appStep layout levelOffset) s bs = some t → StaysOff s t) ∧
      ∀ pc memory, s.running = some pc → pc ≠ .switchedOff →
        (appStep layout levelOffset s (.run memory)).isSome := by
  obtain ⟨v', calls, hv', hshadow⟩ := shadowed_of_run hv hlevel h
  refine ⟨hshadow.checked hv', hshadow.offForReason, fun hoff bs t ht => ?_, ?_⟩
  · have hstart : StaysOff s s := ⟨hoff, rfl, rfl, rfl, rfl, rfl, rfl, rfl⟩
    exact exec_induction _ (fun _ _ _ hu hstep => StaysOff.step hu hstep) hstart ht
  · intro pc memory hrunning hpc
    exact hshadow.goesOn hv' hlevel hrunning hpc memory

/-- As long as no one else posts levels, the converter is started only by a power state above the low
threshold, with a level that is not 0 and that came after the registration of `buck.c`; and by such a
one it is started as soon as the queue is empty. -/
theorem converter_started_by_check (hv : FirmwareCallbacks v lateInitTimer)
    (hlevel : LevelOutside levelOffset)
    (hothers : StepsMeet (appStep layout levelOffset) (OthersKeepOff msgIdRelativeBatteryVoltage)
      (appStart v lateInitTimer data thresholds) as)
    (h : exec (appStep layout levelOffset) (appStart v lateInitTimer data thresholds) as = some s) :
    (s.buck.enableSwitcher = true → s.lateInitTimer = false ∧
        ∃ p ∈ (s.passed.filter (·.accepted)).drop s.missed,
          p.thresholds.lowThresh < p.batteryVoltcV ∧ 0 < p.level) ∧
      (s.lateInitTimer = false → s.clients.state.pump.msgQueueSize = 0 →
        (s.buck.enableSwitcher = true ↔
          ∃ p ∈ (s.passed.filter (·.accepted)).drop s.missed, 0 < p.level)) := by
  obtain ⟨v', calls, hv', hshadow⟩ := shadowed_of_run hv hlevel h
  have hlevels := levelsPosted_of_run hv hlevel hothers h
  unfold LevelsPosted at hlevels
  -- the levels posted are those let pass
  have hposted : (∃ content ∈ (s.posted msgIdRelativeBatteryVoltage).drop s.missed,
      0 < content.getD 0 0) ↔
      ∃ p ∈ (s.passed.filter (·.accepted)).drop s.missed, 0 < p.level := by
    have hmem {α : Type} (l : List α) (f : α → UInt8) :
        (∃ level ∈ l.map f, 0 < level) ↔ ∃ a ∈ l, 0 < f a := by simp
    have hboth := hmem ((s.posted msgIdRelativeBatteryVoltage).drop s.missed) fun content =>
      content.getD 0 0
    rw [List.map_drop, hlevels, ← List.map_drop, hmem] at hboth
    exact hboth.symm
  refine ⟨fun henable => ?_, fun hlate hsize => ?_⟩
  · obtain ⟨content, hcontent, hpos⟩ := hshadow.buck.mp henable
    cases hlate : s.lateInitTimer with
    | true =>
      rw [hshadow.given_of_late (hlate ▸ hv')] at hcontent
      cases hcontent
    | false =>
      have hbegins := (hshadow.given_prefix (hlate ▸ hv')).1
      obtain ⟨p, hp, hlevel⟩ := hposted.mp ⟨content, hbegins.subset hcontent, hpos⟩
      have hpassed := List.mem_of_mem_filter (List.mem_of_mem_drop hp)
      exact ⟨rfl, p, hp, hshadow.inv.history.above p hpassed, hlevel⟩
  · have hgiven := (hshadow.given_prefix (hlate ▸ hv')).2 hsize
    rw [hshadow.buck, hgiven]
    exact hposted

end Runs

/-! ## The board -/

/-- The callbacks of the firmware, in the order in which the modules may register them. -/
def startCallbacks (id : MsgId) (i : ℕ) : Option Callback :=
  ((registrations.filter fun r => r.1 = id).map (·.2))[i]?

lemma startCallbacks_firmware : FirmwareCallbacks startCallbacks true := by
  have hmem {id : MsgId} {i : ℕ} {callback : Callback}
      (hcallback : startCallbacks id i = some callback) : (id, callback) ∈ registrations := by
    obtain ⟨r, hr, rfl⟩ := List.mem_map.mp (List.mem_of_getElem? hcallback)
    obtain ⟨hmem, hid⟩ := List.mem_filter.mp hr
    rw [← of_decide_eq_true hid]
    exact hmem
  refine ⟨by decide, fun id i callback _ hcallback => List.mem_cons_of_mem _ (hmem hcallback), ?_,
    by decide, ?_⟩
  · intro id i j callback _ _ hi hj
    have hnodup : ((registrations.filter fun r => r.1 = id).map (·.2)).Nodup := by
      refine List.Nodup.map_on ?_ (List.Nodup.filter _ (by decide))
      intro r hr r' hr' heq
      exact Prod.ext ((of_decide_eq_true (List.mem_filter.mp hr).2).trans
        (of_decide_eq_true (List.mem_filter.mp hr').2).symm) heq
    obtain ⟨hlt, hget⟩ := List.getElem?_eq_some_iff.mp hi
    exact (List.getElem?_inj hlt hnodup).mp (hi.trans hj.symm)
  · refine iff_of_false ?_ (by decide)
    rintro ⟨i, -, hcallback⟩
    exact absurd (hmem hcallback) (by decide)

/-- A run on the board with its pools on pages and the stack behind them. -/
abbrev board (as : List AppAction) : Option App :=
  exec (appStep pagedLayout 8192) (appStart startCallbacks true (fun _ => []) defaultThresholds) as

lemma stackOutside : LevelOutside 8192 := by
  unfold LevelOutside
  decide

/-- A power state of this voltage is posted. -/
def measures (batteryVoltcV : UInt32) : AppAction :=
  .client (.postOwn msgIdSystemPowerState
    { ptrOffset := 4096, bytes := fun k => (batteryOnly batteryVoltcV).getD k 0 })

/-- A level or a message for the outside is dispatched, whose first callback has one step. -/
def handled : List AppAction := [.dispatch, .dispatch, .run fun _ => 0] ++ List.replicate 6 .dispatch

/-- A power state is posted, checked and distributed, and then its level is. -/
def handledState (batteryVoltcV : UInt32) : List AppAction :=
  [measures batteryVoltcV, .dispatch, .dispatch, .run fun _ => 0, .dispatch, .run fun _ => 0] ++
    List.replicate 5 .dispatch ++ handled

/-- After 50 power states one of them and one level are sent. -/
theorem every_fiftieth_is_sent_fiftyStates : ∃ s,
    board ((List.replicate 50 (handledState 1100)).flatten ++ handled ++ handled) = some s ∧
      s.frames.length = 2 ∧ Distributed s := by
  have hrun : (board ((List.replicate 50 (handledState 1100)).flatten ++ handled ++ handled)).map
      (·.frames.length) = some 2 := by decide +kernel
  obtain ⟨s, hs, hframes⟩ := Option.map_eq_some_iff.mp hrun
  exact ⟨s, hs, hframes, every_fiftieth_is_sent startCallbacks_firmware stackOutside hs⟩

/-- The board switches itself off at 9 V. -/
theorem undervoltage_is_not_distributed_nineVolts : ∃ s,
    board [measures 900, .dispatch, .dispatch, .run fun _ => 0] = some s ∧
      s.running = some .switchedOff ∧ Checked s ∧ OffForReason s ∧
      ∀ bs t, exec (appStep pagedLayout 8192) s bs = some t → StaysOff s t := by
  have hrun : (board [measures 900, .dispatch, .dispatch, .run fun _ => 0]).map (·.running) =
      some (some .switchedOff) := by decide +kernel
  obtain ⟨s, hs, hoff⟩ := Option.map_eq_some_iff.mp hrun
  obtain ⟨hchecked, hreason, hstays, -⟩ :=
    undervoltage_is_not_distributed startCallbacks_firmware stackOutside hs
  exact ⟨s, hs, hoff, hchecked, hreason, hstays hoff⟩

/-- A packet for `masterOff` switches it off as well. -/
example :
    (board [.client (.postOwn msgIdGenericProtocolPacketReady
        { ptrOffset := 8192, bytes := fun k => ([1, 0, 0, 100, 1] : List UInt8).getD k 0 }),
      .dispatch, .dispatch, .run fun _ => 0]).map (·.running) = some (some .switchedOff) := by
  decide +kernel

/-- The registration of `buck.c` comes between two power states. -/
def lateStates : List AppAction := handledState 1100 ++ .onLateInitTimer :: handledState 1100

lemma othersKeepOff_lateStates : StepsMeet (appStep pagedLayout 8192)
    (OthersKeepOff msgIdRelativeBatteryVoltage)
    (appStart startCallbacks true (fun _ => []) defaultThresholds) lateStates := by
  have hall : ∀ a ∈ lateStates, ∀ b, a = .client b → ¬ Posts msgIdRelativeBatteryVoltage b := by
    simp only [lateStates, handledState, handled, measures, List.replicate, List.cons_append,
      List.nil_append, List.forall_mem_cons, reduceCtorEq, false_implies, implies_true, true_and,
      and_true, AppAction.client.injEq, List.not_mem_nil, forall_eq']
    exact ⟨(by decide : msgIdSystemPowerState ≠ msgIdRelativeBatteryVoltage),
      (by decide : msgIdSystemPowerState ≠ msgIdRelativeBatteryVoltage)⟩
  rintro pre a post u heq -
  exact hall a (heq ▸ by simp)

/-- The level of the first state is missed, and that of the second one starts the converter. -/
theorem converter_started_by_check_lateStates : ∃ s, board lateStates = some s ∧
    s.missed = 1 ∧ s.buck.enableSwitcher = true ∧
      ∃ p ∈ (s.passed.filter (·.accepted)).drop 1, p.thresholds.lowThresh < p.batteryVoltcV ∧
        0 < p.level := by
  have hrun : (board lateStates).map (fun s => (s.missed, s.buck.enableSwitcher)) =
      some (1, true) := by decide +kernel
  obtain ⟨s, hs, hboth⟩ := Option.map_eq_some_iff.mp hrun
  obtain ⟨hmissed, henable⟩ := Prod.mk.inj hboth
  have hstarted := (converter_started_by_check startCallbacks_firmware stackOutside
    othersKeepOff_lateStates hs).1 henable
  rw [hmissed] at hstarted
  exact ⟨s, hs, hmissed, henable, hstarted.2⟩

end Powerboard.Application
