import Powerboard.PowerCheck.Distribution
import Powerboard.PowerCheck.PowerCheckTheorems

/-!
# What a published level depends on

The only step that reads the memory around the level is the post, and what it reads is what it
copies. Two runs therefore stay in the same state as long as the copied bytes are the same.
-/

namespace Powerboard.PowerCheck

open Machine MsgPump Measuring

/-! ## What a post reads -/

section Post
variable {t : BufTable} {p : Pump} {d : BufDescription} {id : MsgId} {a b : Pointer}

/-- Two pointers to the same place are posted alike, if what is copied from them is the same. -/
lemma postMessage_congr (hd : t.messageBuffers id = some d) (hoffset : a.ptrOffset = b.ptrOffset)
    (hcopied : ¬ p.Full → ¬ d.InPool a → (∃ i < d.msgAmount, (p.header ⟨id, i⟩).IsFree) →
      copied d a = copied d b) :
    postMessage t p id (some a) = postMessage t p id (some b) := by
  by_cases hfull : p.Full
  · unfold Pump.Full at hfull
    simp only [postMessage, if_pos hfull]
  by_cases hin : d.InPool a
  · -- the bytes of a message in the pool stay where they are
    rw [postMessage_of_room hd hfull, postMessage_of_room hd hfull, postPointer, postPointer,
      ← hoffset]
    unfold BufDescription.InPool at hin
    simp only [if_pos hin]
  · have hin' : ¬ d.InPool b := by rwa [BufDescription.InPool, ← hoffset]
    rw [postMessage_of_notInPool hd hfull hin, postMessage_of_notInPool hd hfull hin']
    rcases @postCopy_outcome p d id (List.range d.msgAmount) with
      ⟨i, hi, hfree, heq⟩ | ⟨-, heq⟩
    · have hsame : copied d a = copied d b :=
        hcopied hfull hin ⟨i, List.mem_range.mp hi, MsgHeader.isFree_iff.mpr hfree⟩
      rw [heq a, heq b, hsame]
    · rw [heq a, heq b]

/-- The element that a message is copied into does not depend on the message. -/
lemma postMessage_copies (hd : t.messageBuffers id = some d) (hroom : ¬ p.Full)
    (hfree : ∃ i < d.msgAmount, (p.header ⟨id, i⟩).IsFree) :
    ∃ i, ∀ ptr : Pointer, ¬ d.InPool ptr → postMessage t p id (some ptr) =
      .ok (true, ((p.setHeader ⟨id, i⟩ .posted).setData ⟨id, i⟩ (copied d ptr)).enqueue
        (entryOf d ⟨id, i⟩)) := by
  rcases @postCopy_outcome p d id (List.range d.msgAmount) with ⟨i, -, -, heq⟩ | ⟨hnone, -⟩
  · refine ⟨i, fun ptr hout => ?_⟩
    rw [postMessage_of_notInPool hd hroom hout, heq ptr]
  · obtain ⟨i, hi, hfree⟩ := hfree
    exact absurd (MsgHeader.isFree_iff.mp hfree) (hnone i (List.mem_range.mpr hi))

end Post

/-! ## What a step reads -/

lemma firmware_relativeBatteryVoltage :
    firmware.messageBuffers msgIdRelativeBatteryVoltage = some relativeBatteryVoltageBuf := by
  decide +kernel

section Step
variable {dataAddress : MsgId → ℤ} {levelOffset : ℤ} {s : Levels} {buf : Option Elem}
  {memory memory' : Memory}

lemma copiesLevel_iff {a : LevelAction} :
    CopiesLevel levelOffset s a ↔ a = .run ∧
      ∃ buf, s.running = some (.onNewPwrMeasurement buf) ∧ PostCopies levelOffset s buf := by
  unfold CopiesLevel
  split
  · next buf hrunning => simp [hrunning]
  · next hother =>
    refine iff_of_false id ?_
    rintro ⟨rfl, buf, hrunning, -⟩
    exact hother buf rfl hrunning

lemma onNewPwrMeasurement_eq_post_iff {g : Globals} {content : List UInt8} :
    (∃ color level, onNewPwrMeasurement g content = .post color level) ↔
      g.lowThresh < (systemPowerStateAt content).batteryVoltcV := by
  unfold onNewPwrMeasurement
  dsimp only
  split
  · next hlow => simpa using hlow
  · next hlow => simpa using hlow

/-- The first byte that is copied is the level, and the rest are those behind it. -/
lemma copied_level_iff (level : UInt8) :
    copied relativeBatteryVoltageBuf (levelPointer levelOffset level memory) =
        copied relativeBatteryVoltageBuf (levelPointer levelOffset level memory') ↔
      ∀ k < relativeBatteryVoltageBuf.msgSize, 1 ≤ k → memory k = memory' k := by
  unfold copied levelPointer
  rw [List.map_inj_left]
  refine forall_congr' fun k => ?_
  rw [List.mem_range]
  refine imp_congr_right fun _ => ?_
  rcases Nat.eq_zero_or_pos k with rfl | hpos
  · simp
  · have hne : k ≠ 0 := Nat.pos_iff_ne_zero.mp hpos
    simp only [Function.update_of_ne hne]
    exact ⟨fun h _ => h, fun h => h hpos⟩

lemma runNewPwrMeasurement_congr
    (hrunning : s.running = some (.onNewPwrMeasurement buf))
    (h : SameBehindLevel levelOffset (s, s) (.run, memory, memory')) :
    runNewPwrMeasurement levelOffset s buf memory =
      runNewPwrMeasurement levelOffset s buf memory' := by
  unfold runNewPwrMeasurement
  cases hreaction : onNewPwrMeasurement s.thresholds (s.content buf) with
  | switchAllOff => rfl
  | post color level =>
    have hpost : postMessage firmware s.state.pump msgIdRelativeBatteryVoltage
          (some (levelPointer levelOffset level memory)) =
        postMessage firmware s.state.pump msgIdRelativeBatteryVoltage
          (some (levelPointer levelOffset level memory')) := by
      refine postMessage_congr firmware_relativeBatteryVoltage rfl fun hroom hout hfree => ?_
      apply (copied_level_iff level).mpr
      apply h
      have hlow := onNewPwrMeasurement_eq_post_iff.mp ⟨color, level, hreaction⟩
      exact copiesLevel_iff.mpr ⟨rfl, buf, hrunning, hlow, hroom, hout, hfree⟩
    simp only [hpost]

/-- A step with the same bytes behind a copied level is the same step. -/
lemma levelStep_congr {a : LevelAction}
    (h : SameBehindLevel levelOffset (s, s) (a, memory, memory')) :
    levelStep dataAddress levelOffset s a memory =
      levelStep dataAddress levelOffset s a memory' := by
  cases a with
  | run =>
    cases hrunning : s.running with
    | none => simp only [levelStep, hrunning, Option.bind_none]
    | some pc =>
      simp only [levelStep, hrunning, Option.bind_some]
      cases pc with
      | onNewPwrMeasurement buf =>
        simp only [runLevels]
        exact runNewPwrMeasurement_congr hrunning h
      | switchedOff | onRelativeMeasurement | msgCallback => simp only [runLevels]
  | _ => simp only [levelStep]

/-- A step in which a level is copied with other bytes behind it puts another message into the queue,
in the same element. -/
theorem levelStep_messages_differ {a : LevelAction} {u v : Levels}
    (hdiffer : ¬ SameBehindLevel levelOffset (s, s) (a, memory, memory'))
    (hu : levelStep dataAddress levelOffset s a memory = some u)
    (hv : levelStep dataAddress levelOffset s a memory' = some v) :
    ∃ e : Elem, e.id = msgIdRelativeBatteryVoltage ∧
      u.state.pump.msgQueue s.state.pump.msgQueueTail = entryOf relativeBatteryVoltageBuf e ∧
      v.state.pump.msgQueue s.state.pump.msgQueueTail = entryOf relativeBatteryVoltageBuf e ∧
      u.state.pump.data e ≠ v.state.pump.data e := by
  simp only [SameBehindLevel, Classical.not_imp] at hdiffer
  obtain ⟨hcopies, hbytes⟩ := hdiffer
  obtain ⟨rfl, buf, hrunning, hlow, hroom, hout, hfree⟩ := copiesLevel_iff.mp hcopies
  obtain ⟨color, level, hreaction⟩ := onNewPwrMeasurement_eq_post_iff.mpr hlow
  obtain ⟨i, hpost⟩ := postMessage_copies firmware_relativeBatteryVoltage hroom hfree
  simp only [levelStep, hrunning, Option.bind_some, runLevels, runNewPwrMeasurement, hreaction,
    hpost (levelPointer levelOffset level _) hout, Option.some.injEq] at hu hv
  subst hu hv
  refine ⟨⟨msgIdRelativeBatteryVoltage, i⟩, rfl, ?_, ?_, ?_⟩
  · simp [Levels.setPump, Pump.enqueue, Pump.setHeader, Pump.setData]
  · simp [Levels.setPump, Pump.enqueue, Pump.setHeader, Pump.setData]
  · simp only [Levels.setPump, Pump.enqueue, Pump.setHeader, Pump.setData, Function.update_self]
    exact mt (copied_level_iff level).mp hbytes

end Step

/-! ## Runs -/

/-- Two runs that begin in one state publish the same levels and send the same frames, if the bytes
behind each copied level are the same in both. -/
theorem samePublished_of_sameBehindLevel (dataAddress : MsgId → ℤ) (levelOffset : ℤ) (s : Levels)
    {as : List (LevelAction × Memory × Memory)}
    (h : StepsMeet (pairStep (levelStep dataAddress levelOffset)) (SameBehindLevel levelOffset)
      (s, s) as) :
    StatesMeet (pairStep (levelStep dataAddress levelOffset)) SamePublished (s, s) as := by
  have hstep : ∀ s a memory memory', SameBehindLevel levelOffset (s, s) (a, memory, memory') →
      levelStep dataAddress levelOffset s a memory =
        levelStep dataAddress levelOffset s a memory' :=
    fun _ _ _ _ => levelStep_congr
  intro pre post p heq hp
  have hstate : p.1 = p.2 := pairStep_states_eq hstep s h pre post p heq hp
  exact ⟨congrArg Levels.levelCalls hstate, congrArg Levels.frames hstate⟩

/-- The callbacks of `powerCheck.c`, `dataDistribution.c` and the proxy. -/
def levelCallbacks (id : MsgId) (i : ℕ) : Option Callback :=
  if i = 0 ∧ id = msgIdSystemPowerState then some Measuring.onNewPwrMeasurement
  else if i = 0 ∧ id = msgIdRelativeBatteryVoltage then some onRelativeMeasurementAddress
  else if i = 0 ∧ id = msgIdRelativeBatteryVoltageOut then some MsgProxy.msgCallback
  else none

/-- Before the 50th level. -/
def levelsStart : Levels :=
  { state := initial levelCallbacks fun _ => []
    thresholds := defaultThresholds
    color := { red := 0, green := 0, blue := 0 }
    buck := { enableSwitcher := false, switcherStarted := false }
    counter := 49
    sendState := fun _ => .zeroed
    running := none
    calls := []
    frames := [] }

/-- A message is dispatched to one callback. -/
def handled : List LevelAction := [.dispatch, .dispatch, .run] ++ List.replicate 6 .dispatch

/-- A power state of 11 V is posted, then its level, and this once more for the outside. -/
def elevenVolts : List LevelAction :=
  [.post msgIdSystemPowerState { ptrOffset := 4096, bytes := fun k => (batteryOnly 1100).getD k 0 }]
    ++ handled ++ handled ++ handled

/-- Two runs through the same actions in two memories. -/
def withMemories (memory memory' : Memory) (as : List LevelAction) :
    List (LevelAction × Memory × Memory) :=
  as.map fun a => (a, memory, memory')

/-- The step of two runs, with the pools one behind the other and the stack behind them. -/
abbrev twoBoards := pairStep (levelStep (fun id => 256 * id) 8192)

/-- The byte of the level itself and those behind the fourth may differ. -/
theorem samePublished_elevenVolts :
    ∃ q, exec twoBoards (levelsStart, levelsStart)
        (withMemories (fun _ => 0) (fun k => if 1 ≤ k ∧ k < 4 then 0 else 1) elevenVolts) = some q ∧
      q.1.frames = [[240, 4, 2, 0, 144, 0, 0, 0, 106, 15]] ∧ SamePublished q := by
  have hrun : (exec twoBoards (levelsStart, levelsStart)
      (withMemories (fun _ => 0) (fun k => if 1 ≤ k ∧ k < 4 then 0 else 1) elevenVolts)).map
        (·.1.frames) = some [[240, 4, 2, 0, 144, 0, 0, 0, 106, 15]] := by decide +kernel
  obtain ⟨q, hq, hframes⟩ := Option.map_eq_some_iff.mp hrun
  have hmeet : StepsMeet twoBoards (SameBehindLevel 8192) (levelsStart, levelsStart)
      (withMemories (fun _ => 0) (fun k => if 1 ≤ k ∧ k < 4 then 0 else 1) elevenVolts) := by
    decide +kernel
  exact ⟨q, hq, hframes, samePublished_of_sameBehindLevel _ _ levelsStart hmeet _ []
    q (List.append_nil _).symm hq⟩

/-- The bytes in the memory behind the level get to the callbacks and to the other board. -/
theorem bytes_behind_level_are_published :
    ∃ q, exec twoBoards (levelsStart, levelsStart)
        (withMemories (fun _ => 0) (fun _ => 1) elevenVolts) = some q ∧
      q.1.levelCalls.map (·.content) = [some [144, 0, 0, 0], some [144, 0, 0, 0]] ∧
      q.2.levelCalls.map (·.content) = [some [144, 1, 1, 1], some [144, 1, 1, 1]] ∧
      q.1.frames = [[240, 4, 2, 0, 144, 0, 0, 0, 106, 15]] ∧
      q.2.frames = [[240, 4, 2, 0, 144, 1, 1, 1, 103, 15]] ∧ ¬ SamePublished q := by
  have hrun : (exec twoBoards (levelsStart, levelsStart)
      (withMemories (fun _ => 0) (fun _ => 1) elevenVolts)).map (fun q =>
        (q.1.levelCalls.map (·.content), q.2.levelCalls.map (·.content), q.1.frames, q.2.frames)) =
      some ([some [144, 0, 0, 0], some [144, 0, 0, 0]], [some [144, 1, 1, 1], some [144, 1, 1, 1]],
        [[240, 4, 2, 0, 144, 0, 0, 0, 106, 15]], [[240, 4, 2, 0, 144, 1, 1, 1, 103, 15]]) := by
    decide +kernel
  obtain ⟨q, hq, hview⟩ := Option.map_eq_some_iff.mp hrun
  simp only [Prod.mk.injEq] at hview
  obtain ⟨hcalls, hcalls', hframes, hframes'⟩ := hview
  refine ⟨q, hq, hcalls, hcalls', hframes, hframes', fun hsame => ?_⟩
  have heq := hsame.2
  rw [hframes, hframes'] at heq
  exact absurd heq (by decide)

end Powerboard.PowerCheck
