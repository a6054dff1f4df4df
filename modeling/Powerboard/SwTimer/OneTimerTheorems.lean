import Powerboard.SwTimer.SwTimerTheorems

/-!
# At most one timer for each callback

Only the callbacks of the handles matter here. A step registers a callback in the handle that the
search finds, or it may free handles; no step moves a callback from one handle to another. The search
finds the handle of the callback if there is one, also behind the first free handle, so that a second
one is never filled with the same callback. What is called is the callback of an active handle.
-/

namespace Powerboard.SwTimer

open Machine Sweep

/-! ## The search -/

/-- The callback is in no handle. -/
def Absent (callback : TimerCallback) (handles : Vector CallbackHandle swTimerMaxHandles) : Prop :=
  Each (·.callback ≠ some callback) handles

/-- The search without a result has seen no free handle, nor one of the callback. -/
lemma searchHandle_eq_none {callback : TimerCallback} {hs : List CallbackHandle} {i : ℕ}
    {freeSlot : Option ℕ} :
    searchHandle callback hs i freeSlot = none ↔
      freeSlot = none ∧ ∀ h ∈ hs, h.Active ∧ h.callback ≠ some callback := by
  induction hs generalizing i freeSlot with
  | nil => simp [searchHandle]
  | cons h hs ih =>
    unfold searchHandle
    split_ifs with hfree hfound
    · simp [ih, CallbackHandle.Active, hfree.2]
    · simp [hfound]
    · have hactive : freeSlot = none → h.Active := fun hnone hcallback =>
        hfree ⟨hnone, hcallback⟩
      rw [ih, List.forall_mem_cons]
      constructor
      · rintro ⟨hnone, hrest⟩
        exact ⟨hnone, ⟨hactive hnone, hfound⟩, hrest⟩
      · rintro ⟨hnone, _, hrest⟩
        exact ⟨hnone, hrest⟩

/-- If the callback is in a handle, the search finds one that it is in. -/
lemma searchHandle_of_mem {callback : TimerCallback} {hs : List CallbackHandle} {i j : ℕ}
    {freeSlot : Option ℕ} (hj : searchHandle callback hs i freeSlot = some j)
    (hmem : ∃ h ∈ hs, h.callback = some callback) :
    ∃ k, j = i + k ∧ ∃ hk : k < hs.length, hs[k].callback = some callback := by
  induction hs generalizing i freeSlot with
  | nil => simp at hmem
  | cons h hs ih =>
    have hlater (freeSlot : Option ℕ) (hj : searchHandle callback hs (i + 1) freeSlot = some j)
        (hcallback : h.callback ≠ some callback) :
        ∃ k, j = i + k ∧ ∃ hk : k < (h :: hs).length, (h :: hs)[k].callback = some callback := by
      have hmem : ∃ h ∈ hs, h.callback = some callback := by
        simpa [hcallback] using hmem
      obtain ⟨k, rfl, hk, hfound⟩ := ih hj hmem
      exact ⟨k + 1, by omega, by simpa using hk, by simpa using hfound⟩
    unfold searchHandle at hj
    split_ifs at hj with hfree hfound
    · exact hlater _ hj (by simp [hfree.2])
    · exact ⟨0, by simpa using hj.symm, by simp, hfound⟩
    · exact hlater _ hj hfound

/-- The search finds the free handle it has seen already, or one of those it still looks at. -/
lemma searchHandle_lt {callback : TimerCallback} {hs : List CallbackHandle} {i j : ℕ}
    {freeSlot : Option ℕ} (hj : searchHandle callback hs i freeSlot = some j) :
    freeSlot = some j ∨ j < i + hs.length := by
  induction hs generalizing i freeSlot with
  | nil => exact .inl hj
  | cons h hs ih =>
    rw [List.length_cons]
    unfold searchHandle at hj
    split_ifs at hj with hfree hfound
    · rcases ih hj with heq | hlt
      · obtain rfl := Option.some.inj heq
        exact .inr (by omega)
      · exact .inr (by omega)
    · obtain rfl := Option.some.inj hj
      exact .inr (by omega)
    · exact (ih hj).imp id fun hlt => by omega

lemma slotFor_lt {handles : Vector CallbackHandle swTimerMaxHandles} {callback : TimerCallback}
    {j : ℕ} (hj : slotFor handles callback = some j) : j < swTimerMaxHandles := by
  simpa using searchHandle_lt hj

lemma slotFor_eq_none {handles : Vector CallbackHandle swTimerMaxHandles}
    {callback : TimerCallback} :
    slotFor handles callback = none ↔
      (∀ h ∈ handles, h.Active) ∧ ∀ h ∈ handles, h.callback ≠ some callback := by
  simp [slotFor, searchHandle_eq_none, forall_and]

/-- The handle that a registration gets is the callback's own one, if it has one. -/
lemma slotFor_of_callback {handles : Vector CallbackHandle swTimerMaxHandles}
    {callback : TimerCallback} {j : ℕ} (hj : slotFor handles callback = some j) {i : ℕ}
    (hi : i < swTimerMaxHandles) (hcallback : handles[i].callback = some callback) :
    ∃ hj : j < swTimerMaxHandles, handles[j].callback = some callback := by
  have hmem : ∃ h ∈ handles.toList, h.callback = some callback :=
    ⟨handles[i], Vector.mem_toList_iff.mpr (Vector.getElem_mem hi), hcallback⟩
  obtain ⟨k, rfl, hk, hfound⟩ := searchHandle_of_mem hj hmem
  rw [Nat.zero_add]
  refine ⟨by simpa using hk, by simpa using hfound⟩

/-! ## The steps -/

/-- What a step does to the callbacks of the handles. -/
inductive TableMoves (s t : Globals) : TimerAction → Prop
  /-- handles may have been freed -/
  | keep (a : TimerAction) (hkeep : ∀ i (hi : i < swTimerMaxHandles),
      t.handles[i].callback = none ∨ t.handles[i].callback = s.handles[i].callback) :
      TableMoves s t a
  | register (callback : TimerCallback) (intervalUS : UInt32) (oneShot : Bool) (j : ℕ)
      (hj : slotFor s.handles callback = some j)
      (hother : ∀ i (hi : i < swTimerMaxHandles), i ≠ j → t.handles[i] = s.handles[i])
      (hcallback : ∀ hj : j < swTimerMaxHandles, t.handles[j].callback = some callback) :
      TableMoves s t (.register (some callback) intervalUS oneShot)

lemma TableMoves.of_handles_eq {s t : Globals} (a : TimerAction) (h : t.handles = s.handles) :
    TableMoves s t a := .keep a fun i hi => .inr (by simp only [h])

lemma TableMoves.of_write {s t : Globals} (a : TimerAction) (j : ℕ) (h : CallbackHandle)
    (ht : t.handles = s.handles.setIfInBounds j h)
    (hh : ∀ hj : j < swTimerMaxHandles,
      h.callback = none ∨ h.callback = s.handles[j].callback) : TableMoves s t a := by
  refine .keep a fun i hi => ?_
  simp only [ht, Vector.getElem_setIfInBounds]
  split
  · next heq =>
    subst heq
    exact hh hi
  · exact .inr rfl

lemma TableMoves.of_register {s t : Globals} {callback : TimerCallback} (intervalUS : UInt32)
    (oneShot : Bool) {j : ℕ} (hj : slotFor s.handles callback = some j) (ticksToSet : ℕ)
    (ht : t.handles = s.handles.setIfInBounds j (s.newHandle callback ticksToSet oneShot)) :
    TableMoves s t (.register (some callback) intervalUS oneShot) := by
  refine .register callback intervalUS oneShot j hj (fun i hi hne => ?_) fun hj => ?_
  · simp only [ht, Vector.getElem_setIfInBounds_ne hi hne.symm]
  · simp only [ht, Vector.getElem_setIfInBounds_self hj, Globals.newHandle]

lemma expire_callback (h : CallbackHandle) :
    h.expire.callback = none ∨ h.expire.callback = h.callback := by
  unfold CallbackHandle.expire
  split
  · exact .inl rfl
  · exact .inr rfl

lemma finishPass_handles (s : Globals) (pass : Pass) :
    (s.finishPass pass).handles = s.handles := by
  unfold Globals.finishPass
  split <;> rfl

lemma finishPass_calls (s : Globals) (pass : Pass) : (s.finishPass pass).calls = s.calls := by
  unfold Globals.finishPass
  split <;> rfl

lemma tableMoves_of_moves {s t : Globals} {a : TimerAction} (h : Moves s a t) :
    TableMoves s t a := by
  cases h with
  | elapse | stay | registerNull | update | startPass | skip | leave | callbackReturns =>
    exact .of_handles_eq _ rfl
  | clear a j h hinactive =>
    exact .of_write a j h rfl fun _ => .inl (not_not.mp hinactive)
  | nested pass hpc callback intervalUS oneShot j hj => exact .of_register _ _ hj _ rfl
  | register hpc callback intervalUS oneShot j hj => exact .of_register _ _ hj _ rfl
  | expire pass hpc hi callback hcallback hout =>
    exact .of_write _ pass.i _ rfl fun _ => expire_callback _
  | keep pass hpc hi hcount => exact .of_write _ pass.i _ rfl fun _ => .inr rfl
  | reschedule pass hpc hi => exact .of_handles_eq _ rfl
  | finish pass hpc hi => exact .of_handles_eq _ (finishPass_handles s pass)

/-- A call is one of the callback of an active handle. -/
lemma calls_of_moves {s t : Globals} {a : TimerAction} (h : Moves s a t) :
    t.calls = s.calls ∨ ∃ call, t.calls = s.calls ++ [call] ∧
      ∃ i, ∃ hi : i < swTimerMaxHandles, s.handles[i].callback = some call.callback := by
  cases h with
  | expire pass hpc hi callback hcallback hout => exact .inr ⟨_, rfl, pass.i, hi, hcallback⟩
  | finish pass hpc hi => exact .inl (finishPass_calls s pass)
  | _ => exact .inl rfl

/-! ## No callback has two timers -/

/-- No callback is in two handles. -/
def OneTimerEach (handles : Vector CallbackHandle swTimerMaxHandles) : Prop :=
  ∀ callback, ∀ i (hi : i < swTimerMaxHandles), ∀ j (hj : j < swTimerMaxHandles),
    handles[i].callback = some callback → handles[j].callback = some callback → i = j

lemma OneTimerEach.step {s t : Globals} {a : TimerAction} (hone : OneTimerEach s.handles)
    (hmoves : TableMoves s t a) : OneTimerEach t.handles := by
  cases hmoves with
  | keep a hkeep =>
    intro callback i hi j hj hcallbackI hcallbackJ
    -- what is in a handle was there before
    have hbefore (k : ℕ) (hk : k < swTimerMaxHandles)
        (hcallback : t.handles[k].callback = some callback) :
        s.handles[k].callback = some callback := by
      rcases hkeep k hk with hnone | hsame
      · simp [hnone] at hcallback
      · rw [← hsame, hcallback]
    exact hone callback i hi j hj (hbefore i hi hcallbackI) (hbefore j hj hcallbackJ)
  | register callback intervalUS oneShot k hk hother hcallback =>
    -- a handle other than `k` that has the callback would have had it before, and `k` with it
    have halone (i : ℕ) (hi : i < swTimerMaxHandles)
        (hi' : t.handles[i].callback = some callback) : i = k := by
      by_contra hne
      rw [hother i hi hne] at hi'
      obtain ⟨hk', hcallbackK⟩ := slotFor_of_callback hk hi hi'
      exact hne (hone callback i hi k hk' hi' hcallbackK)
    intro callback' i hi j hj hcallbackI hcallbackJ
    by_cases hcallback' : callback' = callback
    · subst hcallback'
      rw [halone i hi hcallbackI, halone j hj hcallbackJ]
    · -- the handles of another callback are not `k`, and did not change
      have hne (l : ℕ) (hl : l < swTimerMaxHandles)
          (hcallbackL : t.handles[l].callback = some callback') : l ≠ k := by
        rintro rfl
        rw [hcallback hl, Option.some.injEq] at hcallbackL
        exact hcallback' hcallbackL.symm
      rw [hother i hi (hne i hi hcallbackI)] at hcallbackI
      rw [hother j hj (hne j hj hcallbackJ)] at hcallbackJ
      exact hone callback' i hi j hj hcallbackI hcallbackJ

/-! ## A callback that is not registered is not called -/

lemma Absent.step {s t : Globals} {a : TimerAction} {callback : TimerCallback}
    (habsent : Absent callback s.handles) (hmoves : TableMoves s t a)
    (ha : ∀ intervalUS oneShot, a ≠ .register (some callback) intervalUS oneShot) :
    Absent callback t.handles := by
  cases hmoves with
  | keep a hkeep =>
    intro i hi
    rcases hkeep i hi with hnone | hsame
    · simp [hnone]
    · rw [hsame]
      exact habsent i hi
  | register callback' intervalUS oneShot j hj hother hcallback =>
    intro i hi
    by_cases hij : i = j
    · subst hij
      rw [hcallback hi, Ne, Option.some.injEq]
      rintro rfl
      exact ha intervalUS oneShot rfl
    · rw [hother i hi hij]
      exact habsent i hi

/-- The handle that `swTimer_unRegisterFromTimer` finds is one of the callback. -/
lemma callback_of_findFinIdx {handles : Vector CallbackHandle swTimerMaxHandles}
    {callback : TimerCallback} {j : Fin swTimerMaxHandles}
    (hj : handles.findFinIdx? (·.callback = some callback) = some j) :
    (handles.get j).callback = some callback := by
  obtain ⟨k, hk, rfl⟩ := Option.map_eq_some_iff.mp hj
  simpa [Vector.get] using (Array.findFinIdx?_eq_some_iff.mp hk).1

/-- `swTimer_unRegisterFromTimer` frees the only handle of the callback. -/
lemma unRegisterFromTimer_absent {s : Globals} (hone : OneTimerEach s.handles)
    (callback : TimerCallback) :
    Absent callback (unRegisterFromTimer s (some callback)).2.handles := by
  simp only [unRegisterFromTimer]
  split <;> intro i hi
  · next j hj =>
    have hcallback := callback_of_findFinIdx hj
    dsimp only
    rw [Vector.getElem_setIfInBounds]
    split
    · simp
    · next hne => exact fun hcallback' => hne (hone callback j j.isLt i hi hcallback hcallback')
  · next hnone =>
    have hall := Vector.findFinIdx?_eq_none_iff.mp hnone
    simpa using hall s.handles[i] (Vector.getElem_mem hi)

lemma unRegisterFromTimer_calls (s : Globals) (callback : TimerCallback) :
    (unRegisterFromTimer s (some callback)).2.calls = s.calls := by
  simp only [unRegisterFromTimer]
  split <;> rfl

/-- Without a registration of the callback, it is not called. -/
lemma Absent.exec {s t : Globals} {as : List TimerAction} {callback : TimerCallback}
    (hwf : WellFormed s) (habsent : Absent callback s.handles)
    (has : ∀ intervalUS oneShot, .register (some callback) intervalUS oneShot ∉ as)
    (h : exec timerStep s as = some t) :
    ∃ calls, t.calls = s.calls ++ calls ∧ ∀ call ∈ calls, call.callback ≠ callback := by
  induction as generalizing s with
  | nil =>
    obtain rfl := Option.some.inj h
    exact ⟨[], by simp, by simp⟩
  | cons a as ih =>
    obtain ⟨u, hu, ht⟩ := (exec_cons_eq_some timerStep).mp h
    have hmoves := moves_of_timerStep hwf.handling hu
    have habsent' : Absent callback u.handles :=
      habsent.step (tableMoves_of_moves hmoves) fun intervalUS oneShot heq =>
        has intervalUS oneShot (by simp [heq])
    obtain ⟨later, hlater, hother⟩ := ih (hwf.step hu) habsent'
      (fun intervalUS oneShot hmem => has intervalUS oneShot (List.mem_cons_of_mem a hmem)) ht
    rcases calls_of_moves hmoves with hcalls | ⟨call, hcalls, i, hi, hcallback⟩
    · exact ⟨later, by rw [hlater, hcalls], hother⟩
    · refine ⟨call :: later, by simp [hlater, hcalls], ?_⟩
      -- the call is of a callback that is in a handle
      have hne : call.callback ≠ callback := fun heq => habsent i hi (by rw [hcallback, heq])
      simpa using ⟨hne, hother⟩

/-! ## All runs -/

lemma registerOnTimerUS_fst (s : Globals) (callback : TimerCallback) (intervalUS : UInt32)
    (oneShot : Bool) :
    (registerOnTimerUS s (some callback) intervalUS oneShot).1 =
      (slotFor s.handles callback).isSome := by
  simp only [registerOnTimerUS, Globals.registrationPhase]
  split <;> simp [*]

lemma oneTimerEach_start : OneTimerEach timerStart.handles := by
  intro callback i hi j hj hcallback
  simp [timerStart, CallbackHandle.unused] at hcallback

/-- In every state that a run reaches, no callback is in two handles. A registration is refused only
when the callback is in no handle and none is free. What is unregistered is not called, wherever a
pass is, before it is registered again. -/
theorem one_timer_each_callback (as : List TimerAction) (s : Globals)
    (h : exec timerStep timerStart as = some s) :
    OneTimerEach s.handles ∧
      (∀ callback intervalUS oneShot,
        (registerOnTimerUS s (some callback) intervalUS oneShot).1 = false →
        (∀ handle ∈ s.handles, handle.callback ≠ some callback) ∧
          ∀ handle ∈ s.handles, handle.Active) ∧
      ∀ callback (after : List TimerAction) (t : Globals),
        exec timerStep s (.unRegister (some callback) :: after) = some t →
        (∀ intervalUS oneShot, .register (some callback) intervalUS oneShot ∉ after) →
        ∃ calls, t.calls = s.calls ++ calls ∧ ∀ call ∈ calls, call.callback ≠ callback := by
  have hstep (u : Globals) (a : TimerAction) (v : Globals)
      (hu : WellFormed u ∧ OneTimerEach u.handles) (hv : timerStep u a = some v) :
      WellFormed v ∧ OneTimerEach v.handles :=
    ⟨hu.1.step hv, hu.2.step (tableMoves_of_moves (moves_of_timerStep hu.1.handling hv))⟩
  obtain ⟨hwf, hone⟩ := exec_induction timerStep hstep ⟨.start, oneTimerEach_start⟩ h
  refine ⟨hone, fun callback intervalUS oneShot hfalse => ?_, fun callback after t ht hafter => ?_⟩
  · rw [registerOnTimerUS_fst, Option.isSome_eq_false_iff, Option.isNone_iff_eq_none] at hfalse
    exact (slotFor_eq_none.mp hfalse).symm
  · obtain ⟨u, hu, ht⟩ := (exec_cons_eq_some timerStep).mp ht
    have hwf' := hwf.step hu
    simp only [timerStep] at hu
    split at hu
    · obtain rfl := Option.some.inj hu
      rw [← unRegisterFromTimer_calls s callback]
      exact (unRegisterFromTimer_absent hone callback).exec hwf' hafter ht
    · simp at hu

/-- A callback that fills the table with timers that are due at once. -/
def fillsTable : List TimerAction :=
  List.flatten
    [[.register (some 0) 1 false], List.replicate 36 .proceed,
      [.elapse 48, .trigger, .proceed, .proceed],
      (List.range 31).map fun k => .register (some (k + 1)) 0 true]

/-- The end of the pass, when the callback has taken back one of them. -/
def restOfPass : List TimerAction :=
  List.flatten
    [[.callbackReturns, .proceed, .proceed],
      (List.replicate 30 [.proceed, .callbackReturns, .proceed]).flatten, [.proceed]]

theorem one_timer_each_callback_fillsTable :
    ∃ s t, exec timerStep timerStart fillsTable = some s ∧
      exec timerStep s (.unRegister (some 1) :: restOfPass) = some t ∧
      t.calls.map (·.callback) = 0 :: List.range' 2 30 ∧
      OneTimerEach s.handles ∧ (∀ handle ∈ s.handles, handle.Active) ∧
      ∃ calls, t.calls = s.calls ++ calls ∧ ∀ call ∈ calls, call.callback ≠ 1 := by
  have hrun : (exec timerStep timerStart fillsTable).map (fun s =>
      ((registerOnTimerUS s (some 32) 1 true).1,
        (exec timerStep s (.unRegister (some 1) :: restOfPass)).map (·.calls.map (·.callback)))) =
      some (false, some (0 :: List.range' 2 30)) := by decide +kernel
  obtain ⟨s, hs, hview⟩ := Option.map_eq_some_iff.mp hrun
  obtain ⟨hfull, hrest⟩ := Prod.mk.inj hview
  obtain ⟨t, ht, hcalls⟩ := Option.map_eq_some_iff.mp hrest
  obtain ⟨hone, hrefused, hunregistered⟩ := one_timer_each_callback fillsTable s hs
  have hafter : ∀ intervalUS oneShot, .register (some 1) intervalUS oneShot ∉ restOfPass := by
    intro intervalUS oneShot hmem
    simp [restOfPass] at hmem
  exact ⟨s, t, hs, ht, hcalls, hone, (hrefused 32 1 true hfull).2, hunregistered 1 _ t ht hafter⟩

end Powerboard.SwTimer
