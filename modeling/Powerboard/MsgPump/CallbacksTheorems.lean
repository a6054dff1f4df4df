import Powerboard.MsgPump.Callbacks

/-!
# When the callbacks of a message are a set

As long as nothing that is registered is unregistered, a callback vector is filled from its beginning
and without repetition. Emptying an entry makes a hole, which the next registration fills also with a
callback that is registered behind it; and that the callback was registered is not reported.
-/

namespace Powerboard.MsgPump

open Machine

variable {t : BufTable} {p : Pump} {id : MsgId} {callback : Callback} {r : Bool × Pump}

/-! ## What the functions can do -/

lemma setCallback_self {i : ℕ} (h : p.callbackVector id i = some callback) :
    p.setCallback id i (some callback) = p := by
  unfold Pump.setCallback
  rw [← h, Function.update_eq_self, Function.update_eq_self]

lemma setCallback_callbackVector_self (p : Pump) (id : MsgId) (i : ℕ) (c : Option Callback) :
    (p.setCallback id i c).callbackVector id = Function.update (p.callbackVector id) i c :=
  Function.update_self _ _ _

lemma setCallback_callbackVector_of_ne {id' : MsgId} (h : id' ≠ id) (i : ℕ)
    (c : Option Callback) : (p.setCallback id i c).callbackVector id' = p.callbackVector id' :=
  Function.update_of_ne h _ _

/-- Everything that `msgPump_registerOnMessage` can do. -/
inductive RegisterOutcome (t : BufTable) (p : Pump) (id : MsgId) (callback : Callback) :
    Bool × Pump → Prop
  | undeclared (hnone : t.messageBuffers id = none) : RegisterOutcome t p id callback (false, p)
  | already (hreg : p.Registered id callback) : RegisterOutcome t p id callback (true, p)
  | added (d : BufDescription) (i : ℕ) (hd : t.messageBuffers id = some d) (hi : i < maxReceivers)
      (hfree : p.callbackVector id i = none)
      (hbefore : ∀ k < i, p.callbackVector id k ≠ none ∧ p.callbackVector id k ≠ some callback) :
      RegisterOutcome t p id callback (true, p.setCallback id i (some callback))
  | noRoom (hfull : ∀ i < maxReceivers,
      p.callbackVector id i ≠ none ∧ p.callbackVector id i ≠ some callback) :
      RegisterOutcome t p id callback (false, p)

theorem registerOnMessage_outcome (h : registerOnMessage t p id (some callback) = .ok r) :
    RegisterOutcome t p id callback r := by
  cases hd : t.messageBuffers id with
  | none =>
    have hr : r = (false, p) := by
      unfold registerOnMessage BufTable.lookup at h
      rw [hd] at h
      dsimp only at h
      split_ifs at h <;> simp_all
    exact hr ▸ .undeclared hd
  | some d =>
    have hrange := t.id_range id d hd
    obtain ⟨hlast, hlookup, hid⟩ := t.lookup_eq hd
    simp only [registerOnMessage, hlookup, if_pos (And.intro hlast hrange.1), if_pos hid] at h
    split at h
    · rename_i i hfind
      simp only [List.find?_range_eq_some, decide_eq_true_eq, List.mem_range,
        Bool.not_eq_true', decide_eq_false_iff_not, not_or] at hfind
      obtain ⟨hfree | hreg, hi, hbefore⟩ := hfind
      · rw [Except.ok.injEq] at h
        exact h ▸ .added d i hd hi hfree hbefore
      · rw [setCallback_self hreg, Except.ok.injEq] at h
        exact h ▸ .already ⟨i, hi, hreg⟩
    · -- every entry holds another callback
      rename_i hfind
      simp only [List.find?_range_eq_none, Bool.not_eq_true', decide_eq_false_iff_not,
        not_or] at hfind
      rw [Except.ok.injEq] at h
      exact h ▸ .noRoom hfind

/-- Unregistering what is not registered does nothing. -/
lemma unregisterFromMessage_eq (h : unregisterFromMessage t p id (some callback) = .ok r)
    (hno : ¬ p.Registered id callback) : r = (false, p) := by
  unfold unregisterFromMessage at h
  dsimp only at h
  split at h
  · split at h
    · cases h
    · cases h
    · split at h
      · split at h
        · rename_i i hfind
          simp only [List.find?_range_eq_some, decide_eq_true_eq, List.mem_range] at hfind
          exact absurd ⟨i, hfind.2.1, hfind.1⟩ hno
        · exact (Except.ok.inj h).symm
      · exact (Except.ok.inj h).symm
  · exact (Except.ok.inj h).symm

/-- Unregistering never reports that it has removed something. -/
lemma unregisterFromMessage_fst {c : Option Callback} (h : unregisterFromMessage t p id c = .ok r) :
    r.1 = false := by
  unfold unregisterFromMessage at h
  split at h
  · split at h
    · split at h
      · cases h
      · cases h
      · split at h
        · dsimp only at h
          split at h <;> exact (Except.ok.inj h) ▸ rfl
        · exact (Except.ok.inj h) ▸ rfl
    · exact (Except.ok.inj h) ▸ rfl
  · exact (Except.ok.inj h) ▸ rfl

/-- Unregistering changes at most one entry of a callback vector. -/
lemma unregisterFromMessage_snd {c : Option Callback} (h : unregisterFromMessage t p id c = .ok r) :
    r.2 = p ∨ ∃ i, r.2 = p.setCallback id i none := by
  unfold unregisterFromMessage at h
  split at h
  · split at h
    · split at h
      · cases h
      · cases h
      · split at h
        · dsimp only at h
          split at h
          · exact Or.inr ⟨_, congrArg Prod.snd (Except.ok.inj h).symm⟩
          · exact Or.inl (congrArg Prod.snd (Except.ok.inj h).symm)
        · exact Or.inl (congrArg Prod.snd (Except.ok.inj h).symm)
    · exact Or.inl (congrArg Prod.snd (Except.ok.inj h).symm)
  · exact Or.inl (congrArg Prod.snd (Except.ok.inj h).symm)

/-! ## The invariant -/

/-- The callback vectors are filled from their beginning, and without repetition. -/
structure VectorsOk (t : BufTable) (p : Pump) : Prop where
  differ : p.CallbacksDiffer
  filled : ∀ id i j, i < j → j < maxReceivers → p.callbackVector id j ≠ none →
    p.callbackVector id i ≠ none
  undeclared : ∀ id, t.messageBuffers id = none → ∀ i, p.callbackVector id i = none

/-- The invariant. -/
structure CallbackInv (t : BufTable) (s : Callbacks) : Prop where
  wellFormed : WellFormed t s.state
  vectors : VectorsOk t s.state.pump
  removed : ∀ id callback, s.removed id callback = true → ¬ s.state.pump.Registered id callback
  calledOnce : s.calledNow.Nodup
  /-- what is called for the message is before the entry that comes next -/
  calling : ∀ i, s.state.pc = .calling i → ∀ c ∈ s.calledNow,
    ∃ k < i, s.state.pump.callbackVector c.1 k = some c.2
  set : CallbackSet s

lemma VectorsOk.congr {p' : Pump} (h : VectorsOk t p)
    (heq : p'.callbackVector = p.callbackVector) : VectorsOk t p' := by
  refine ⟨?_, ?_, ?_⟩
  · unfold Pump.CallbacksDiffer
    rw [heq]
    exact h.differ
  · rw [heq]
    exact h.filled
  · rw [heq]
    exact h.undeclared

lemma registered_congr {p' : Pump} (heq : p'.callbackVector = p.callbackVector) (id : MsgId)
    (callback : Callback) : p'.Registered id callback ↔ p.Registered id callback := by
  unfold Pump.Registered
  rw [heq]

lemma not_registered_of_none (h : ∀ i, p.callbackVector id i = none) :
    ¬ p.Registered id callback := by
  rintro ⟨i, -, hi⟩
  rw [h i] at hi
  cases hi

/-! ## A registration -/

section Added
variable {d : BufDescription} {i : ℕ}

/-- Filling an empty entry changes no other one. -/
lemma added_of_some {id' : MsgId} {k : ℕ} {c : Callback} (hfree : p.callbackVector id i = none)
    (hk : p.callbackVector id' k = some c) :
    (p.setCallback id i (some callback)).callbackVector id' k = some c := by
  by_cases hid : id' = id
  · subst hid
    rw [setCallback_callbackVector_self, Function.update_of_ne _, hk]
    rintro rfl
    rw [hfree] at hk
    cases hk
  · rw [setCallback_callbackVector_of_ne hid, hk]

/-- An entry that is filled afterwards was filled before, or is the new one. -/
lemma some_of_added {id' : MsgId} {k : ℕ} {c : Callback}
    (hk : (p.setCallback id i (some callback)).callbackVector id' k = some c) :
    p.callbackVector id' k = some c ∨ (id' = id ∧ k = i ∧ c = callback) := by
  by_cases hid : id' = id
  · subst hid
    rw [setCallback_callbackVector_self] at hk
    by_cases hki : k = i
    · subst hki
      rw [Function.update_self] at hk
      exact Or.inr ⟨rfl, rfl, (Option.some.inj hk).symm⟩
    · rw [Function.update_of_ne hki] at hk
      exact Or.inl hk
  · rw [setCallback_callbackVector_of_ne hid] at hk
    exact Or.inl hk

lemma registered_added (hi : i < maxReceivers) :
    (p.setCallback id i (some callback)).Registered id callback := by
  refine ⟨i, hi, ?_⟩
  rw [setCallback_callbackVector_self, Function.update_self]

/-- A callback that is in no entry is registered once. -/
lemma callbacksDiffer_added (h : p.CallbacksDiffer)
    (hnew : ∀ k < maxReceivers, p.callbackVector id k ≠ some callback) :
    (p.setCallback id i (some callback)).CallbacksDiffer := by
  intro id' a b c ha hb hva hvb
  rcases some_of_added hva with hva' | ⟨rfl, rfl, rfl⟩
  · rcases some_of_added hvb with hvb' | ⟨rfl, rfl, rfl⟩
    · exact h id' a b c ha hb hva' hvb'
    · exact absurd hva' (hnew a ha)
  · rcases some_of_added hvb with hvb' | ⟨-, rfl, -⟩
    · exact absurd hvb' (hnew b hb)
    · rfl

/-- The first empty entry is filled with a callback that is not before it: so it is not in the
vector, which is empty from there on. -/
lemma VectorsOk.added (h : VectorsOk t p) (hd : t.messageBuffers id = some d)
    (hi : i < maxReceivers) (hfree : p.callbackVector id i = none)
    (hbefore : ∀ k < i, p.callbackVector id k ≠ none ∧ p.callbackVector id k ≠ some callback) :
    VectorsOk t (p.setCallback id i (some callback)) := by
  have hnew (k : ℕ) (hk : k < maxReceivers) : p.callbackVector id k ≠ some callback := by
    intro hcallback
    rcases Nat.lt_trichotomy k i with hlt | rfl | hgt
    · exact (hbefore k hlt).2 hcallback
    · rw [hfree] at hcallback
      cases hcallback
    · exact h.filled id i k hgt hk (by simp [hcallback]) hfree
  -- no repetition, no gap, no undeclared message
  refine ⟨callbacksDiffer_added h.differ hnew, ?_, ?_⟩
  · intro id' a b hab hb hvb
    obtain ⟨c, hc⟩ := Option.ne_none_iff_exists'.mp hvb
    have hva : p.callbackVector id' a ≠ none := by
      rcases some_of_added hc with hc | ⟨rfl, rfl, -⟩
      · exact h.filled id' a b hab hb (by simp [hc])
      · exact (hbefore a hab).1
    obtain ⟨c', hc'⟩ := Option.ne_none_iff_exists'.mp hva
    rw [added_of_some hfree hc']
    simp
  · intro id' hnone k
    have hne : id' ≠ id := by
      rintro rfl
      rw [hd] at hnone
      cases hnone
    rw [setCallback_callbackVector_of_ne hne]
    exact h.undeclared id' hnone k

end Added

/-! ## The steps -/

variable {s s' : Callbacks} {data : Elem → List UInt8}

lemma setRemoved_eq_true {removed : MsgId → Callback → Bool} {id id' : MsgId}
    {callback callback' : Callback} {b : Bool}
    (h : setRemoved removed id callback b id' callback' = true) :
    (id' = id ∧ callback' = callback ∧ b = true) ∨
      (¬ (id' = id ∧ callback' = callback) ∧ removed id' callback' = true) := by
  unfold setRemoved at h
  by_cases hid : id' = id
  · subst hid
    rw [Function.update_self] at h
    by_cases hcallback : callback' = callback
    · subst hcallback
      rw [Function.update_self] at h
      exact Or.inl ⟨rfl, rfl, h⟩
    · rw [Function.update_of_ne hcallback] at h
      exact Or.inr ⟨fun hboth => hcallback hboth.2, h⟩
  · rw [Function.update_of_ne hid] at h
    exact Or.inr ⟨fun hboth => hid hboth.1, h⟩

/-- A registration keeps the invariant, and reports whether the callback is registered now. -/
lemma CallbackInv.register (h : CallbackInv t s)
    (hr : RegisterOutcome t s.state.pump id callback r) :
    CallbackInv t { s with
      state := { s.state with pump := r.2 }
      event := some (.registered id callback r.1)
      removed := setRemoved s.removed id callback false } := by
  have hring : SameRing s.state.pump r.2 := by
    cases hr <;> exact ⟨rfl, rfl, rfl, rfl⟩
  have hvectors : VectorsOk t r.2 := by
    cases hr with
    | undeclared | already | noRoom => exact h.vectors
    | added d i hd hi hfree hbefore => exact h.vectors.added hd hi hfree hbefore
  -- no entry is lost, so what was called for the message still is in its vector
  have hgrown (id' : MsgId) (k : ℕ) (c : Callback)
      (hk : s.state.pump.callbackVector id' k = some c) : r.2.callbackVector id' k = some c := by
    cases hr with
    | undeclared | already | noRoom => exact hk
    | added d i hd hi hfree hbefore => exact added_of_some hfree hk
  -- and nothing but the callback is registered now that was not before
  have hold (id' : MsgId) (c : Callback) (hreg : r.2.Registered id' c) :
      s.state.pump.Registered id' c ∨ (id' = id ∧ c = callback) := by
    cases hr with
    | undeclared | already | noRoom => exact Or.inl hreg
    | added d i hd hi hfree hbefore =>
      obtain ⟨k, hk, hc⟩ := hreg
      rcases some_of_added hc with hc | ⟨hid, -, hc⟩
      · exact Or.inl ⟨k, hk, hc⟩
      · exact Or.inr ⟨hid, hc⟩
  have hresult : r.1 = true ↔ r.2.Registered id callback := by
    cases hr with
    | undeclared hnone =>
      simpa using not_registered_of_none (h.vectors.undeclared id hnone)
    | already hreg => simpa using hreg
    | added d i hd hi hfree hbefore => simpa using registered_added hi
    | noRoom hfull =>
      simp only [Bool.false_eq_true, false_iff]
      rintro ⟨i, hi, hreg⟩
      exact (hfull i hi).2 hreg
  refine ⟨h.wellFormed.of_sameRing hring, hvectors, ?_, h.calledOnce, ?_, ?_⟩
  · intro id' c hremoved hreg
    rcases setRemoved_eq_true hremoved with ⟨-, -, hfalse⟩ | ⟨hne, hremoved⟩
    · cases hfalse
    · exact h.removed id' c hremoved ((hold id' c hreg).resolve_right hne)
  · intro i hpc c hc
    obtain ⟨k, hk, hvk⟩ := h.calling i hpc c hc
    exact ⟨k, hk, hgrown _ k _ hvk⟩
  · refine ⟨hvectors.differ, h.calledOnce, ?_, by simp, by simp⟩
    intro id' c success hevent
    simp only [Option.some.injEq, CallbackEvent.registered.injEq] at hevent
    obtain ⟨rfl, rfl, rfl⟩ := hevent
    exact hresult

/-- A call without effect keeps the invariant. -/
lemma CallbackInv.unregister (h : CallbackInv t s) (hno : ¬ s.state.pump.Registered id callback) :
    CallbackInv t { s with
      event := some (.unregistered id callback false
        (decide (s.state.pump.Registered id callback)))
      removed := setRemoved s.removed id callback true } := by
  refine ⟨h.wellFormed, h.vectors, ?_, h.calledOnce, h.calling, ?_⟩
  · intro id' c hremoved
    rcases setRemoved_eq_true hremoved with ⟨rfl, rfl, -⟩ | ⟨-, hremoved⟩
    · exact hno
    · exact h.removed id' c hremoved
  · refine ⟨h.vectors.differ, h.calledOnce, by simp, ?_, by simp⟩
    intro id' c success wasRegistered hevent
    simp only [Option.some.injEq, CallbackEvent.unregistered.injEq] at hevent
    obtain ⟨-, -, rfl, rfl⟩ := hevent
    exact (decide_eq_false hno).symm

/-- What is called before the next step, at the end of a step of the pump. -/
lemma CallbackInv.noCall (h : CallbackInv t s) {state : PumpState} (hwf : WellFormed t state)
    (hvector : state.pump.callbackVector = s.state.pump.callbackVector)
    (hpc : ∀ j, state.pc = .calling j →
      s.state.pc = .waiting ∨ ∃ i ≤ j, s.state.pc = .calling i) :
    CallbackInv t { s with
      state := state, event := none
      calledNow := if s.state.pc = .waiting then [] else s.calledNow } := by
  have hvectors := h.vectors.congr hvector
  have hnodup : (if s.state.pc = .waiting then [] else s.calledNow).Nodup := by
    split
    · exact List.nodup_nil
    · exact h.calledOnce
  refine ⟨hwf, hvectors, ?_, hnodup, ?_, hvectors.differ, hnodup, by simp, by simp, by simp⟩
  · intro id c hremoved
    rw [registered_congr hvector]
    exact h.removed id c hremoved
  · intro j hj c hc
    dsimp only at hc
    -- the list is emptied at the first entry, and kept at the others
    rcases hpc j hj with hwaiting | ⟨i, hij, hcalling⟩
    · rw [if_pos hwaiting] at hc
      simp at hc
    · rw [if_neg (by rw [hcalling]; simp)] at hc
      obtain ⟨k, hk, hvk⟩ := h.calling i hcalling c hc
      rw [hvector]
      exact ⟨k, hk.trans_le hij, hvk⟩

/-- The callback in the next entry is called: it is registered, and it was not called before. -/
lemma CallbackInv.call (h : CallbackInv t s) {i : ℕ} (hpc : s.state.pc = .calling i)
    (hi : i < maxReceivers) (hwf : WellFormed t { s.state with pc := .calling (i + 1) })
    (hcallback : s.state.pump.callbackVector id i = some callback) :
    CallbackInv t { s with
      state := { s.state with pc := .calling (i + 1) }
      event := some (.called id callback)
      calledNow := s.calledNow ++ [(id, callback)] } := by
  have hnew : (id, callback) ∉ s.calledNow := by
    intro hmem
    obtain ⟨k, hk, hvk⟩ := h.calling i hpc _ hmem
    -- it would stand in two entries of the vector
    exact absurd (h.vectors.differ id k i callback (hk.trans hi) hi hvk hcallback) hk.ne
  have hnodup : (s.calledNow ++ [(id, callback)]).Nodup := by
    rw [List.nodup_append]
    refine ⟨h.calledOnce, List.nodup_singleton _, ?_⟩
    intro c hc c' hc' heq
    rw [List.mem_singleton] at hc'
    exact hnew (hc' ▸ heq ▸ hc)
  refine ⟨hwf, h.vectors, h.removed, hnodup, ?_, h.vectors.differ, hnodup, by simp, by simp, ?_⟩
  · intro j hj c hc
    obtain rfl : i + 1 = j := by simpa using hj
    rw [List.mem_append, List.mem_singleton] at hc
    rcases hc with hc | rfl
    · obtain ⟨k, hk, hvk⟩ := h.calling i hpc c hc
      exact ⟨k, hk.trans (Nat.lt_succ_self i), hvk⟩
    · exact ⟨i, Nat.lt_succ_self i, hcallback⟩
  · intro id' c hevent
    simp only [Option.some.injEq, CallbackEvent.called.injEq] at hevent
    obtain ⟨rfl, rfl⟩ := hevent
    by_contra hremoved
    exact h.removed id callback (Bool.eq_true_of_not_eq_false hremoved) ⟨i, hi, hcallback⟩

/-- A step of the pump keeps the invariant. -/
lemma CallbackInv.pump (h : CallbackInv t s) {a : Action} {state : PumpState}
    (hstep : step t s.state a = some state) :
    CallbackInv t { s with
      state := state
      event := (callOf s.state a).map fun c => .called c.id c.callback
      calledNow := (if s.state.pc = .waiting then [] else s.calledNow) ++
        ((callOf s.state a).map fun c => (c.id, c.callback)).toList } := by
  have hvector := step_callbackVector h.wellFormed hstep
  have hwf := h.wellFormed.step hstep
  have hquiet (hcall : callOf s.state a = none)
      (hpc : ∀ j, state.pc = .calling j →
        s.state.pc = .waiting ∨ ∃ i ≤ j, s.state.pc = .calling i) :
      CallbackInv t { s with
        state := state
        event := (callOf s.state a).map fun c => .called c.id c.callback
        calledNow := (if s.state.pc = .waiting then [] else s.calledNow) ++
          ((callOf s.state a).map fun c => (c.id, c.callback)).toList } := by
    rw [hcall]
    simpa using h.noCall hwf hvector hpc
  -- only the dispatcher calls: every other action leaves the list and the event empty
  cases moves_of_step h.wellFormed hstep with
  | post | postUndeclared | getFreeBuffer | getFreeUndeclared | lock | unlock =>
    exact hquiet rfl fun j hj => Or.inr ⟨j, le_rfl, hj⟩
  | dispatch r hdispatch hr =>
    have hcall : callOf s.state .dispatch = r.2 := by
      simp only [callOf, hdispatch]
    cases hr with
    | idle => exact hquiet hcall fun j hj => Or.inr ⟨j, le_rfl, hj⟩
    | start m rest hpc => exact hquiet hcall fun j hj => Or.inl hpc
    | returned | unlock | finish => exact hquiet hcall fun j hj => by cases hj
    -- an empty entry is skipped
    | call m rest i hpc hi hqueue =>
      cases hentry : s.state.pump.callbackVector m.id i with
      | none =>
        rw [hentry] at hcall hquiet
        refine hquiet hcall fun j hj => Or.inr ⟨i, ?_, hpc⟩
        obtain rfl : i + 1 = j := by simpa using hj
        exact Nat.le_succ i
      | some callback =>
        rw [hentry] at hcall
        rw [hcall, if_neg (by rw [hpc]; simp)]
        exact h.call hpc hi hwf hentry

/-- A step that unregisters nothing that is registered keeps the invariant. -/
lemma CallbackInv.step {a : CallbackAction} (h : CallbackInv t s) (hno : NoRemoval s a)
    (hstep : callbackStep t s a = some s') : CallbackInv t s' := by
  cases a with
  | registerOnMessage id callback =>
    simp only [callbackStep] at hstep
    split at hstep
    · rename_i r hr
      obtain rfl := Option.some.inj hstep
      exact h.register (registerOnMessage_outcome hr)
    · cases hstep
  | unregisterFromMessage id callback =>
    have hnot := hno id callback rfl
    simp only [callbackStep] at hstep
    split at hstep
    · rename_i r hr
      obtain rfl := Option.some.inj hstep
      rw [unregisterFromMessage_eq hr hnot]
      exact h.unregister hnot
    · cases hstep
  | pump a =>
    simp only [callbackStep, Option.map_eq_some_iff] at hstep
    obtain ⟨state, hstate, rfl⟩ := hstep
    exact h.pump hstate

/-- A removal is not reported. -/
lemma not_callbackSet_of_removal {a : CallbackAction} (ha : ¬ NoRemoval s a)
    (hstep : callbackStep t s a = some s') : ¬ CallbackSet s' := by
  unfold NoRemoval at ha
  push Not at ha
  obtain ⟨id, callback, rfl, hreg⟩ := ha
  simp only [callbackStep] at hstep
  split at hstep
  · rename_i r hr
    obtain rfl := Option.some.inj hstep
    intro hset
    have hresult := hset.unregistered id callback _ _ rfl
    rw [unregisterFromMessage_fst hr, decide_eq_true hreg] at hresult
    cases hresult
  · cases hstep

lemma callbackInv_start : CallbackInv t (callbacksStart data) := by
  refine ⟨wellFormed_initial _ _, ⟨?_, ?_, fun _ _ _ => rfl⟩, by simp [callbacksStart],
    List.nodup_nil, by simp [callbacksStart], ⟨?_, List.nodup_nil, by simp [callbacksStart],
    by simp [callbacksStart], by simp [callbacksStart]⟩⟩
  · intro id i j callback _ _ hi
    simp [callbacksStart, initial] at hi
  · intro id i j _ _ hj
    exact absurd rfl hj
  · intro id i j callback _ _ hi
    simp [callbacksStart, initial] at hi

/-- In all states of a run the callbacks of the messages are sets, if and only if no step of the run
unregisters a callback that is registered. -/
theorem callbackSet_iff_noRemoval (t : BufTable) (data : Elem → List UInt8)
    (actions : List CallbackAction) (final : Callbacks)
    (hrun : exec (callbackStep t) (callbacksStart data) actions = some final) :
    StatesMeet (callbackStep t) CallbackSet (callbacksStart data) actions ↔
      StepsMeet (callbackStep t) NoRemoval (callbacksStart data) actions := by
  apply statesMeet_iff_stepsMeet (callbackStep t) (CallbackInv t) _ _ _ callbackInv_start hrun
  · intro s h
    exact h.set
  · intro s a s' h hno hstep
    exact h.step hno hstep
  · intro s a s' h ha hstep
    exact not_callbackSet_of_removal ha hstep

/-- Two callbacks are registered, and one of them is called. -/
theorem callbackSet_iff_noRemoval_twoCallbacks :
    StepsMeet (callbackStep firmware) NoRemoval (callbacksStart fun _ => [])
        [.registerOnMessage msgIdUserMotorSwitch 0, .registerOnMessage msgIdUserMotorSwitch 1,
          .pump (.post msgIdUserMotorSwitch ⟨-1, fun _ => 0⟩), .pump .dispatch, .pump .dispatch] ∧
      StatesMeet (callbackStep firmware) CallbackSet (callbacksStart fun _ => [])
        [.registerOnMessage msgIdUserMotorSwitch 0, .registerOnMessage msgIdUserMotorSwitch 1,
          .pump (.post msgIdUserMotorSwitch ⟨-1, fun _ => 0⟩), .pump .dispatch, .pump .dispatch] := by
  have hnone : StepsMeet (callbackStep firmware) NoRemoval (callbacksStart fun _ => [])
      [.registerOnMessage msgIdUserMotorSwitch 0, .registerOnMessage msgIdUserMotorSwitch 1,
        .pump (.post msgIdUserMotorSwitch ⟨-1, fun _ => 0⟩), .pump .dispatch, .pump .dispatch] := by
    rintro pre _ post u heq - id callback rfl
    have hmem : CallbackAction.unregisterFromMessage id callback ∈
        pre ++ .unregisterFromMessage id callback :: post := by simp
    rw [← heq] at hmem
    simp at hmem
  exact ⟨hnone, (callbackSet_iff_noRemoval firmware _ _ _ rfl).mpr hnone⟩

/-- After the first of two callbacks is unregistered, of which nothing is reported, the second can
be registered in its place, and is in the callback vector twice: when it is unregistered, it is still
called. -/
theorem unregistered_callback_is_called :
    ∃ s, exec (callbackStep firmware) (callbacksStart fun _ => [])
        [.registerOnMessage msgIdUserMotorSwitch 0, .registerOnMessage msgIdUserMotorSwitch 1,
          .unregisterFromMessage msgIdUserMotorSwitch 0,
          .registerOnMessage msgIdUserMotorSwitch 1,
          .unregisterFromMessage msgIdUserMotorSwitch 1,
          .pump (.post msgIdUserMotorSwitch ⟨-1, fun _ => 0⟩), .pump .dispatch, .pump .dispatch,
          .pump .dispatch] = some s ∧
      s.event = some (.called msgIdUserMotorSwitch 1) ∧ ¬ CallbackSet s := by
  refine ⟨_, rfl, by decide +kernel, fun hset => ?_⟩
  have hremoved := hset.called msgIdUserMotorSwitch 1 (by decide +kernel)
  revert hremoved
  decide +kernel

end Powerboard.MsgPump
