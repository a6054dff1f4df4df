import Powerboard.Library.Machine
import Powerboard.MsgPump.Firmware
import Powerboard.MsgPump.PumpTheorems

/-!
# Queued elements

The message pump with clients that call its functions with any pointers at any time. What is queued
and not yet dispatched (`PumpState.pending`) stays different from each other and keeps a flag, as
long as no client posts an element that is pending.
-/

namespace Powerboard.MsgPump

open Machine

/-- What clients and the loop of the pump can do. -/
inductive Action
  | post (id : MsgId) (messageToPost : Pointer)
  | getFreeBuffer (id : MsgId)
  | lock (e : Elem)
  | unlock (e : Elem)
  | dispatch

/-- The state after the action, if it has no undefined behaviour. -/
def step (t : BufTable) (s : PumpState) : Action → Option PumpState
  | .post id ptr =>
    match postMessage t s.pump id (some ptr) with
    | .ok r => some { s with pump := r.2 }
    | .error _ => none
  | .getFreeBuffer id =>
    match MsgPump.getFreeBuffer t s.pump id with
    | .ok r => some { s with pump := r.2 }
    | .error _ => none
  | .lock e => some { s with pump := (lockMessage s.pump (some e)).2 }
  | .unlock e => some { s with pump := (unlockMessage s.pump (some e)).2 }
  | .dispatch =>
    match MsgPump.dispatch s with
    | .ok r => some r.1
    | .error _ => none

/-- The queue entries that are not yet dispatched: the one at the front is when its callbacks have
returned and its flag is cleared. -/
def PumpState.pendingEntries (s : PumpState) : List QueueEntry :=
  match s.pc with
  | .waiting | .calling _ => s.pump.queue
  | .cleared | .unlocked => s.pump.queue.tail

/-- The elements that are queued and not yet dispatched. -/
def PumpState.pending (s : PumpState) : List Elem := s.pendingEntries.filterMap (·.buffer)

/-- Each element is queued at most once, and no queued element is free. -/
def QueuedNotFree (s : PumpState) : Prop :=
  s.pending.Nodup ∧
    ∀ e ∈ s.pending, ¬ ((s.pump.header e).refCnt = 0 ∧ (s.pump.header e).flags = .nothing)

instance : DecidablePred QueuedNotFree := fun _ => inferInstanceAs (Decidable (_ ∧ _))

/-- The action does not post an element that is queued, unless the queue is full. -/
def NoRepost (t : BufTable) (s : PumpState) (a : Action) : Prop :=
  ∀ id ptr d i, a = .post id ptr → t.messageBuffers id = some d → d.PointsTo ptr i →
    ¬ s.pump.Full → (⟨id, i⟩ : Elem) ∉ s.pending

/-- The invariant: queued elements are different and have a flag. -/
structure QueueInv (t : BufTable) (s : PumpState) : Prop where
  wellFormed : WellFormed t s
  nodup : s.pending.Nodup
  flags : ∀ e ∈ s.pending, (s.pump.header e).flags ≠ .nothing

variable {t : BufTable} {s s' : PumpState} {d : BufDescription} {id : MsgId} {ptr : Pointer}

lemma QueueInv.queuedNotFree (h : QueueInv t s) : QueuedNotFree s :=
  ⟨h.nodup, fun e he hfree => h.flags e he hfree.2⟩

/-! ## What is pending after an operation -/

lemma pendingEntries_of_sameRing {p' : Pump} (h : SameRing s.pump p') :
    PumpState.pendingEntries { s with pump := p' } = s.pendingEntries := by
  unfold PumpState.pendingEntries
  rw [h.queue]

lemma pending_of_sameRing {p' : Pump} (h : SameRing s.pump p') :
    PumpState.pending { s with pump := p' } = s.pending := by
  unfold PumpState.pending
  rw [pendingEntries_of_sameRing h]

lemma pendingEntries_enqueue {p' : Pump} {m : QueueEntry} (h : WellFormed t s)
    (hring : SameRing s.pump p') (hroom : ¬ s.pump.Full) :
    PumpState.pendingEntries { s with pump := p'.enqueue m } = s.pendingEntries ++ [m] := by
  unfold PumpState.pendingEntries
  cases hpc : s.pc with
  | waiting | calling => exact h.queue_enqueue hring hroom
  | cleared | unlocked => exact h.tail_queue_enqueue hring hroom (by rw [hpc]; simp)

lemma pending_enqueue {p' : Pump} {m : QueueEntry} (h : WellFormed t s)
    (hring : SameRing s.pump p') (hroom : ¬ s.pump.Full) :
    PumpState.pending { s with pump := p'.enqueue m } = s.pending ++ m.buffer.toList := by
  unfold PumpState.pending
  rw [pendingEntries_enqueue h hring hroom, List.filterMap_append]
  cases hm : m.buffer <;> simp [hm]

/-- A step of the loop leaves what is pending, or takes the message at the front from it. -/
lemma pendingEntries_dispatch {r : PumpState × Option Call} (h : WellFormed t s)
    (hr : DispatchOutcome t s r) :
    r.1.pendingEntries = s.pendingEntries ∨
      ∃ m, s.pc = .calling maxReceivers ∧ r.1.pc = .cleared ∧
        r.1.pump = setBufferFlag s.pump m.buffer .nothing ∧
        s.pendingEntries = m :: r.1.pendingEntries := by
  unfold PumpState.pendingEntries
  cases hr with
  | idle => exact Or.inl rfl
  | start m rest hpc hqueue =>
    left
    rw [hpc]
    exact (sameRing_setBufferFlag _ _).queue
  | call m rest i hpc hi hqueue =>
    left
    rw [hpc]
  | returned m rest hpc hqueue =>
    right
    refine ⟨m, hpc, rfl, rfl, ?_⟩
    rw [hpc, (sameRing_setBufferFlag m.buffer .nothing).queue, hqueue, List.tail_cons]
  | unlock m rest hpc hqueue =>
    left
    rw [hpc]
    exact congrArg List.tail (sameRing_unlockMessage _).queue
  | finish m rest hpc hqueue =>
    left
    rw [hpc]
    exact Pump.queue_advance (h.busy (by rw [hpc]; simp))

/-! ## The steps -/

/-- Outside the pool elements that are pending, headers may change. -/
lemma QueueInv.of_header {p' : Pump} (h : QueueInv t s) (hring : SameRing s.pump p')
    (hheader : ∀ e ∈ s.pending, (p'.header e).flags ≠ .nothing) :
    QueueInv t { s with pump := p' } :=
  ⟨h.wellFormed.of_sameRing hring, by rw [pending_of_sameRing hring]; exact h.nodup,
    by rw [pending_of_sameRing hring]; exact hheader⟩

lemma QueueInv.setHeader (h : QueueInv t s) {e : Elem} {header : MsgHeader}
    (he : e ∉ s.pending ∨ header.flags ≠ .nothing) :
    QueueInv t { s with pump := s.pump.setHeader e header } := by
  apply h.of_header (sameRing_setHeader _ _)
  intro e' he'
  rw [Pump.setHeader_header]
  by_cases heq : e' = e
  · subst heq
    rw [Function.update_self]
    exact he.resolve_left fun hnot => hnot he'
  · rw [Function.update_of_ne heq]
    exact h.flags e' he'

/-- A new element with a flag can be queued. -/
lemma QueueInv.enqueue (h : QueueInv t s) {p' : Pump} {i : ℕ} (hring : SameRing s.pump p')
    (hroom : ¬ s.pump.Full) (hd : t.messageBuffers id = some d) (hi : i < d.msgAmount)
    (hnew : (⟨id, i⟩ : Elem) ∉ s.pending)
    (hheader : p'.header = Function.update s.pump.header ⟨id, i⟩ .posted) :
    QueueInv t { s with pump := p'.enqueue (entryOf d ⟨id, i⟩) } := by
  have hpending := pending_enqueue (m := entryOf d ⟨id, i⟩) h.wellFormed hring hroom
  refine ⟨h.wellFormed.enqueue hring hroom (entryOk_entryOf hd hi), ?_, ?_⟩
  · rw [hpending]
    apply List.Nodup.append h.nodup (List.nodup_singleton _)
    intro e he hnew'
    rw [List.mem_singleton] at hnew'
    exact hnew (hnew' ▸ he)
  · intro e he
    rw [hpending, entryOf_buffer, Option.toList_some, List.mem_append, List.mem_singleton] at he
    show (p'.header e).flags ≠ .nothing
    rw [hheader]
    by_cases heq : e = ⟨id, i⟩
    · rw [heq, Function.update_self]
      decide
    · rw [Function.update_of_ne heq]
      exact h.flags e (he.resolve_right heq)

lemma QueueInv.not_pending_of_free (h : QueueInv t s) {e : Elem} (he : s.pump.header e = .free) :
    e ∉ s.pending := by
  intro hmem
  apply h.flags e hmem
  rw [he]
  rfl

lemma QueueInv.post {r : Bool × Pump} (h : QueueInv t s) (hd : t.messageBuffers id = some d)
    (hno : ∀ i, d.PointsTo ptr i → ¬ s.pump.Full → (⟨id, i⟩ : Elem) ∉ s.pending)
    (hr : PostOutcome d s.pump id ptr r) : QueueInv t { s with pump := r.2 } := by
  cases hr with
  | full => exact h
  | misaligned => exact h
  | noneFree => exact h
  | reserved i hroom hptr =>
    exact h.enqueue (sameRing_setHeader _ _) hroom hd hptr.1 (hno i hptr hroom) rfl
  | recovered i hroom hptr => exact h.setHeader (Or.inl (hno i hptr hroom))
  | copied i hroom _ hi hheader =>
    exact h.enqueue ((sameRing_setHeader _ _).trans (sameRing_setData _ _)) hroom hd hi
      (h.not_pending_of_free hheader) rfl

lemma QueueInv.getFreeBuffer {r : Option Elem × Pump} (h : QueueInv t s)
    (hr : GetFreeOutcome d s.pump id r) : QueueInv t { s with pump := r.2 } := by
  cases hr with
  | noneFree => exact h
  | reserved i _ hheader => exact h.setHeader (Or.inl (h.not_pending_of_free hheader))

lemma lockMessage_flags (p : Pump) (e e' : Elem) :
    ((lockMessage p (some e)).2.header e').flags = (p.header e').flags := by
  unfold lockMessage
  dsimp only
  split
  · by_cases heq : e' = e
    · rw [heq]
      simp [Pump.setHeader]
    · simp [Pump.setHeader, heq]
  · rfl

lemma unlockMessage_flags (p : Pump) (e : Option Elem) (e' : Elem) :
    ((unlockMessage p e).2.header e').flags = (p.header e').flags := by
  cases e with
  | none => rfl
  | some e =>
    unfold unlockMessage
    dsimp only
    split
    · by_cases heq : e' = e
      · rw [heq]
        simp [Pump.setHeader]
      · simp [Pump.setHeader, heq]
    · rfl

/-- Clearing the flag of the message at the front takes it off what is pending. -/
lemma pendingEntries_returned_ne {m : QueueEntry} {rest : List QueueEntry}
    (hpc : s.pc = .calling maxReceivers) (hqueue : s.pump.queue = m :: rest) :
    PumpState.pendingEntries ⟨setBufferFlag s.pump m.buffer .nothing, .cleared⟩ ≠
      s.pendingEntries := by
  intro hsame
  have hlen := congrArg List.length hsame
  unfold PumpState.pendingEntries at hlen
  rw [hpc] at hlen
  rw [(sameRing_setBufferFlag m.buffer .nothing).queue, hqueue] at hlen
  simp at hlen

lemma QueueInv.dispatch {r : PumpState × Option Call} (h : QueueInv t s)
    (hr : DispatchOutcome t s r) : QueueInv t r.1 := by
  have hwf := h.wellFormed.dispatch hr
  rcases pendingEntries_dispatch h.wellFormed hr with hsame | ⟨m, hpc, hpc', hpump, hcons⟩
  · have hpending : r.1.pending = s.pending := by rw [PumpState.pending, hsame, PumpState.pending]
    refine ⟨hwf, by rw [hpending]; exact h.nodup, ?_⟩
    intro e he
    rw [hpending] at he
    have hflags := h.flags e he
    cases hr with
    | idle => exact hflags
    | start m rest hpc hqueue =>
      -- the flag of the message at the front is set to `inUse`
      show ((setBufferFlag s.pump m.buffer .inUse).header e).flags ≠ .nothing
      cases hm : m.buffer with
      | none => exact hflags
      | some b =>
        show ((s.pump.setHeader b _).header e).flags ≠ .nothing
        by_cases heq : e = b
        · simp [heq]
        · simpa [heq] using hflags
    | call => exact hflags
    | returned m rest hpc hqueue => exact absurd hsame (pendingEntries_returned_ne hpc hqueue)
    | unlock m rest hpc hqueue =>
      show ((unlockMessage s.pump m.buffer).2.header e).flags ≠ .nothing
      rw [unlockMessage_flags]
      exact hflags
    | finish => exact hflags
  · have hnodup := h.nodup
    have hflags := h.flags
    unfold PumpState.pending at hnodup hflags
    rw [hcons] at hnodup hflags
    have hrest : r.1.pending = r.1.pendingEntries.filterMap (·.buffer) := rfl
    cases hm : m.buffer with
    | none =>
      rw [List.filterMap_cons_none hm, ← hrest] at hnodup hflags
      refine ⟨hwf, hnodup, ?_⟩
      intro e he
      rw [hpump, hm]
      exact hflags e he
    | some b =>
      -- the element whose flag is cleared is no longer pending, and was pending only once
      rw [List.filterMap_cons_some hm, ← hrest] at hnodup hflags
      rw [List.nodup_cons] at hnodup
      refine ⟨hwf, hnodup.2, ?_⟩
      intro e he
      have hne : e ≠ b := fun heq => hnodup.1 (heq ▸ he)
      rw [hpump, hm]
      show ((s.pump.setHeader b _).header e).flags ≠ .nothing
      rw [Pump.setHeader_header, Function.update_of_ne hne]
      exact hflags e (List.mem_cons_of_mem b he)

/-- Everything that a step can do in a well-formed state. -/
inductive Moves (t : BufTable) (s : PumpState) : Action → PumpState → Prop
  | post (id : MsgId) (ptr : Pointer) (d : BufDescription) (r : Bool × Pump)
      (hd : t.messageBuffers id = some d) (hr : PostOutcome d s.pump id ptr r) :
      Moves t s (.post id ptr) { s with pump := r.2 }
  | postUndeclared (id : MsgId) (ptr : Pointer) : Moves t s (.post id ptr) s
  | getFreeBuffer (id : MsgId) (d : BufDescription) (r : Option Elem × Pump)
      (hr : GetFreeOutcome d s.pump id r) : Moves t s (.getFreeBuffer id) { s with pump := r.2 }
  | getFreeUndeclared (id : MsgId) : Moves t s (.getFreeBuffer id) s
  | lock (e : Elem) : Moves t s (.lock e) { s with pump := (lockMessage s.pump (some e)).2 }
  | unlock (e : Elem) : Moves t s (.unlock e) { s with pump := (unlockMessage s.pump (some e)).2 }
  | dispatch (r : PumpState × Option Call) (hdispatch : MsgPump.dispatch s = .ok r)
      (hr : DispatchOutcome t s r) : Moves t s .dispatch r.1

lemma moves_of_step {a : Action} (hwf : WellFormed t s) (h : step t s a = some s') :
    Moves t s a s' := by
  cases a with
  | post id ptr =>
    unfold step at h
    cases hpost : postMessage t s.pump id (some ptr) with
    | error fault => simp [hpost] at h
    | ok r =>
      simp only [hpost] at h
      obtain rfl := Option.some.inj h
      rcases postMessage_cases hpost with ⟨d, hd, hr⟩ | rfl
      · exact .post id ptr d r hd hr
      · exact .postUndeclared id ptr
  | getFreeBuffer id =>
    unfold step at h
    cases hget : getFreeBuffer t s.pump id with
    | error fault => simp [hget] at h
    | ok r =>
      simp only [hget] at h
      obtain rfl := Option.some.inj h
      rcases getFreeBuffer_cases hget with ⟨d, -, hr⟩ | rfl
      · exact .getFreeBuffer id d r hr
      · exact .getFreeUndeclared id
  | lock e => exact Option.some.inj h ▸ .lock e
  | unlock e => exact Option.some.inj h ▸ .unlock e
  | dispatch =>
    obtain ⟨r, hdispatch, hr⟩ := dispatch_outcome hwf
    simp only [step, hdispatch] at h
    exact Option.some.inj h ▸ .dispatch r hdispatch hr

/-- No step of the pump and its clients leaves a well-formed state. -/
lemma WellFormed.step {a : Action} (h : WellFormed t s) (hstep : MsgPump.step t s a = some s') :
    WellFormed t s' := by
  cases moves_of_step h hstep with
  | post id ptr d r hd hr => exact h.post hd hr
  | getFreeBuffer id d r hr => exact h.of_sameRing hr.sameRing
  | lock e => exact h.of_sameRing (sameRing_lockMessage _)
  | unlock e => exact h.of_sameRing (sameRing_unlockMessage _)
  | dispatch r _ hr => exact h.dispatch hr
  | postUndeclared | getFreeUndeclared => exact h

/-- No step of the pump and its clients registers a callback. -/
lemma step_callbackVector {a : Action} (h : WellFormed t s)
    (hstep : MsgPump.step t s a = some s') : s'.pump.callbackVector = s.pump.callbackVector := by
  cases moves_of_step h hstep with
  | post id ptr d r hd hr => exact hr.callbackVector
  | getFreeBuffer id d r hr => exact hr.callbackVector
  | lock e => exact lockMessage_callbackVector _
  | unlock e => exact unlockMessage_callbackVector _
  | dispatch r _ hr => exact hr.callbackVector
  | postUndeclared | getFreeUndeclared => rfl

/-- Every step that posts no queued element keeps the invariant. -/
lemma QueueInv.step {a : Action} (h : QueueInv t s) (ha : NoRepost t s a)
    (hstep : MsgPump.step t s a = some s') : QueueInv t s' := by
  cases moves_of_step h.wellFormed hstep with
  | post id ptr d r hd hr => exact h.post hd (fun i => ha id ptr d i rfl hd) hr
  | getFreeBuffer id d r hr => exact h.getFreeBuffer hr
  | postUndeclared | getFreeUndeclared => exact h
  | lock e =>
    apply h.of_header (sameRing_lockMessage _)
    intro e' he'
    rw [lockMessage_flags]
    exact h.flags e' he'
  | unlock e =>
    apply h.of_header (sameRing_unlockMessage _)
    intro e' he'
    rw [unlockMessage_flags]
    exact h.flags e' he'
  | dispatch r _ hr => exact h.dispatch hr

/-- A post of a queued element queues it again or frees it. -/
lemma QueueInv.not_of_repost {a : Action} (h : QueueInv t s) (ha : ¬ NoRepost t s a)
    (hstep : MsgPump.step t s a = some s') : ¬ QueuedNotFree s' := by
  unfold NoRepost at ha
  push Not at ha
  obtain ⟨id, ptr, d, i, rfl, hd, hptr, hroom, hmem⟩ := ha
  obtain ⟨r, hpost, hr⟩ := postMessage_outcome s.pump ptr hd
  simp only [MsgPump.step, hpost] at hstep
  obtain rfl := Option.some.inj hstep
  rintro ⟨hnodup, hnotfree⟩
  cases hr with
  | full hfull => exact hroom hfull
  | misaligned _ _ hno => exact hno i hptr
  | noneFree _ hout => exact hout hptr.tests.1
  | copied _ _ hout => exact hout hptr.tests.1
  | reserved j _ hptr' =>
    -- the post succeeds, and the element is in the queue twice
    have hij := hptr.unique hptr'
    subst hij
    rw [pending_enqueue h.wellFormed (sameRing_setHeader _ _) hroom, entryOf_buffer,
      Option.toList_some] at hnodup
    exact (List.nodup_append.mp hnodup).2.2 _ hmem _ (List.mem_singleton_self _) rfl
  | recovered j _ hptr' =>
    -- the post fails, and frees the element
    have hij := hptr.unique hptr'
    subst hij
    rw [pending_of_sameRing (sameRing_setHeader _ _)] at hnotfree
    apply hnotfree _ hmem
    simp [MsgHeader.free]

/-! ## The result -/

lemma queueInv_initial (callbackVector : MsgId → ℕ → Option Callback) (data : Elem → List UInt8) :
    QueueInv t (initial callbackVector data) := by
  have hpending : (initial callbackVector data).pending = [] := rfl
  refine ⟨wellFormed_initial _ _, ?_, ?_⟩
  · rw [hpending]
    exact List.nodup_nil
  · simp [hpending]

/-- For every run from the start, with any calls of the functions of the message pump at any time:
in all its states each element is queued at most once and no queued element is free, if and only if
in no step an element is posted that is queued while the queue is not full. -/
theorem queuedNotFree_iff_noRepost (t : BufTable) (callbackVector : MsgId → ℕ → Option Callback)
    (data : Elem → List UInt8) (actions : List Action) (final : PumpState)
    (hrun : exec (step t) (initial callbackVector data) actions = some final) :
    StatesMeet (step t) QueuedNotFree (initial callbackVector data) actions ↔
      StepsMeet (step t) (NoRepost t) (initial callbackVector data) actions := by
  apply statesMeet_iff_stepsMeet (step t) (QueueInv t) _ _ _ (queueInv_initial _ _) hrun
  · intro s h
    exact h.queuedNotFree
  · intro s a s' h ha hstep
    exact h.step ha hstep
  · intro s a s' h ha hstep
    exact h.not_of_repost ha hstep

/-- A pointer to the first element of the pool of power states. -/
def powerStatePointer : Pointer := { ptrOffset := 8, bytes := fun _ => 0 }

/-- The first power state is reserved, posted, and being dispatched. -/
def dispatchPowerState : List Action :=
  [.getFreeBuffer msgIdSystemPowerState, .post msgIdSystemPowerState powerStatePointer, .dispatch]

theorem queuedNotFree_iff_noRepost_powerState :
    StatesMeet (step firmware) QueuedNotFree (initial (fun _ _ => none) fun _ => [])
        dispatchPowerState ∧
      StepsMeet (step firmware) (NoRepost firmware) (initial (fun _ _ => none) fun _ => [])
        dispatchPowerState := by
  have hqueued : StatesMeet (step firmware) QueuedNotFree
      (initial (fun _ _ => none) fun _ => []) dispatchPowerState := by decide +kernel
  exact ⟨hqueued, (queuedNotFree_iff_noRepost firmware _ _ dispatchPowerState _ rfl).mp hqueued⟩

/-- A callback that posts the element it was called with queues it a second time. -/
theorem repost_in_callback_queues_twice :
    ∃ s, exec (step firmware) (initial (fun _ _ => none) fun _ => [])
        (dispatchPowerState ++ [.post msgIdSystemPowerState powerStatePointer]) = some s ∧
      s.pending = [⟨msgIdSystemPowerState, 0⟩, ⟨msgIdSystemPowerState, 0⟩] ∧
      ¬ QueuedNotFree s := by
  refine ⟨_, rfl, by decide +kernel, ?_⟩
  rintro ⟨hnodup, -⟩
  revert hnodup
  decide +kernel

end Powerboard.MsgPump
