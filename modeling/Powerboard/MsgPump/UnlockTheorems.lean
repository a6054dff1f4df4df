import Powerboard.MsgPump.QueueTheorems

/-!
# Elements that are given back

"A Message is considered to be free if the amount of unlocks is equal to the amount of locks." The
functions that look for a free element also look at its flag, and `msgPump_unlockMessage` leaves the
flag as it is. Only the loop of the pump clears it. An element that is unlocked for the last time
without having been dispatched stays in use for ever.
-/

namespace Powerboard.MsgPump

open Machine

/-! ## The history of an element -/

inductive HistoryAction
  | pump (a : Action)
  /-- a message without data is posted -/
  | postNull (id : MsgId)

def historyStep (t : BufTable) (s : PumpState) : HistoryAction → Option PumpState
  | .pump a => step t s a
  | .postNull id =>
    match postMessage t s.pump id none with
    | .ok r => some { s with pump := r.2 }
    | .error _ => none

/-- An element of a declared pool. -/
def BufTable.Declared (t : BufTable) (e : Elem) : Prop :=
  ∃ d, t.messageBuffers e.id = some d ∧ e.index < d.msgAmount

instance (t : BufTable) : DecidablePred t.Declared := fun e =>
  decidable_of_iff ((t.messageBuffers e.id).any fun d => e.index < d.msgAmount)
    (by simp [BufTable.Declared, Option.any_eq_true])

/-- An element that is neither queued nor being dispatched, and to which there is no reference, is
free. -/
def UnlockedFree (t : BufTable) (s : PumpState) : Prop :=
  ∀ e, t.Declared e → e ∉ s.pending → (s.pump.header e).refCnt = 0 → (s.pump.header e).IsFree

/-- The step unlocks the element: a client does, or the loop of the pump after the callbacks. -/
def Unlocks (s : PumpState) : HistoryAction → Elem → Prop
  | .pump (.unlock e'), e => e' = e
  | .pump .dispatch, e =>
    s.pc = .cleared ∧ (s.pump.msgQueue s.pump.msgQueueFront).buffer = some e
  | _, _ => False

/-- The step does not take the last reference to an element that is marked as in use, unless it is
queued or being dispatched. -/
def NotAbandoned (t : BufTable) (s : PumpState) (a : HistoryAction) : Prop :=
  ∀ e, t.Declared e → Unlocks s a e → e ∉ s.pending → (s.pump.header e).refCnt = 1 →
    (s.pump.header e).flags = .nothing

instance (t : BufTable) (s : PumpState) : DecidablePred (NotAbandoned t s)
  | .pump (.unlock e) =>
    decidable_of_iff (t.Declared e → e ∉ s.pending → (s.pump.header e).refCnt = 1 →
      (s.pump.header e).flags = .nothing)
      ⟨fun h _ hdeclared hunlocks => by cases hunlocks; exact h hdeclared,
        fun h hdeclared => h e hdeclared rfl⟩
  | .pump .dispatch =>
    decidable_of_iff (s.pc = .cleared → ∀ e ∈ (s.pump.msgQueue s.pump.msgQueueFront).buffer,
      t.Declared e → e ∉ s.pending → (s.pump.header e).refCnt = 1 →
        (s.pump.header e).flags = .nothing)
      ⟨fun h e hdeclared hunlocks => h hunlocks.1 e hunlocks.2 hdeclared,
        fun h hpc e he hdeclared => h e hdeclared ⟨hpc, he⟩⟩
  | .pump (.post _ _) | .pump (.getFreeBuffer _) | .pump (.lock _) | .postNull _ =>
    isTrue fun _ _ hunlocks => hunlocks.elim

variable {t : BufTable} {s s' : PumpState} {d : BufDescription} {id : MsgId} {ptr : Pointer}
  {e : Elem} {header : MsgHeader} {p p' : Pump} {pending : List Elem}

/-! ## The headers -/

/-- What the headers keep: an element without reference and without place in the queue has no
flag. -/
structure HeadersOk (t : BufTable) (p : Pump) (pending : List Elem) : Prop where
  magic : ∀ e, (p.header e).headerMagic = MsgPump.magic
  usable : ∀ e, (p.header e).flags ≠ .bufferNotUsable
  unreferenced : ∀ e, t.Declared e → e ∉ pending → (p.header e).refCnt = 0 →
    (p.header e).flags = .nothing

lemma HeadersOk.congr (h : HeadersOk t p pending) (hheader : p'.header = p.header) :
    HeadersOk t p' pending :=
  ⟨hheader ▸ h.magic, hheader ▸ h.usable, hheader ▸ h.unreferenced⟩

lemma HeadersOk.setHeader (h : HeadersOk t p pending) (hmagic : header.headerMagic = MsgPump.magic)
    (husable : header.flags ≠ .bufferNotUsable)
    (hunreferenced : t.Declared e → e ∉ pending → header.refCnt = 0 → header.flags = .nothing) :
    HeadersOk t (p.setHeader e header) pending := by
  constructor <;> intro e' <;> rw [Pump.setHeader_header] <;> by_cases heq : e' = e
  · rwa [heq, Function.update_self]
  · rw [Function.update_of_ne heq]
    exact h.magic e'
  · rwa [heq, Function.update_self]
  · rw [Function.update_of_ne heq]
    exact h.usable e'
  · rw [heq, Function.update_self]
    exact hunreferenced
  · rw [Function.update_of_ne heq]
    exact h.unreferenced e'

/-- More elements may be queued. -/
lemma HeadersOk.mono {pending' : List Elem} (h : HeadersOk t p pending)
    (hpending : ∀ e ∈ pending, e ∈ pending') : HeadersOk t p pending' :=
  ⟨h.magic, h.usable, fun e hd he => h.unreferenced e hd fun hmem => he (hpending e hmem)⟩

/-- An element may leave the queue when its flag is cleared. -/
lemma HeadersOk.pop (h : HeadersOk t p (e :: pending)) (he : (p.header e).flags = .nothing) :
    HeadersOk t p pending := by
  refine ⟨h.magic, h.usable, fun e' hd he' hrefCnt => ?_⟩
  by_cases heq : e' = e
  · rw [heq, he]
  · exact h.unreferenced e' hd (by simp [heq, he']) hrefCnt

lemma HeadersOk.lock (h : HeadersOk t p pending) (e : Elem) :
    HeadersOk t (lockMessage p (some e)).2 pending := by
  unfold lockMessage
  dsimp only
  split
  · exact h.setHeader (h.magic e) (h.usable e) fun _ _ hzero => absurd hzero (Nat.succ_ne_zero _)
  · exact h

/-- An unlock of an element with a reference. -/
lemma HeadersOk.unlockMessage_eq (h : HeadersOk t p pending) (hpos : 0 < (p.header e).refCnt) :
    unlockMessage p (some e) =
      (true, p.setHeader e { p.header e with refCnt := (p.header e).refCnt - 1 }) :=
  if_pos ⟨hpos, h.usable e, h.magic e⟩

lemma HeadersOk.unlock (h : HeadersOk t p pending)
    (hlast : t.Declared e → e ∉ pending → (p.header e).refCnt = 1 →
      (p.header e).flags = .nothing) :
    HeadersOk t (unlockMessage p (some e)).2 pending := by
  by_cases hpos : 0 < (p.header e).refCnt
  · rw [h.unlockMessage_eq hpos]
    -- the count is zero afterwards only if this reference was the last
    refine h.setHeader (h.magic e) (h.usable e) fun hd he hzero => hlast hd he ?_
    have hzero : (p.header e).refCnt - 1 = 0 := hzero
    omega
  · have hkeep : unlockMessage p (some e) = (false, p) := if_neg fun hall => hpos hall.1
    rwa [hkeep]

lemma HeadersOk.setBufferFlag (h : HeadersOk t p pending) (he : e ∈ pending) (flag : Flag)
    (husable : flag ≠ .bufferNotUsable) :
    HeadersOk t (setBufferFlag p (some e) flag) pending :=
  h.setHeader (h.magic e) husable fun _ hnot => absurd he hnot

/-! ## The steps -/

/-- The headers of a well-formed state. -/
structure UnlockInv (t : BufTable) (s : PumpState) : Prop where
  wellFormed : WellFormed t s
  headers : HeadersOk t s.pump s.pending

lemma UnlockInv.unlockedFree (h : UnlockInv t s) : UnlockedFree t s :=
  fun e hd he hzero => ⟨hzero, h.headers.magic e, h.headers.unreferenced e hd he hzero⟩

/-- The headers change, and the queue does not. -/
lemma UnlockInv.of_sameRing (h : UnlockInv t s) (hring : SameRing s.pump p')
    (hheaders : HeadersOk t p' s.pending) : UnlockInv t { s with pump := p' } :=
  ⟨h.wellFormed.of_sameRing hring, by rwa [pending_of_sameRing hring]⟩

/-- A message is queued, with an element that has a reference now. -/
lemma UnlockInv.enqueue (h : UnlockInv t s) (hring : SameRing s.pump p')
    (hroom : ¬ s.pump.Full) {m : QueueEntry} (hm : EntryOk t m)
    (hheaders : HeadersOk t p' (s.pending ++ m.buffer.toList)) :
    UnlockInv t { s with pump := p'.enqueue m } := by
  refine ⟨h.wellFormed.enqueue hring hroom hm, ?_⟩
  rw [pending_enqueue h.wellFormed hring hroom]
  exact hheaders.congr rfl

lemma UnlockInv.post {r : Bool × Pump} (h : UnlockInv t s) (hd : t.messageBuffers id = some d)
    (hr : PostOutcome d s.pump id ptr r) : UnlockInv t { s with pump := r.2 } := by
  have hposted (i : ℕ) : HeadersOk t (s.pump.setHeader ⟨id, i⟩ .posted) s.pending :=
    h.headers.setHeader rfl (by decide) fun _ _ hzero => absurd hzero Nat.one_ne_zero
  cases hr with
  | full | misaligned | noneFree => exact h
  | recovered i =>
    exact h.of_sameRing (sameRing_setHeader _ _)
      (h.headers.setHeader rfl (by decide) fun _ _ _ => rfl)
  | reserved i hroom hptr =>
    exact h.enqueue (sameRing_setHeader _ _) hroom (entryOk_entryOf hd hptr.1)
      ((hposted i).mono fun _ => List.mem_append_left _)
  | copied i hroom _ hi =>
    refine h.enqueue ((sameRing_setHeader _ _).trans (sameRing_setData _ _)) hroom
      (entryOk_entryOf hd hi) ?_
    refine HeadersOk.mono ?_ fun _ => List.mem_append_left _
    exact (hposted i).congr rfl

lemma UnlockInv.getFreeBuffer {r : Option Elem × Pump} (h : UnlockInv t s)
    (hr : GetFreeOutcome d s.pump id r) : UnlockInv t { s with pump := r.2 } := by
  cases hr with
  | noneFree => exact h
  | reserved i =>
    exact h.of_sameRing (sameRing_setHeader _ _)
      (h.headers.setHeader rfl (by decide) fun _ _ hzero => absurd hzero Nat.one_ne_zero)

/-- A step of the loop of the pump. -/
lemma UnlockInv.dispatch {r : PumpState × Option Call} (h : UnlockInv t s)
    (ha : NotAbandoned t s (.pump .dispatch)) (hr : DispatchOutcome t s r) :
    UnlockInv t r.1 := by
  refine ⟨h.wellFormed.dispatch hr, ?_⟩
  rcases pendingEntries_dispatch h.wellFormed hr with hsame | ⟨m, hpc, hpc', hpump, hcons⟩
  · have hpending : r.1.pending = s.pending := by rw [PumpState.pending, hsame, PumpState.pending]
    rw [hpending]
    cases hr with
    | idle | call | finish => exact h.headers.congr rfl
    | start m rest hpc hqueue =>
      cases hm : m.buffer with
      | none => exact h.headers.congr rfl
      | some e =>
        -- the element at the front is still pending
        have he : e ∈ s.pending := by
          refine List.mem_filterMap.mpr ⟨m, ?_, hm⟩
          simp [PumpState.pendingEntries, hpc, hqueue]
        exact h.headers.setBufferFlag he .inUse (by decide)
    | returned m rest hpc hqueue => exact absurd hsame (pendingEntries_returned_ne hpc hqueue)
    | unlock m rest hpc hqueue =>
      cases hm : m.buffer with
      | none => exact h.headers
      | some e =>
        have hfront := h.wellFormed.ring.front_eq hqueue
        exact h.headers.unlock fun hd he => ha e hd ⟨hpc, hfront ▸ hm⟩ he
  · rw [hpump]
    have hheaders := h.headers
    have hrest : r.1.pending = r.1.pendingEntries.filterMap (·.buffer) := rfl
    unfold PumpState.pending at hheaders
    rw [hcons] at hheaders
    cases hm : m.buffer with
    | none =>
      rw [List.filterMap_cons_none hm] at hheaders
      exact hheaders.congr rfl
    | some e =>
      -- the element leaves the queue when its flag is cleared
      rw [List.filterMap_cons_some hm] at hheaders
      apply HeadersOk.pop (hheaders.setBufferFlag List.mem_cons_self .nothing (by decide))
      simp [MsgPump.setBufferFlag]

/-- A post without data. -/
lemma postMessage_none_cases {r : Bool × Pump} (h : postMessage t p id none = .ok r) :
    r = (false, p) ∨ ∃ d, t.messageBuffers id = some d ∧ ¬ p.Full ∧
      r = (true, p.enqueue { id := id, buffer := none, bufferDescription := some d }) := by
  unfold postMessage at h
  split at h
  · exact Or.inl (Except.ok.inj h).symm
  · next hroom =>
    cases hd : t.messageBuffers id with
    | none =>
      unfold BufTable.lookup at h
      rw [hd] at h
      split_ifs at h
      simp_all
    | some d =>
      obtain ⟨hlt, hlookup, hid⟩ := BufTable.lookup_eq hd
      simp only [hlt, hlookup, if_pos, if_pos hid] at h
      exact Or.inr ⟨d, rfl, hroom, (Except.ok.inj h).symm⟩

/-- A post of a null pointer is queued, or changes nothing. -/
lemma historyStep_postNull_cases {id : MsgId} (hstep : historyStep t s (.postNull id) = some s') :
    s' = s ∨ ∃ d, t.messageBuffers id = some d ∧ ¬ s.pump.Full ∧
      s' = { s with
        pump := s.pump.enqueue { id := id, buffer := none, bufferDescription := some d } } := by
  unfold historyStep at hstep
  cases hpost : postMessage t s.pump id none with
  | error fault => simp [hpost] at hstep
  | ok r =>
    simp only [hpost] at hstep
    obtain rfl := Option.some.inj hstep
    rcases postMessage_none_cases hpost with rfl | ⟨d, hd, hroom, rfl⟩
    · exact Or.inl rfl
    · exact Or.inr ⟨d, hd, hroom, rfl⟩

lemma UnlockInv.step {a : HistoryAction} (h : UnlockInv t s) (ha : NotAbandoned t s a)
    (hstep : historyStep t s a = some s') : UnlockInv t s' := by
  cases a with
  | postNull id =>
    rcases historyStep_postNull_cases hstep with rfl | ⟨d, hd, hroom, rfl⟩
    · exact h
    · exact h.enqueue ⟨rfl, rfl, rfl, rfl⟩ hroom ⟨d, hd, rfl, nofun⟩
        (h.headers.mono fun _ => List.mem_append_left _)
  | pump a =>
    cases moves_of_step h.wellFormed hstep with
    | post id ptr d r hd hr => exact h.post hd hr
    | getFreeBuffer id d r hr => exact h.getFreeBuffer hr
    | postUndeclared | getFreeUndeclared => exact h
    | lock e => exact h.of_sameRing (sameRing_lockMessage _) (h.headers.lock e)
    | unlock e =>
      exact h.of_sameRing (sameRing_unlockMessage _)
        (h.headers.unlock fun hd he => ha e hd rfl he)
    | dispatch r _ hr => exact h.dispatch ha hr

/-- A step that takes the last reference to an element in use leaves it in use without reference. -/
lemma UnlockInv.not_of_abandoned {a : HistoryAction} (h : UnlockInv t s)
    (ha : ¬ NotAbandoned t s a) (hstep : historyStep t s a = some s') : ¬ UnlockedFree t s' := by
  unfold NotAbandoned at ha
  push Not at ha
  obtain ⟨e, hd, hunlocks, he, hone, hflags⟩ := ha
  have hunlock := h.headers.unlockMessage_eq (e := e) (by omega)
  -- the pump is that after the unlock, and the same elements are pending
  have hafter : s'.pump = (unlockMessage s.pump (some e)).2 ∧ s'.pending = s.pending := by
    cases a with
    | postNull id => exact hunlocks.elim
    | pump a =>
      cases moves_of_step h.wellFormed hstep with
      | unlock e' =>
        obtain rfl : e' = e := hunlocks
        exact ⟨rfl, pending_of_sameRing (sameRing_unlockMessage _)⟩
      | dispatch r _ hr =>
        obtain ⟨hpc, hbuffer⟩ := hunlocks
        cases hr with
        | unlock m rest _ hqueue =>
          rw [h.wellFormed.ring.front_eq hqueue] at hbuffer
          refine ⟨by rw [hbuffer], ?_⟩
          simp only [PumpState.pending, PumpState.pendingEntries, hpc,
            (sameRing_unlockMessage m.buffer).queue]
        | idle hpc' | start _ _ hpc' | call _ _ _ hpc' | returned _ _ hpc' | finish _ _ hpc' =>
          rw [hpc] at hpc'
          cases hpc'
      | _ => exact hunlocks.elim
  obtain ⟨hpump, hpending⟩ := hafter
  -- the element has no reference now, and its flag is the one it had
  intro hfree
  have hheader : s'.pump.header e = { s.pump.header e with refCnt := 0 } := by
    rw [hpump, hunlock]
    simp [hone]
  have hisFree := hfree e hd (hpending ▸ he) (by rw [hheader])
  rw [hheader] at hisFree
  exact hflags hisFree.2.2

/-! ## All histories -/

lemma unlockInv_initial (callbackVector : MsgId → ℕ → Option Callback)
    (data : Elem → List UInt8) : UnlockInv t (initial callbackVector data) :=
  ⟨wellFormed_initial _ _, fun _ => rfl, fun _ => Flag.noConfusion, fun _ _ _ _ => rfl⟩

/-- In every history: in all its states each element that is neither queued nor being dispatched, and
to which there is no reference, is free, if and only if no step takes the last reference to such an
element while it is marked as in use. -/
theorem unlockedFree_iff_notAbandoned (t : BufTable)
    (callbackVector : MsgId → ℕ → Option Callback) (data : Elem → List UInt8)
    (actions : List HistoryAction) (final : PumpState)
    (hrun : exec (historyStep t) (initial callbackVector data) actions = some final) :
    StatesMeet (historyStep t) (UnlockedFree t) (initial callbackVector data) actions ↔
      StepsMeet (historyStep t) (NotAbandoned t) (initial callbackVector data) actions := by
  apply statesMeet_iff_stepsMeet (historyStep t) (UnlockInv t) _ _ _ (unlockInv_initial _ _) hrun
  · intro s h
    exact h.unlockedFree
  · intro s a s' h ha hstep
    exact h.step ha hstep
  · intro s a s' h ha hstep
    exact h.not_of_abandoned ha hstep

/-- A callback holds a lock past the dispatch, and gives it back. -/
def locksInCallback : List HistoryAction :=
  List.flatten
    [dispatchPowerState.map .pump, [.pump (.lock ⟨msgIdSystemPowerState, 0⟩)],
      List.replicate 7 (.pump .dispatch), [.pump (.unlock ⟨msgIdSystemPowerState, 0⟩)]]

theorem unlockedFree_iff_notAbandoned_locksInCallback :
    StepsMeet (historyStep firmware) (NotAbandoned firmware)
        (initial (fun _ _ => none) fun _ => []) locksInCallback ∧
      StatesMeet (historyStep firmware) (UnlockedFree firmware)
        (initial (fun _ _ => none) fun _ => []) locksInCallback := by
  have hkept : StepsMeet (historyStep firmware) (NotAbandoned firmware)
      (initial (fun _ _ => none) fun _ => []) locksInCallback := by decide +kernel
  exact ⟨hkept, (unlockedFree_iff_notAbandoned firmware _ _ locksInCallback _ rfl).mpr hkept⟩

/-- An element that is reserved and unlocked again is not free, and can not be reserved again. -/
theorem abandoned_element_is_lost :
    ∃ s, exec (historyStep firmware) (initial (fun _ _ => none) fun _ => [])
        [.pump (.getFreeBuffer msgIdVoltageCalibration),
          .pump (.unlock ⟨msgIdVoltageCalibration, 0⟩)] = some s ∧
      s.pump.header ⟨msgIdVoltageCalibration, 0⟩ = ⟨magic, 0, .inUse⟩ ∧ s.pending = [] ∧
      (∃ p, getFreeBuffer firmware s.pump msgIdVoltageCalibration = .ok (none, p)) ∧
      ¬ UnlockedFree firmware s := by
  refine ⟨_, rfl, by decide +kernel, rfl, ⟨_, rfl⟩, ?_⟩
  intro hfree
  have hdeclared : firmware.Declared ⟨msgIdVoltageCalibration, 0⟩ :=
    ⟨MessageType.voltageMeasurementsRaw.pool 1 msgIdVoltageCalibration, by decide +kernel, by decide⟩
  have hisFree := hfree _ hdeclared (by decide) rfl
  exact absurd hisFree (by decide +kernel)

end Powerboard.MsgPump