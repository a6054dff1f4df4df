import Powerboard.MsgPump.UnlockTheorems

/-!
# Messages without data

`msgPump_postMessage` queues a null pointer: "the message contains a nullpointer. thats easy to
handle". `msgPump_unlockMessage` looks whether the pointer is null before it goes to the header in
front of it; `setBufferFlag` does not, so that the loop of the pump writes in front of the null
pointer when it comes to such a message.
-/

namespace Powerboard.MsgPump

open Machine

/-! ## What the loop of the pump does with an entry -/

/-- A call of a callback, with the pointer that it gets. -/
structure PointerCall where
  callback : Callback
  id : MsgId
  message : Option Elem
  deriving DecidableEq

/-- A call of a callback, if there is one, with the pointer at the front of the queue. -/
def pointerCall (s : PumpState) (call : Option Call) : List PointerCall :=
  (call.map fun call =>
    ({ callback := call.callback
       id := call.id
       message := (s.pump.msgQueue s.pump.msgQueueFront).buffer } : PointerCall)).toList

/-- The pointers in whose header a step of `msgPump_pumpMessage` writes: `setBufferFlag` always does,
`msgPump_unlockMessage` if it succeeds. -/
def headerWrites (s : PumpState) : List (Option Elem) :=
  let message := s.pump.msgQueue s.pump.msgQueueFront
  match s.pc with
  | .waiting => if s.pump.msgQueueSize ≠ 0 then [message.buffer] else []
  | .calling i => if i < maxReceivers then [] else [message.buffer]
  | .cleared => if (unlockMessage s.pump message.buffer).1 then [message.buffer] else []
  | .unlocked => []

/-- The calls for an entry, up to the callback `n`: every callback of its id in order, with the
pointer that was queued. -/
def callsForEntry (callbackVector : MsgId → ℕ → Option Callback) (n : ℕ) (m : QueueEntry) :
    List PointerCall :=
  (List.range n).filterMap fun i => (callbackVector m.id i).map fun callback =>
    { callback := callback, id := m.id, message := m.buffer }

/-- The message pump, and what its loop has done so far. -/
structure Dispatching where
  state : PumpState
  /-- the pointers in whose headers it wrote -/
  headerWrites : List (Option Elem)
  calls : List PointerCall
  /-- the entries that it is done with -/
  dispatched : List QueueEntry

/-- The state after the action. -/
def dispatchingStep (t : BufTable) (s : Dispatching) : HistoryAction → Option Dispatching
  | .pump .dispatch =>
    match MsgPump.dispatch s.state with
    | .ok (state, call) =>
      let message := s.state.pump.msgQueue s.state.pump.msgQueueFront
      some
        { state := state
          headerWrites := s.headerWrites ++ MsgPump.headerWrites s.state
          calls := s.calls ++ pointerCall s.state call
          dispatched :=
            if s.state.pc = .unlocked then s.dispatched ++ [message] else s.dispatched }
    | .error _ => none
  | a => (historyStep t s.state a).map fun state => { s with state := state }

/-- The state after `msgPump_init`. -/
def dispatchingStart (callbackVector : MsgId → ℕ → Option Callback) (data : Elem → List UInt8) :
    Dispatching :=
  { state := initial callbackVector data, headerWrites := [], calls := [], dispatched := [] }

/-- The calls for the entry that is being dispatched. -/
def PumpState.callsForFront (callbackVector : MsgId → ℕ → Option Callback) (s : PumpState) :
    List PointerCall :=
  match s.pc, s.pump.queue with
  | .calling i, m :: _ => callsForEntry callbackVector i m
  | .cleared, m :: _ | .unlocked, m :: _ => callsForEntry callbackVector maxReceivers m
  | _, _ => []

/-- The loop of the pump has written to headers of declared elements only, and has called for each
entry every callback with the pointer that was queued. -/
structure DispatchSafe (t : BufTable) (callbackVector : MsgId → ℕ → Option Callback)
    (s : Dispatching) : Prop where
  headerWrites : ∀ w ∈ s.headerWrites, ∃ e, w = some e ∧ t.Declared e
  calls : s.calls = s.dispatched.flatMap (callsForEntry callbackVector maxReceivers) ++
    s.state.callsForFront callbackVector

/-- The step does not begin to dispatch a message that was posted with a null pointer. -/
def NoNullDispatch (s : Dispatching) (a : HistoryAction) : Prop :=
  a = .pump .dispatch → s.state.pc = .waiting →
    ∀ m rest, s.state.pump.queue = m :: rest → m.buffer ≠ none

instance (s : Dispatching) : DecidablePred (NoNullDispatch s)
  | .pump .dispatch =>
    decidable_of_iff (s.state.pc = .waiting → ∀ m ∈ s.state.pump.queue.head?, m.buffer ≠ none) (by
      simp [NoNullDispatch, List.head?_eq_some_iff])
  | .pump (.post _ _) | .pump (.getFreeBuffer _) | .pump (.lock _) | .pump (.unlock _)
  | .postNull _ => isTrue (by intro h; cases h)

variable {t : BufTable} {callbackVector : MsgId → ℕ → Option Callback} {s s' : PumpState}
  {c c' : Dispatching} {a : HistoryAction} {m : QueueEntry} {rest : List QueueEntry}

/-! ## The headers that are written -/

/-- The pointers in whose headers something was written. -/
structure HeadersWritten (p p' : Pump) (writes : List (Option Elem)) : Prop where
  null : p'.nullHeaderWrites = p.nullHeaderWrites + writes.count none
  others : ∀ e, some e ∉ writes → p'.header e = p.header e

lemma headersWritten_nil {p p' : Pump} (hnull : p'.nullHeaderWrites = p.nullHeaderWrites)
    (hheader : p'.header = p.header) : HeadersWritten p p' [] :=
  ⟨hnull, fun e _ => by rw [hheader]⟩

lemma headersWritten_setBufferFlag (p : Pump) (buffer : Option Elem) (flag : Flag) :
    HeadersWritten p (setBufferFlag p buffer flag) [buffer] := by
  cases buffer with
  | none => exact ⟨rfl, fun _ _ => rfl⟩
  | some b =>
    refine ⟨rfl, fun e he => ?_⟩
    rw [List.mem_singleton, Option.some.injEq] at he
    exact Function.update_of_ne he _ _

lemma headersWritten_unlockMessage (p : Pump) (buffer : Option Elem) :
    HeadersWritten p (unlockMessage p buffer).2
      (if (unlockMessage p buffer).1 then [buffer] else []) := by
  cases buffer with
  | none => exact headersWritten_nil rfl rfl
  | some b =>
    unfold unlockMessage
    dsimp only
    split
    · refine ⟨rfl, fun e he => ?_⟩
      rw [if_pos rfl, List.mem_singleton, Option.some.injEq] at he
      exact Function.update_of_ne he _ _
    · exact headersWritten_nil rfl rfl

/-- What a step of the loop does to the headers is what `headerWrites` says. -/
theorem dispatch_header {r : PumpState × Option Call} (h : MsgPump.dispatch s = .ok r) :
    HeadersWritten s.pump r.1.pump (headerWrites s) := by
  unfold dispatch at h
  unfold headerWrites
  cases hpc : s.pc with
  | waiting =>
    simp only [hpc] at h ⊢
    split at h <;> rename_i hsize <;> obtain rfl := Except.ok.inj h
    · rw [if_pos hsize]
      exact headersWritten_setBufferFlag _ _ _
    · rw [if_neg hsize]
      exact headersWritten_nil rfl rfl
  | calling i =>
    simp only [hpc] at h ⊢
    split at h
    · rename_i hi
      rw [if_pos hi]
      split at h
      · cases h
      · obtain rfl := Except.ok.inj h
        exact headersWritten_nil rfl rfl
    · rename_i hi
      obtain rfl := Except.ok.inj h
      rw [if_neg hi]
      exact headersWritten_setBufferFlag _ _ _
  | cleared =>
    simp only [hpc] at h ⊢
    obtain rfl := Except.ok.inj h
    exact headersWritten_unlockMessage _ _
  | unlocked =>
    simp only [hpc] at h ⊢
    obtain rfl := Except.ok.inj h
    exact headersWritten_nil rfl rfl

/-- An entry that is not null has its header in the pool of its id. -/
lemma WellFormed.declared_front (h : WellFormed t s) (hqueue : s.pump.queue = m :: rest) {e : Elem}
    (he : m.buffer = some e) : t.Declared e := by
  obtain ⟨d, hd, -, helem⟩ := h.entries m (hqueue ▸ List.mem_cons_self ..)
  obtain ⟨hid, hindex⟩ := helem e he
  exact ⟨d, hid ▸ hd, hindex⟩

/-! ## Steps of the clients -/

/-- What the clients do leaves the loop where it is, and the front of the queue. -/
structure ClientStep (t : BufTable) (s s' : PumpState) : Prop where
  wellFormed : WellFormed t s'
  pc : s'.pc = s.pc
  callbackVector : s'.pump.callbackVector = s.pump.callbackVector
  queue : s.pump.queue <+: s'.pump.queue

lemma ClientStep.of_sameRing (h : WellFormed t s) {p' : Pump} (hring : SameRing s.pump p')
    (hcallbacks : p'.callbackVector = s.pump.callbackVector) :
    ClientStep t s { s with pump := p' } :=
  ⟨h.of_sameRing hring, rfl, hcallbacks, by rw [hring.queue]⟩

lemma clientStep_of_historyStep (h : WellFormed t s) (ha : a ≠ .pump .dispatch)
    (hstep : historyStep t s a = some s') : ClientStep t s s' := by
  cases a with
  | postNull id =>
    have hring : SameRing s.pump s.pump := ⟨rfl, rfl, rfl, rfl⟩
    rcases historyStep_postNull_cases hstep with rfl | ⟨d, hd, hroom, rfl⟩
    · exact .of_sameRing h hring rfl
    · refine ⟨h.enqueue hring hroom ⟨d, hd, rfl, nofun⟩, rfl, rfl, ?_⟩
      rw [h.queue_enqueue hring hroom]
      exact List.prefix_append _ _
  | pump a =>
    cases moves_of_step h hstep with
    | post id ptr d r hd hr =>
      refine ⟨h.post hd hr, rfl, hr.callbackVector, ?_⟩
      rcases hr.queue h with hqueue | ⟨i, hqueue⟩
      · rw [hqueue]
      · rw [hqueue]
        exact List.prefix_append _ _
    | getFreeBuffer id d r hr => exact .of_sameRing h hr.sameRing hr.callbackVector
    | postUndeclared | getFreeUndeclared => exact ⟨h, rfl, rfl, List.prefix_rfl⟩
    | lock e => exact .of_sameRing h (sameRing_lockMessage _) (lockMessage_callbackVector _)
    | unlock e => exact .of_sameRing h (sameRing_unlockMessage _) (unlockMessage_callbackVector _)
    | dispatch => exact absurd rfl ha

/-- The front of the queue stays where it is. -/
lemma ClientStep.front (h : ClientStep t s s') (hqueue : s.pump.queue = m :: rest) :
    ∃ rest', s'.pump.queue = m :: rest' := by
  obtain ⟨l, hl⟩ := h.queue
  exact ⟨rest ++ l, by rw [← hl, hqueue]; rfl⟩

lemma ClientStep.callsForFront (h : ClientStep t s s') (hwf : WellFormed t s) :
    s'.callsForFront callbackVector = s.callsForFront callbackVector := by
  unfold PumpState.callsForFront
  rw [h.pc]
  cases hpc : s.pc with
  | waiting => rfl
  | calling | cleared | unlocked =>
    obtain ⟨m, rest, hqueue⟩ : ∃ m rest, s.pump.queue = m :: rest := by
      have hbusy := hwf.busy (by rw [hpc]; exact DispatchPc.noConfusion)
      exact ⟨_, _, hwf.ring.queue_eq_cons hbusy⟩
    obtain ⟨rest', hqueue'⟩ := h.front hqueue
    rw [hqueue, hqueue']

/-! ## Steps of the loop -/

/-- The pump is well formed, no dispatch of a null pointer has begun, and nothing is wrong so far. -/
structure DispatchInv (t : BufTable) (callbackVector : MsgId → ℕ → Option Callback)
    (c : Dispatching) : Prop where
  wellFormed : WellFormed t c.state
  callbacks : c.state.pump.callbackVector = callbackVector
  notNull : c.state.pc ≠ .waiting → ∀ m rest, c.state.pump.queue = m :: rest → m.buffer ≠ none
  safe : DispatchSafe t callbackVector c

lemma DispatchInv.client (h : DispatchInv t callbackVector c)
    (hstep : ClientStep t c.state s') : DispatchInv t callbackVector { c with state := s' } := by
  refine ⟨hstep.wellFormed, hstep.callbackVector.trans h.callbacks, ?_, h.safe.headerWrites, ?_⟩
  · intro hpc m rest hqueue
    dsimp only at hpc hqueue
    rw [hstep.pc] at hpc
    -- the entry at the front was there before
    have hbusy := h.wellFormed.busy hpc
    have hfront := h.wellFormed.ring.queue_eq_cons hbusy
    obtain ⟨rest', hqueue'⟩ := hstep.front hfront
    rw [hqueue, List.cons.injEq] at hqueue'
    exact hqueue'.1 ▸ h.notNull hpc _ _ hfront
  · rw [hstep.callsForFront h.wellFormed]
    exact h.safe.calls

lemma callsForEntry_succ (i : ℕ) (m : QueueEntry) :
    callsForEntry callbackVector (i + 1) m = callsForEntry callbackVector i m ++
      ((callbackVector m.id i).map fun callback =>
        ({ callback := callback, id := m.id, message := m.buffer } : PointerCall)).toList := by
  unfold callsForEntry
  rw [List.range_succ, List.filterMap_append]
  cases h : callbackVector m.id i <;> simp [h]

/-- The headers that are written belong to the entry at the front. -/
lemma mem_headerWrites (h : WellFormed t s) {w : Option Elem} (hw : w ∈ headerWrites s) :
    ∃ m rest, s.pump.queue = m :: rest ∧ w = m.buffer := by
  have hsize : s.pump.msgQueueSize ≠ 0 := by
    by_cases hpc : s.pc = .waiting
    · intro hempty
      simp [headerWrites, hpc, hempty] at hw
    · exact h.busy hpc
  refine ⟨_, _, h.ring.queue_eq_cons hsize, ?_⟩
  unfold headerWrites at hw
  cases hpc : s.pc with
  | unlocked => simp [hpc] at hw
  | waiting | calling i | cleared =>
    simp only [hpc] at hw
    split at hw
    all_goals simp_all

/-- If no dispatch of a null pointer begins, the headers are those of declared elements. -/
lemma DispatchInv.headerWrites (h : DispatchInv t callbackVector c)
    (ha : NoNullDispatch c (.pump .dispatch)) :
    ∀ w ∈ headerWrites c.state, ∃ e, w = some e ∧ t.Declared e := by
  intro w hw
  obtain ⟨m, rest, hqueue, rfl⟩ := mem_headerWrites h.wellFormed hw
  have hne : m.buffer ≠ none := by
    by_cases hpc : c.state.pc = .waiting
    · exact ha rfl hpc m rest hqueue
    · exact h.notNull hpc m rest hqueue
  obtain ⟨e, he⟩ := Option.ne_none_iff_exists'.mp hne
  exact ⟨e, he, h.wellFormed.declared_front hqueue he⟩

/-- A step of the loop makes the next call for the entry at the front, or ends its dispatch. -/
lemma DispatchInv.calls (h : DispatchInv t callbackVector c)
    {r : PumpState × Option Call} (hr : DispatchOutcome t c.state r) :
    c.calls ++ pointerCall c.state r.2 =
      (if c.state.pc = .unlocked then
          c.dispatched ++ [c.state.pump.msgQueue c.state.pump.msgQueueFront]
        else c.dispatched).flatMap (callsForEntry callbackVector maxReceivers) ++
      r.1.callsForFront callbackVector := by
  have hcalls := h.safe.calls
  cases hr with
  | idle hpc =>
    rw [if_neg (by rw [hpc]; exact DispatchPc.noConfusion)]
    simpa [pointerCall] using hcalls
  | start m rest hpc hqueue =>
    rw [if_neg (by rw [hpc]; exact DispatchPc.noConfusion)]
    simp only [PumpState.callsForFront, hpc, List.append_nil] at hcalls
    simp only [PumpState.callsForFront, (sameRing_setBufferFlag m.buffer .inUse).queue, hqueue,
      pointerCall, hcalls]
    rfl
  | call m rest i hpc hi hqueue =>
    rw [if_neg (by rw [hpc]; exact DispatchPc.noConfusion)]
    simp only [PumpState.callsForFront, hpc, hqueue] at hcalls ⊢
    rw [hcalls, callsForEntry_succ, ← List.append_assoc, pointerCall,
      h.wellFormed.ring.front_eq hqueue, h.callbacks, Option.map_map]
    rfl
  | returned m rest hpc hqueue =>
    rw [if_neg (by rw [hpc]; exact DispatchPc.noConfusion)]
    simp only [PumpState.callsForFront, hpc, hqueue] at hcalls
    simp only [PumpState.callsForFront, (sameRing_setBufferFlag m.buffer .nothing).queue, hqueue,
      pointerCall, hcalls]
    exact List.append_nil _
  | unlock m rest hpc hqueue =>
    rw [if_neg (by rw [hpc]; exact DispatchPc.noConfusion)]
    simp only [PumpState.callsForFront, hpc, hqueue] at hcalls
    simp only [PumpState.callsForFront, (sameRing_unlockMessage m.buffer).queue, hqueue,
      pointerCall, hcalls]
    exact List.append_nil _
  | finish m rest hpc hqueue =>
    rw [if_pos hpc, h.wellFormed.ring.front_eq hqueue]
    simp only [PumpState.callsForFront, hpc, hqueue] at hcalls
    simp only [PumpState.callsForFront, pointerCall, hcalls, List.flatMap_append,
      List.flatMap_singleton]
    rfl

lemma DispatchInv.dispatch (h : DispatchInv t callbackVector c)
    (ha : NoNullDispatch c (.pump .dispatch))
    (hstep : dispatchingStep t c (.pump .dispatch) = some c') :
    DispatchInv t callbackVector c' := by
  obtain ⟨r, hdispatch, hr⟩ := dispatch_outcome h.wellFormed
  simp only [dispatchingStep, hdispatch, Option.some.injEq] at hstep
  subst hstep
  refine ⟨h.wellFormed.dispatch hr, hr.callbackVector.trans h.callbacks, ?_, ?_, h.calls hr⟩
  · dsimp only
    cases hr with
    | idle hpc => exact fun hbusy => absurd hpc hbusy
    | start m rest hpc hqueue =>
      intro _ m' rest' hqueue'
      rw [(sameRing_setBufferFlag m.buffer .inUse).queue] at hqueue'
      exact ha rfl hpc m' rest' hqueue'
    | call m rest i hpc => exact fun _ => h.notNull (by rw [hpc]; exact DispatchPc.noConfusion)
    | returned m rest hpc hqueue =>
      intro _ m' rest' hqueue'
      rw [(sameRing_setBufferFlag m.buffer .nothing).queue] at hqueue'
      exact h.notNull (by rw [hpc]; exact DispatchPc.noConfusion) m' rest' hqueue'
    | unlock m rest hpc hqueue =>
      intro _ m' rest' hqueue'
      rw [(sameRing_unlockMessage m.buffer).queue] at hqueue'
      exact h.notNull (by rw [hpc]; exact DispatchPc.noConfusion) m' rest' hqueue'
    | finish => exact fun hbusy => absurd rfl hbusy
  · intro w hw
    rcases List.mem_append.mp hw with hw | hw
    · exact h.safe.headerWrites w hw
    · exact h.headerWrites ha w hw

/-! ## All runs -/

/-- Every step that begins no dispatch of a null pointer keeps the invariant. -/
lemma DispatchInv.step (h : DispatchInv t callbackVector c) (ha : NoNullDispatch c a)
    (hstep : dispatchingStep t c a = some c') : DispatchInv t callbackVector c' := by
  by_cases hdispatch : a = .pump .dispatch
  · subst hdispatch
    exact h.dispatch ha hstep
  · have hclient : (historyStep t c.state a).map (fun state => { c with state := state }) =
        some c' := by
      cases a with
      | postNull id => exact hstep
      | pump a =>
        cases a with
        | dispatch => exact absurd rfl hdispatch
        | post | getFreeBuffer | lock | unlock => exact hstep
    obtain ⟨s', hs', rfl⟩ := Option.map_eq_some_iff.mp hclient
    exact h.client (clientStep_of_historyStep h.wellFormed hdispatch hs')

/-- A dispatch of a null pointer begins with a write in front of it. -/
lemma DispatchInv.not_safe (h : DispatchInv t callbackVector c) (ha : ¬ NoNullDispatch c a)
    (hstep : dispatchingStep t c a = some c') : ¬ DispatchSafe t callbackVector c' := by
  unfold NoNullDispatch at ha
  push Not at ha
  obtain ⟨rfl, hpc, m, rest, hqueue, hnull⟩ := ha
  obtain ⟨r, hdispatch, hr⟩ := dispatch_outcome h.wellFormed
  simp only [dispatchingStep, hdispatch, Option.some.injEq] at hstep
  subst hstep
  have hwrite : (none : Option Elem) ∈ MsgPump.headerWrites c.state := by
    have hsize := Pump.size_ne_zero hqueue
    simp only [MsgPump.headerWrites, hpc, if_pos hsize, h.wellFormed.ring.front_eq hqueue, hnull,
      List.mem_singleton]
  intro hsafe
  obtain ⟨e, he, -⟩ := hsafe.headerWrites none (List.mem_append_right _ hwrite)
  cases he

lemma dispatchInv_start (callbackVector : MsgId → ℕ → Option Callback)
    (data : Elem → List UInt8) :
    DispatchInv t callbackVector (dispatchingStart callbackVector data) :=
  ⟨wellFormed_initial _ _, rfl, fun hpc => absurd rfl hpc, nofun, rfl⟩

/-- In every run: the loop writes to headers of declared elements only and calls every callback with
the pointer that was queued, if and only if it comes to no message that was posted with a null
pointer. -/
theorem dispatchSafe_iff_noNullDispatch (t : BufTable)
    (callbackVector : MsgId → ℕ → Option Callback) (data : Elem → List UInt8)
    (actions : List HistoryAction) (final : Dispatching)
    (hrun : exec (dispatchingStep t) (dispatchingStart callbackVector data) actions = some final) :
    StatesMeet (dispatchingStep t) (DispatchSafe t callbackVector)
        (dispatchingStart callbackVector data) actions ↔
      StepsMeet (dispatchingStep t) NoNullDispatch (dispatchingStart callbackVector data)
        actions := by
  apply statesMeet_iff_stepsMeet (dispatchingStep t) (DispatchInv t callbackVector) _ _ _
    (dispatchInv_start _ _) hrun
  · intro c h
    exact h.safe
  · intro c a c' h ha hstep
    exact h.step ha hstep
  · intro c a c' h ha hstep
    exact h.not_safe ha hstep

/-- A message with data is dispatched while one without is queued behind it. -/
def nullBehindData : List HistoryAction :=
  dispatchPowerState.map .pump ++ [.postNull msgIdSystemPowerState] ++
    List.replicate 7 (.pump .dispatch)

theorem dispatchSafe_iff_noNullDispatch_behind :
    StepsMeet (dispatchingStep firmware) NoNullDispatch
        (dispatchingStart (fun _ _ => none) fun _ => []) nullBehindData ∧
      StatesMeet (dispatchingStep firmware) (DispatchSafe firmware fun _ _ => none)
        (dispatchingStart (fun _ _ => none) fun _ => []) nullBehindData := by
  have hnone : StepsMeet (dispatchingStep firmware) NoNullDispatch
      (dispatchingStart (fun _ _ => none) fun _ => []) nullBehindData := by decide +kernel
  exact ⟨hnone, (dispatchSafe_iff_noNullDispatch firmware _ _ nullBehindData _ rfl).mpr hnone⟩

/-- A posted null pointer is dispatched with two writes in front of it. -/
theorem null_message_writes_header :
    ∃ c, exec (dispatchingStep firmware) (dispatchingStart (fun _ _ => none) fun _ => [])
        (.postNull msgIdSystemPowerState :: List.replicate 8 (.pump .dispatch)) = some c ∧
      c.headerWrites = [none, none] ∧ c.state.pump.nullHeaderWrites = 2 ∧
      ¬ DispatchSafe firmware (fun _ _ => none) c := by
  refine ⟨_, rfl, rfl, rfl, ?_⟩
  intro hsafe
  obtain ⟨e, he, -⟩ := hsafe.headerWrites none (List.mem_cons_self ..)
  cases he

end Powerboard.MsgPump
