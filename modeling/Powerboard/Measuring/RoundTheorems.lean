import Powerboard.Measuring.MeasuringTheorems

/-!
# Measurements reach the low-battery check

When the queue has drained, a measurement goes all the way: the conversion gets a buffer, the raw
measurement is queued and dispatched, `onRawMeasurement` gets a buffer for the power state, and the
callbacks of the power state are called with what was measured.
-/

namespace Powerboard.Measuring

open Bytes Machine MsgPump

variable {dataAddress : MsgId → ℤ} {s s' : Globals} {e : Elem} {m : QueueEntry}
  {rest queue : List QueueEntry} {pc : DispatchPc} {content : List UInt8}
  {callbackVector : MsgId → ℕ → Option Callback}

/-! ## Steps of the loop -/

/-- Where the loop of the pump is, while no callback runs, and what an element holds. -/
structure Position (callbackVector : MsgId → ℕ → Option Callback) (s : Globals) (pc : DispatchPc)
    (queue : List QueueEntry) (e : Elem) (content : List UInt8) : Prop where
  inv : MeasuringInv s
  callbacks : s.state.pump.callbackVector = callbackVector
  running : s.running = none
  pc : s.state.pc = pc
  queue : s.state.pump.queue = queue
  data : s.state.pump.data e = content

/-- The place in the loop after this one, when there is a message. -/
def nextPc : DispatchPc → DispatchPc
  | .waiting => .calling 0
  | .calling i => if i < maxReceivers then .calling (i + 1) else .cleared
  | .cleared => .unlocked
  | .unlocked => .waiting

/-- The queue after a step of the loop. -/
def nextQueue : DispatchPc → List QueueEntry → List QueueEntry
  | .unlocked, queue => queue.tail
  | .waiting, queue | .calling _, queue | .cleared, queue => queue

/-- What a step of the loop does, in terms of the steps of the pump. -/
lemma Position.dispatchStep (h : Position callbackVector s pc (m :: rest) e content) :
    ∃ r, DispatchOutcome firmware s.state r ∧
      Measuring.dispatchStep s = some (match r.2 with
        | none => { s with state := r.1 }
        | some call => callback { s with state := r.1, calls := s.calls ++ [call] } m.buffer call) := by
  obtain ⟨r, hr, houtcome⟩ := dispatch_outcome h.inv.account.wellFormed
  have hfront := h.inv.account.wellFormed.ring.front_eq h.queue
  refine ⟨r, houtcome, ?_⟩
  unfold Measuring.dispatchStep
  rw [h.running, if_neg (by simp), hr, hfront]
  obtain ⟨state, call⟩ := r
  cases call <;> rfl

/-- A step of the loop goes on to the next place, and calls a callback if it is there for that. -/
lemma Position.dispatch (dataAddress : MsgId → ℤ)
    (h : Position callbackVector s pc (m :: rest) e content)
    (hquiet : ∀ i, pc = .calling i → i < maxReceivers →
      callbackVector m.id i ≠ some onRawMeasurement) :
    ∃ s' calls, measuringStep dataAddress s .dispatch = some s' ∧
      Position callbackVector s' (nextPc pc) (nextQueue pc (m :: rest)) e content ∧
      s'.calls = s.calls ++ calls ∧
      (pc = .waiting → s'.offsetVoltages = s.offsetVoltages) ∧
      ∀ i c, pc = .calling i → i < maxReceivers → callbackVector m.id i = some c →
        m.buffer = some e → { callback := c, id := m.id, content := some content } ∈ calls := by
  obtain ⟨r, houtcome, hstep⟩ := h.dispatchStep
  have hinv := h.inv.dispatch hstep
  have hcallbacks := houtcome.callbackVector
  have hdata := houtcome.data
  rw [h.callbacks] at hcallbacks
  refine ⟨_, r.2.toList, hstep, ?_⟩
  cases houtcome with
  | idle hpc hsize => exact absurd hsize (Pump.size_ne_zero h.queue)
  | start m' rest' hpc hqueue =>
    obtain rfl := h.pc.symm.trans hpc
    refine ⟨⟨hinv, hcallbacks, h.running, rfl, ?_, ?_⟩, by simp, by simp, by simp⟩
    · exact (sameRing_setBufferFlag _ _).queue.trans h.queue
    · rw [← h.data]
      exact congrFun hdata e
  | call m' rest' i hpc hi hqueue =>
    obtain rfl := h.pc.symm.trans hpc
    rw [h.queue, List.cons.injEq] at hqueue
    obtain ⟨rfl, rfl⟩ := hqueue
    have hcallback := hquiet i rfl hi
    rw [h.callbacks] at hinv ⊢
    rw [show nextPc (.calling i) = .calling (i + 1) from if_pos hi]
    cases hc : callbackVector m.id i with
    | none =>
      simp only [hc, Option.map_none] at hinv ⊢
      exact ⟨⟨hinv, h.callbacks, h.running, rfl, h.queue, h.data⟩, by simp, by simp,
        fun j c hj hlt hcj => by obtain rfl := DispatchPc.calling.inj hj; rw [hc] at hcj; cases hcj⟩
    | some c =>
      simp only [hc, Option.map_some] at hinv ⊢
      -- so the step goes on after the callback has returned
      set call : Call :=
        { callback := c, id := m.id, content := m.buffer.map s.state.pump.data } with hcall
      have hne : call.callback ≠ onRawMeasurement := by
        rintro rfl
        exact hcallback hc
      obtain ⟨offsets, hoffsets⟩ := callback_of_ne
        { s with state := { s.state with pc := .calling (i + 1) }, calls := s.calls ++ [call] }
        m.buffer hne
      rw [hoffsets] at hinv ⊢
      have hlast : ∀ j c', DispatchPc.calling i = .calling j → j < maxReceivers →
          callbackVector m.id j = some c' → m.buffer = some e →
          ({ callback := c', id := m.id, content := some content } : Call) ∈ [call] := by
        intro j c' hj hlt hcj hbuffer
        obtain rfl := DispatchPc.calling.inj hj
        rw [hc, Option.some.injEq] at hcj
        subst hcj
        rw [hcall, hbuffer, Option.map_some, h.data]
        exact List.mem_singleton_self _
      exact ⟨⟨hinv, h.callbacks, h.running, rfl, h.queue, h.data⟩, rfl, by simp, hlast⟩
  | returned m' rest' hpc hqueue =>
    obtain rfl := h.pc.symm.trans hpc
    refine ⟨⟨hinv, hcallbacks, h.running, rfl, ?_, ?_⟩, by simp, by simp, ?_⟩
    · exact (sameRing_setBufferFlag _ _).queue.trans h.queue
    · rw [← h.data]
      exact congrFun hdata e
    · intro i c hi hlt
      obtain rfl := DispatchPc.calling.inj hi
      exact absurd hlt (lt_irrefl _)
  | unlock m' rest' hpc hqueue =>
    obtain rfl := h.pc.symm.trans hpc
    refine ⟨⟨hinv, hcallbacks, h.running, rfl, ?_, ?_⟩, by simp, by simp, by simp⟩
    · exact (sameRing_unlockMessage _).queue.trans h.queue
    · rw [← h.data]
      exact congrFun hdata e
  | finish m' rest' hpc hqueue =>
    obtain rfl := h.pc.symm.trans hpc
    refine ⟨⟨hinv, hcallbacks, h.running, rfl, ?_, h.data⟩, by simp, by simp, by simp⟩
    have hbusy := h.inv.account.wellFormed.busy (by rw [hpc]; simp)
    show s.state.pump.advance.queue = (m :: rest).tail
    rw [Pump.queue_advance hbusy, h.queue]

/-- The run of `n` steps of the loop, whose callbacks are not `onRawMeasurement`, while the queue
holds the message. -/
lemma Position.dispatches (dataAddress : MsgId → ℤ) (n : ℕ)
    (h : Position callbackVector s pc (m :: rest) e content)
    (hquiet : ∀ k < n, ∀ i, nextPc^[k] pc = .calling i → i < maxReceivers →
      callbackVector m.id i ≠ some onRawMeasurement)
    (hqueue : ∀ k < n, nextPc^[k] pc ≠ .unlocked) :
    ∃ s' calls, exec (measuringStep dataAddress) s (List.replicate n .dispatch) = some s' ∧
      Position callbackVector s' (nextPc^[n] pc) (m :: rest) e content ∧
      s'.calls = s.calls ++ calls ∧
      ∀ k < n, ∀ i c, nextPc^[k] pc = .calling i → i < maxReceivers →
        callbackVector m.id i = some c → m.buffer = some e →
        { callback := c, id := m.id, content := some content } ∈ calls := by
  induction n with
  | zero => exact ⟨s, [], rfl, h, by simp, by simp⟩
  | succ n ih =>
    obtain ⟨u, calls, hu, hpos, hcalls, hin⟩ :=
      ih (fun k hk => hquiet k (Nat.lt_succ_of_lt hk)) fun k hk => hqueue k (Nat.lt_succ_of_lt hk)
    obtain ⟨s', calls', hs', hpos', hcalls', -, hin'⟩ :=
      hpos.dispatch dataAddress (hquiet n (Nat.lt_succ_self n))
    refine ⟨s', calls ++ calls', ?_, ?_, ?_, ?_⟩
    · rw [List.replicate_succ', exec_append_eq_some]
      exact ⟨u, hu, by simp [exec, hs']⟩
    · -- the front index does not move in between
      have hkeep : nextQueue (nextPc^[n] pc) (m :: rest) = m :: rest := by
        have hne := hqueue n (Nat.lt_succ_self n)
        generalize nextPc^[n] pc = pc' at hne
        cases pc' <;> first | rfl | exact absurd rfl hne
      rw [hkeep] at hpos'
      rw [Function.iterate_succ_apply']
      exact hpos'
    · rw [hcalls', hcalls, List.append_assoc]
    · intro k hk i c hpc hi hc hbuffer
      rw [List.mem_append]
      rcases Nat.lt_succ_iff_lt_or_eq.mp hk with hlt | rfl
      · exact Or.inl (hin k hlt i c hpc hi hc hbuffer)
      · exact Or.inr (hin' i c hpc hi hc hbuffer)

/-! ## From the conversion to the queue -/

lemma queue_nil_of_size {p : Pump} (h : p.msgQueueSize = 0) : p.queue = [] := by
  rw [← List.length_eq_zero_iff, Pump.length_queue, h]

/-- The queue has room for another message as long as it is short. -/
lemma not_full_of_length {p : Pump} (h : p.RingOk) (hlength : p.queue.length < msgQueueMaxSize) :
    ¬ p.Full := by
  rw [h.full_iff, ← Pump.length_queue]
  exact hlength.ne

/-- With a drained queue a conversion can be started, if none is running. -/
lemma MeasuringInv.converts (dataAddress : MsgId → ℤ) (h : MeasuringInv s) (hdrained : s.Drained)
    (hdone : s.calibrationMeasurementDone = true) :
    ∃ s' e, exec (measuringStep dataAddress) s
        (if s.curBuffer.isNone then [.triggerMeasurement] else []) = some s' ∧
      MeasuringInv s' ∧ s'.Drained ∧ s'.curBuffer = some e ∧ s'.converting = true ∧
      s'.calibrationMeasurementDone = true ∧ s'.state.pc = s.state.pc ∧
      s'.state.pump.callbackVector = s.state.pump.callbackVector ∧ s'.calls = s.calls ∧
      s'.offsetVoltages = s.offsetVoltages := by
  cases hcur : s.curBuffer with
  | some e =>
    exact ⟨s, e, rfl, h, hdrained, hcur, (h.curBuffer e hcur).1, hdone, rfl, rfl, rfl, rfl⟩
  | none =>
    have hreg := h.registered hdone
    -- the queue is drained, so the element of the raw measurement is free
    obtain ⟨t, ht, houtcome⟩ := startConversion_outcome s lookup_voltageRaw (by decide)
    have hstep : measuringStep dataAddress s .triggerMeasurement = some t := (if_pos hreg).trans ht
    have hinv := h.step (a := .triggerMeasurement) trivial hstep
    have hrun : exec (measuringStep dataAddress) s [.triggerMeasurement] = some t := by
      simp [exec, hstep]
    cases houtcome with
    | converting e hcur' => exact absurd (hcur.symm.trans hcur') (by simp)
    | noneFree _ hall =>
      refine absurd ?_ (hall 0 (by decide))
      exact h.free_of_drained hdrained (Or.inl rfl) (by rw [hcur]; simp)
    | started i _ hi hfree =>
      exact ⟨_, ⟨msgIdVoltageRaw, i⟩, hrun, hinv, hdrained, rfl, rfl, hdone, rfl, rfl, rfl, rfl⟩

/-- The raw measurement is queued. -/
lemma MeasuringInv.rawPosted (dataAddress : MsgId → ℤ) (samples : List UInt16)
    (h : MeasuringInv s) (hdrained : s.Drained) (hdone : s.calibrationMeasurementDone = true)
    (hcur : s.curBuffer = some e) (hconv : s.converting = true) :
    ∃ s' d, measuringStep dataAddress s (.dma1Ch1Isr samples) = some s' ∧
      Position s.state.pump.callbackVector s' .waiting [entryOf d e] e (ofHalfWords samples) ∧
      e.id = msgIdVoltageRaw ∧ s'.calls = s.calls ∧ s'.offsetVoltages = s.offsetVoltages := by
  have hring := h.account.wellFormed.ring
  have hqueue := queue_nil_of_size hdrained.1
  have hroom : ¬ s.state.pump.Full := not_full_of_length hring (by rw [hqueue]; decide)
  have hpc : s.state.pc = .waiting := by
    by_contra hbusy
    exact h.account.wellFormed.busy hbusy hdrained.1
  obtain ⟨e', he', hsome⟩ : ∃ s', measuringStep dataAddress s (.dma1Ch1Isr samples) = some s' ∧
      Measuring.dma1Ch1Isr dataAddress s samples = some s' := by
    have hraw := ((h.curBuffer e hcur).2.2.1 hdone).1
    obtain ⟨r, hr, -⟩ := postMessage_outcome (s.state.pump.setData e (ofHalfWords samples))
      (pointerFrom dataAddress (s.state.pump.setData e (ofHalfWords samples)) msgIdVoltageRaw e)
      lookup_voltageRaw
    have hisr : Measuring.dma1Ch1Isr dataAddress s samples =
        some { s.setPump r.2 with
          calibrationMeasurementDone := true, curBuffer := none, converting := false } := by
      simp only [Measuring.dma1Ch1Isr, hcur, hdone, if_true, Option.map_some, hr]
    exact ⟨_, by simp only [measuringStep, hconv, if_true, hisr], hisr⟩
  obtain ⟨e₁, r, d, he₁, hd, hid, houtcome, rfl⟩ := h.dma1Ch1Isr_cases hconv hsome
  obtain rfl := Option.some.inj (hcur.symm.trans he₁)
  have hinv := h.step (a := .dma1Ch1Isr samples) (fun _ => hroom) he'
  -- the drained queue has room, so the post succeeds
  rcases h.postRaw hcur hdone hd houtcome with ⟨hr, -, -⟩ | ⟨-, hfull⟩
  · refine ⟨_, d, he', ⟨hinv, ?_, hdrained.2, hpc, ?_, ?_⟩, ?_, rfl, rfl⟩
    · show r.2.callbackVector = _
      rw [hr]
      rfl
    · show r.2.queue = [entryOf d e]
      have hring' := (sameRing_setData (p := s.state.pump) e (ofHalfWords samples)).trans
        (sameRing_setHeader e .posted)
      rw [hr, (hring'.ringOk hring).queue_enqueue _ hroom, hring'.queue, hqueue]
      rfl
    · show r.2.data e = ofHalfWords samples
      rw [hr]
      exact Function.update_self _ _ _
    · rw [hid, if_pos hdone]
  · exact absurd hfull hroom

/-! ## From the raw measurement to the power state -/

/-- The dispatch of the raw measurement enters `onRawMeasurement`. -/
lemma Position.enters (dataAddress : MsgId → ℤ) {d : BufDescription}
    (h : Position callbackVector s .waiting [entryOf d e] e content)
    (hcv : CallbacksRegistered callbackVector) (hid : e.id = msgIdVoltageRaw) :
    ∃ s' calls, exec (measuringStep dataAddress) s [.dispatch, .dispatch] = some s' ∧
      MeasuringInv s' ∧ s'.state.pump.callbackVector = callbackVector ∧
      s'.running = some (.entered (some e)) ∧ s'.state.pc = .calling 1 ∧
      s'.state.pump.queue = [entryOf d e] ∧ s'.state.pump.data e = content ∧
      s'.calls = s.calls ++ calls ∧ s'.offsetVoltages = s.offsetVoltages := by
  obtain ⟨u, calls, hu, hpos, hcalls, hoffset, -⟩ := h.dispatch dataAddress (by simp)
  have hpos : Position callbackVector u (.calling 0) [entryOf d e] e content := hpos
  obtain ⟨r, houtcome, hstep⟩ := hpos.dispatchStep
  have hraw := hcv.raw 0 (by decide)
  cases houtcome with
  | call m' rest' i hpc hi hqueue =>
    -- the first callback of raw measurements is `onRawMeasurement`
    obtain rfl := DispatchPc.calling.inj (hpos.pc.symm.trans hpc)
    rw [hpos.queue, List.cons.injEq] at hqueue
    obtain ⟨rfl, rfl⟩ := hqueue
    set call : Call :=
      { callback := onRawMeasurement, id := msgIdVoltageRaw, content := some (u.state.pump.data e) }
    have hentered : measuringStep dataAddress u .dispatch = some
        { u with
          state := { u.state with pc := .calling 1 }
          calls := u.calls ++ [call]
          running := some (.entered (some e)) } := by
      rw [entryOf_id, hid, hpos.callbacks, hraw] at hstep
      exact hstep
    have hinv := hpos.inv.step (a := .dispatch) trivial hentered
    refine ⟨_, calls ++ [call], ?_, hinv, hpos.callbacks, rfl, rfl, hpos.queue, hpos.data, ?_,
      hoffset rfl⟩
    · simp [exec, hu, hentered]
    · rw [hcalls, List.append_assoc]
  | idle hpc | start m' rest' hpc | returned m' rest' hpc | unlock m' rest' hpc
  | finish m' rest' hpc =>
    have heq := hpos.pc.symm.trans hpc
    cases heq

/-- `onRawMeasurement` queues the power state that it has computed. -/
lemma MeasuringInv.powerPosted (dataAddress : MsgId → ℤ) (h : MeasuringInv s)
    (hrunning : s.running = some (.entered (some e))) (hpc : s.state.pc = .calling 1)
    (hqueue : s.state.pump.queue = [m]) (hbuffer : m.buffer = some e)
    (hid : e.id = msgIdVoltageRaw) (hdata : s.state.pump.data e = content) :
    ∃ s' e', exec (measuringStep dataAddress) s
        [.runRawMeasurement, .runRawMeasurement, .runRawMeasurement] = some s' ∧
      e'.id = msgIdSystemPowerState ∧
      Position s.state.pump.callbackVector s' (.calling 1) [m, entryOf systemPowerState e'] e'
        (powerState s.offsetVoltages content).encode ∧ s'.calls = s.calls := by
  have hring := h.account.wellFormed.ring
  have hheld : s.state.held = [e] := by
    rw [held_of_queue hqueue (by rw [hpc]; simp), hbuffer]
    rfl
  -- the pool of the power state is free
  obtain ⟨r, hr, houtcome⟩ := getFreeBuffer_outcome (p := s.state.pump) lookup_systemPowerState
    (by decide)
  cases houtcome with
  | noneFree hall =>
    refine absurd ?_ (hall 0 (by decide))
    apply h.account.others _ (Or.inl (Or.inr rfl))
    · rw [hheld, List.mem_singleton]
      rintro rfl
      exact absurd hid (by decide)
    · rintro (hcur | howner)
      · exact h.curBuffer_id_ne hcur rfl
      · rw [hrunning] at howner
        simp [RawMeasurementPc.powerStatePtr] at howner
  | reserved i hi hfree =>
    -- the three steps of the callback: reserve, compute, post
    set e' : Elem := ⟨msgIdSystemPowerState, i⟩ with he'
    have hstep₁ : measuringStep dataAddress s .runRawMeasurement =
        some { s.setPump (s.state.pump.setHeader e' .reserved) with
          running := some (.filling (some e) e') } := by
      simp only [measuringStep, hrunning, Option.bind_some, Measuring.runRawMeasurement, hr]
    have hinv₁ := h.step (a := .runRawMeasurement) (by rw [HandoverSafe, hrunning]; simp) hstep₁
    set s₁ : Globals := { s.setPump (s.state.pump.setHeader e' .reserved) with
      running := some (.filling (some e) e') } with hs₁
    have hstep₂ : measuringStep dataAddress s₁ .runRawMeasurement =
        some { s₁.setPump (s₁.state.pump.setData e'
            (powerState s.offsetVoltages content).encode) with running := some (.posting e') } := by
      rw [← hdata]
      rfl
    have hinv₂ := hinv₁.step (a := .runRawMeasurement) (by rw [HandoverSafe, hs₁]; simp) hstep₂
    set s₂ : Globals := { s₁.setPump (s₁.state.pump.setData e'
      (powerState s.offsetVoltages content).encode) with running := some (.posting e') } with hs₂
    have hring₂ : SameRing s.state.pump s₂.state.pump :=
      (sameRing_setHeader e' .reserved).trans (sameRing_setData e' _)
    have hqueue₂ : s₂.state.pump.queue = [m] := hring₂.queue.trans hqueue
    have hroom : ¬ s₂.state.pump.Full :=
      not_full_of_length (hring₂.ringOk hring) (by rw [hqueue₂]; simp [msgQueueMaxSize])
    obtain ⟨r₃, hr₃, houtcome₃⟩ := postMessage_outcome s₂.state.pump
      (pointerFrom dataAddress s₂.state.pump msgIdSystemPowerState e') lookup_systemPowerState
    have hstep₃ : measuringStep dataAddress s₂ .runRawMeasurement =
        some { s₂.setPump r₃.2 with running := none } := by
      simp only [measuringStep, hs₂, Option.bind_some, Measuring.runRawMeasurement]
      rw [← hs₂, hr₃]
    have hinv₃ := hinv₂.step (a := .runRawMeasurement) (fun e _ => hroom) hstep₃
    rcases hinv₂.postPowerState rfl houtcome₃ with ⟨hr, -, -⟩ | ⟨-, hfull⟩
    · refine ⟨_, e', ?_, rfl, ⟨hinv₃, ?_, rfl, hpc, ?_, ?_⟩, rfl⟩
      · simp [exec, hstep₁, hstep₂, hstep₃]
      · show r₃.2.callbackVector = _
        rw [hr]
        rfl
      · show r₃.2.queue = _
        have hring₃ := hring₂.trans (sameRing_setHeader e' .posted)
        rw [hr, (hring₃.ringOk hring).queue_enqueue _ hroom, hring₃.queue, hqueue]
        rfl
      · show r₃.2.data e' = _
        rw [hr]
        exact Function.update_self _ _ _
    · exact absurd hfull hroom

/-! ## From the power state to the low-battery check -/

/-- The rest of the dispatch of the raw measurement, and the callbacks of the power state. -/
lemma Position.checks (dataAddress : MsgId → ℤ) {d : BufDescription} {e' : Elem}
    (h : Position callbackVector s (.calling 1) [m, entryOf d e'] e' content)
    (hcv : CallbacksRegistered callbackVector) (hm : m.id = msgIdVoltageRaw)
    (hid : e'.id = msgIdSystemPowerState) :
    ∃ s' calls, exec (measuringStep dataAddress) s (List.replicate 11 .dispatch) = some s' ∧
      s'.calls = s.calls ++ calls ∧
      { callback := onNewPwrMeasurement, id := msgIdSystemPowerState,
        content := some content } ∈ calls := by
  -- the other callbacks of the raw measurement, clearing its flag, and unlocking it
  obtain ⟨s₁, calls₁, hrun₁, hpos₁, hcalls₁, -⟩ := h.dispatches dataAddress 5
    (by
      intro k hk i hi hlt hcall
      rw [hm, hcv.raw i hlt] at hcall
      split at hcall
      · subst i
        revert hi
        interval_cases k <;> decide
      · cases hcall)
    (by intro k hk; interval_cases k <;> decide)
  obtain ⟨s₂, calls₂, hrun₂, hpos₂, hcalls₂, -⟩ := hpos₁.dispatch dataAddress (by
    intro i hi
    cases hi)
  have hpos₂ : Position callbackVector s₂ .waiting [entryOf d e'] e' content := hpos₂
  -- the callbacks of the power state
  obtain ⟨s₃, calls₃, hrun₃, -, hcalls₃, hin⟩ := hpos₂.dispatches dataAddress 5
    (by
      intro k hk i hi hlt
      rw [entryOf_id, hid]
      exact hcv.noOther i)
    (by intro k hk; interval_cases k <;> decide)
  refine ⟨s₃, calls₁ ++ (calls₂ ++ calls₃), ?_, ?_, ?_⟩
  · have hsplit : (List.replicate 11 MeasuringAction.dispatch) =
        List.replicate 5 MeasuringAction.dispatch ++
          (MeasuringAction.dispatch :: List.replicate 5 MeasuringAction.dispatch) := rfl
    rw [hsplit, exec_append_eq_some]
    exact ⟨s₁, hrun₁, (exec_cons_eq_some _).mpr ⟨s₂, hrun₂, hrun₃⟩⟩
  · rw [hcalls₃, hcalls₂, hcalls₁, List.append_assoc, List.append_assoc]
  · obtain ⟨i, hi, hcall⟩ := hcv.powerState
    apply List.mem_append_right
    apply List.mem_append_right
    -- the receiver in slot `i` is called at step `i + 1` of the dispatch
    have hpc : nextPc^[i + 1] .waiting = .calling i := by
      simp only [maxReceivers] at hi
      interval_cases i <;> rfl
    rw [← hid] at hcall ⊢
    exact hin (i + 1) (Nat.succ_lt_succ hi) i _ hpc hi hcall rfl

/-- When the queue has drained, a measurement reaches the low-battery check. -/
theorem MeasuringInv.measures (dataAddress : MsgId → ℤ) (h : MeasuringInv s)
    (hcv : CallbacksRegistered s.state.pump.callbackVector) (hdrained : s.Drained)
    (hdone : s.calibrationMeasurementDone = true) (samples : List UInt16) :
    ∃ s' calls, exec (measuringStep dataAddress) s (measurementRound s samples) = some s' ∧
      s'.calls = s.calls ++ calls ∧ lowBatteryCheck s samples ∈ calls := by
  obtain ⟨s₁, e, hrun₁, h₁, hdrained₁, hcur₁, hconv₁, hdone₁, hpc₁, hvector₁, hcalls₁, hoffset₁⟩ :=
    h.converts dataAddress hdrained hdone
  obtain ⟨s₂, d, hrun₂, hpos₂, hid, hcalls₂, hoffset₂⟩ :=
    h₁.rawPosted dataAddress samples hdrained₁ hdone₁ hcur₁ hconv₁
  rw [hvector₁] at hpos₂
  obtain ⟨s₃, calls₃, hrun₃, h₃, hvector₃, hrunning₃, hpc₃, hqueue₃, hdata₃, hcalls₃, hoffset₃⟩ :=
    hpos₂.enters dataAddress hcv hid
  obtain ⟨s₄, e', hrun₄, hid', hpos₄, hcalls₄⟩ :=
    h₃.powerPosted dataAddress hrunning₃ hpc₃ hqueue₃ rfl hid hdata₃
  rw [hvector₃, hoffset₃, hoffset₂, hoffset₁] at hpos₄
  obtain ⟨s₅, calls₅, hrun₅, hcalls₅, hin⟩ := hpos₄.checks dataAddress hcv hid hid'
  refine ⟨s₅, calls₃ ++ calls₅, ?_, ?_, List.mem_append_right _ hin⟩
  · unfold measurementRound
    rw [List.append_assoc, exec_append_eq_some]
    refine ⟨s₁, hrun₁, ?_⟩
    rw [List.cons_append, exec_cons_eq_some]
    refine ⟨s₂, hrun₂, ?_⟩
    show exec (measuringStep dataAddress) s₂ (List.replicate 2 MeasuringAction.dispatch ++
      (List.replicate 3 MeasuringAction.runRawMeasurement ++ _)) = some s₅
    rw [exec_append_eq_some]
    refine ⟨s₃, hrun₃, ?_⟩
    rw [exec_append_eq_some]
    exact ⟨s₄, hrun₄, hrun₅⟩
  · rw [hcalls₅, hcalls₄, hcalls₃, hcalls₂, hcalls₁, List.append_assoc]

/-! ## The books over a run -/

/-- Nothing registers or unregisters a callback. -/
lemma StartOutcome.callbacks_eq {id : MsgId} {d : BufDescription} (h : StartOutcome d s id s') :
    s'.state.pump.callbackVector = s.state.pump.callbackVector := by
  cases h <;> rfl

lemma runRawMeasurement_callbackVector {pc : RawMeasurementPc}
    (hstep : Measuring.runRawMeasurement dataAddress s pc = some s') :
    s'.state.pump.callbackVector = s.state.pump.callbackVector := by
  cases pc with
  | entered dataPtr =>
    obtain ⟨r, houtcome, rfl⟩ := runRawMeasurement_entered_cases hstep
    exact houtcome.callbackVector
  | filling dataPtr e =>
    obtain rfl := Option.some.inj hstep
    rfl
  | posting e =>
    obtain ⟨r, houtcome, rfl⟩ := runRawMeasurement_posting_cases hstep
    exact houtcome.callbackVector

lemma dispatchStep_callbackVector (h : MeasuringInv s) (hstep : dispatchStep s = some s') :
    s'.state.pump.callbackVector = s.state.pump.callbackVector := by
  obtain ⟨-, r, houtcome, hcases⟩ := dispatchStep_cases h.account.wellFormed hstep
  rcases hcases with ⟨-, rfl⟩ | ⟨m, rest, call, -, -, rfl⟩
  · exact houtcome.callbackVector
  · unfold callback
    split_ifs <;> exact houtcome.callbackVector

/-- No step registers a callback. -/
lemma measuringStep_callbackVector {a : MeasuringAction} (h : MeasuringInv s)
    (hstep : measuringStep dataAddress s a = some s') :
    s'.state.pump.callbackVector = s.state.pump.callbackVector := by
  cases moves_of_measuringStep hstep with
  | triggerCalibration hreg ht =>
    obtain ⟨u, houtcome, rfl⟩ := triggerCalibration_outcome ht
    exact houtcome.callbacks_eq
  | triggerMeasurement hreg ht =>
    exact (triggerMeasurement_outcome ht).callbacks_eq
  | dma1Ch1Isr samples hconv ht =>
    obtain ⟨e, r, d, -, -, -, houtcome, rfl⟩ := h.dma1Ch1Isr_cases hconv ht
    exact houtcome.callbackVector
  | runRawMeasurement pc hpc ht => exact runRawMeasurement_callbackVector ht
  | dispatch ht => exact dispatchStep_callbackVector h ht
  | post id ptr d r hid hd houtcome => exact houtcome.callbackVector
  | getFreeBuffer id d r hid hd houtcome => exact houtcome.callbackVector
  | lock e hid => exact lockMessage_callbackVector _
  | unlock e hid => exact unlockMessage_callbackVector _
  | stay a => rfl

lemma MeasuringInv.measuringOk (h : MeasuringInv s)
    (hcv : CallbacksRegistered s.state.pump.callbackVector) : MeasuringOk dataAddress s := by
  refine ⟨h.accounted, ?_, h.measures dataAddress hcv⟩
  intro hdrained e d hid hd hindex
  by_cases hcur : s.curBuffer = some e
  · exact Or.inr hcur
  · exact Or.inl (MsgHeader.isFree_iff.mpr (h.free_of_drained hdrained hid hcur))

/-- Measuring loses no buffer, in any state of a run, exactly when in that run nothing is handed over
to a full queue: a raw measurement by `dma1_ch1_isr`, a power state by `onRawMeasurement`. -/
theorem measuringOk_iff_handoverSafe {as : List MeasuringAction} {data : Elem → List UInt8}
    (hcv : CallbacksRegistered callbackVector)
    (h : exec (measuringStep dataAddress) (measuringStart callbackVector data) as = some s) :
    StatesMeet (measuringStep dataAddress) (MeasuringOk dataAddress)
        (measuringStart callbackVector data) as ↔
      StepsMeet (measuringStep dataAddress) HandoverSafe (measuringStart callbackVector data) as := by
  apply statesMeet_iff_stepsMeet _
    (fun s => MeasuringInv s ∧ CallbacksRegistered s.state.pump.callbackVector) _ _ _
    ⟨measuringInv_start data, hcv⟩ h
  · intro s hs
    exact hs.1.measuringOk hs.2
  · intro s a s' hs hsafe hstep
    refine ⟨hs.1.step hsafe hstep, ?_⟩
    rw [measuringStep_callbackVector hs.1 hstep]
    exact hs.2
  · intro s a s' hs hleak hstep hok
    exact hs.1.step_lost hleak hstep hok.accounted

/-! ## The power board -/

/-- The callbacks of this module and the low-battery check. -/
def powerboardCallbacks (id : MsgId) (i : ℕ) : Option Callback :=
  if i ≠ 0 then none
  else if id = msgIdVoltageRaw then some onRawMeasurement
  else if id = msgIdVoltageCalibration then some onRawCalibMeasurement
  else if id = msgIdSystemPowerState then some onNewPwrMeasurement
  else none

lemma callbacksRegistered_powerboard : CallbacksRegistered powerboardCallbacks := by
  refine ⟨?_, ⟨0, by decide, by decide⟩, ?_⟩
  · intro i hi
    by_cases h0 : i = 0
    · subst h0
      decide
    · simp [powerboardCallbacks, h0]
  · intro i
    by_cases h0 : i = 0
    · subst h0
      decide
    · simp [powerboardCallbacks, h0]

/-- The pools are 4 KiB apart. -/
def poolAddress (id : MsgId) : ℤ := 0x20000000 + 0x1000 * (id - systemFirstId)

/-- The state of the power board after boot. -/
def powerboardStart : Globals := measuringStart powerboardCallbacks fun _ => []

/-- The calibration, its dispatch, and the start of the first measurement. -/
def calibrate : List MeasuringAction :=
  [.triggerCalibration, .dma1Ch1Isr (List.replicate 100 2048)] ++ List.replicate 8 .dispatch ++
    [.triggerMeasurement]

/-- The receiver reserves and posts packets. -/
def packetsReceived (n : ℕ) : List MeasuringAction :=
  (List.range n).flatMap fun i =>
    [.getFreeBuffer msgIdGenericProtocolPacketReady,
      .post msgIdGenericProtocolPacketReady
        ((MessageType.genericProtocollPacket.pool 20 msgIdGenericProtocolPacketReady).pointerTo i
          fun _ => 0)]

/-- The first measurement. -/
theorem measuringOk_iff_handoverSafe_firstMeasurement :
    StepsMeet (measuringStep poolAddress) HandoverSafe powerboardStart
        (calibrate ++ [.dma1Ch1Isr (List.replicate 100 2048), .dispatch]) ∧
      StatesMeet (measuringStep poolAddress) (MeasuringOk poolAddress) powerboardStart
        (calibrate ++ [.dma1Ch1Isr (List.replicate 100 2048), .dispatch]) := by
  have hrun : (exec (measuringStep poolAddress) powerboardStart
      (calibrate ++ [.dma1Ch1Isr (List.replicate 100 2048), .dispatch])).isSome := by
    decide +kernel
  have hsafe : StepsMeet (measuringStep poolAddress) HandoverSafe powerboardStart
      (calibrate ++ [.dma1Ch1Isr (List.replicate 100 2048), .dispatch]) := by decide +kernel
  exact ⟨hsafe, (measuringOk_iff_handoverSafe callbacksRegistered_powerboard
    (Option.some_get hrun).symm).mpr hsafe⟩

/-- When 16 packets are queued at the end of a conversion, the raw measurement is lost. -/
theorem full_queue_loses_raw_measurement :
    ∃ s, exec (measuringStep poolAddress) powerboardStart
        (calibrate ++ packetsReceived 16 ++ [.dma1Ch1Isr (List.replicate 100 2048)]) = some s ∧
      ¬ MeasuringOk poolAddress s := by
  have hrun : (exec (measuringStep poolAddress) powerboardStart
      (calibrate ++ packetsReceived 16 ++ [.dma1Ch1Isr (List.replicate 100 2048)])).map
        (fun s => (s.state.pump.header ⟨msgIdVoltageRaw, 0⟩, s.state.held, s.curBuffer, s.running)) =
      some (.reserved, (List.range 16).map (⟨msgIdGenericProtocolPacketReady, ·⟩), none, none) := by
    decide +kernel
  obtain ⟨s, hs, hview⟩ := Option.map_eq_some_iff.mp hrun
  simp only [Prod.mk.injEq] at hview
  obtain ⟨hheader, hheld, hcur, hrunning⟩ := hview
  refine ⟨s, hs, fun hok => ?_⟩
  rcases hok.accounted ⟨msgIdVoltageRaw, 0⟩ _ (Or.inl rfl) lookup_voltageRaw (by decide) with
    hfree | hin | hcur' | hrunning'
  · rw [MsgHeader.isFree_iff, hheader] at hfree
    exact absurd hfree (by decide)
  · rw [hheld] at hin
    exact absurd hin (by decide)
  · rw [hcur] at hcur'
    cases hcur'
  · rw [hrunning] at hrunning'
    simp at hrunning'

end Powerboard.Measuring
