import Powerboard.MsgPump.Accounting

/-!
# The queue seen from one callback

The loop of the pump comes to each of the `maxReceivers` entries of a callback vector once for each
message. `PumpState.ahead slot` is what the queue still has in store for the callback in this entry:
a step of the loop takes away its first message when it calls the callback, and otherwise leaves it.
-/

namespace Powerboard.MsgPump

/-- The queue entries that the callback `slot` is still to be called for. -/
def PumpState.ahead (slot : ℕ) (s : PumpState) : List QueueEntry :=
  match s.pc with
  | .waiting => s.pump.queue
  | .calling i => if i ≤ slot then s.pump.queue else s.pump.queue.tail
  | .cleared | .unlocked => s.pump.queue.tail

variable {t : BufTable} {s : PumpState} {slot : ℕ} {m : QueueEntry}

lemma ahead_of_sameRing {p' : Pump} (h : SameRing s.pump p') :
    PumpState.ahead slot { s with pump := p' } = s.ahead slot := by
  unfold PumpState.ahead
  rw [h.queue]

lemma ahead_enqueue {p' : Pump} (h : WellFormed t s) (hring : SameRing s.pump p')
    (hroom : ¬ s.pump.Full) :
    PumpState.ahead slot { s with pump := p'.enqueue m } = s.ahead slot ++ [m] := by
  have hqueue : (p'.enqueue m).queue = s.pump.queue ++ [m] := h.queue_enqueue hring hroom
  have htail (hpc : s.pc ≠ .waiting) : (p'.enqueue m).queue.tail = s.pump.queue.tail ++ [m] :=
    h.tail_queue_enqueue hring hroom hpc
  unfold PumpState.ahead
  cases hpc : s.pc with
  | waiting => exact hqueue
  | calling i =>
    dsimp only
    split
    · exact hqueue
    · exact htail (by simp [hpc])
  | cleared | unlocked => exact htail (by simp [hpc])

/-- What is ahead of a callback is not unlocked. -/
lemma mem_heldEntries_of_ahead (h : m ∈ s.ahead slot) : m ∈ s.heldEntries := by
  unfold PumpState.ahead at h
  unfold PumpState.heldEntries
  cases hpc : s.pc with
  | waiting =>
    rw [hpc] at h
    exact h
  | calling i =>
    simp only [hpc] at h
    split at h
    · exact h
    · exact List.mem_of_mem_tail h
  | cleared =>
    rw [hpc] at h
    exact List.mem_of_mem_tail h
  | unlocked =>
    rw [hpc] at h
    exact h

/-- A step of the loop leaves what is ahead of a callback, or it is the step that comes to it. -/
lemma ahead_dispatch {r : PumpState × Option Call} (hslot : slot < maxReceivers)
    (hr : DispatchOutcome t s r) :
    (s.pc ≠ .calling slot ∧ r.1.ahead slot = s.ahead slot) ∨
      ∃ m rest, s.pc = .calling slot ∧ s.pump.queue = m :: rest ∧ s.ahead slot = m :: rest ∧
        r.1 = { s with pc := .calling (slot + 1) } ∧ r.1.ahead slot = rest ∧
        r.2 = (s.pump.callbackVector m.id slot).map fun callback =>
          { callback := callback, id := m.id, content := m.buffer.map s.pump.data } := by
  cases hr with
  | idle hpc => exact Or.inl ⟨by simp [hpc], rfl⟩
  | start m rest hpc hqueue =>
    refine Or.inl ⟨by simp [hpc], ?_⟩
    simp only [PumpState.ahead, hpc, (sameRing_setBufferFlag m.buffer .inUse).queue,
      Nat.zero_le, if_true]
  | call m rest i hpc hi hqueue =>
    by_cases hslot' : i = slot
    · subst hslot'
      refine Or.inr ⟨m, rest, hpc, hqueue, ?_, rfl, ?_, rfl⟩
      · simp [PumpState.ahead, hpc, hqueue]
      · simp [PumpState.ahead, hqueue]
    · refine Or.inl ⟨by simpa [hpc] using hslot', ?_⟩
      have hle : i + 1 ≤ slot ↔ i ≤ slot := by omega
      simp only [PumpState.ahead, hpc, hle]
  | returned m rest hpc hqueue =>
    refine Or.inl ⟨by simp only [hpc, ne_eq, DispatchPc.calling.injEq]; omega, ?_⟩
    simp only [PumpState.ahead, hpc, (sameRing_setBufferFlag m.buffer .nothing).queue,
      Nat.not_le.mpr hslot, if_false]
  | unlock m rest hpc hqueue =>
    refine Or.inl ⟨by simp [hpc], ?_⟩
    simp only [PumpState.ahead, hpc, (sameRing_unlockMessage m.buffer).queue]
  | finish m rest hpc hqueue =>
    refine Or.inl ⟨by simp [hpc], ?_⟩
    simp only [PumpState.ahead, hpc, Pump.queue_advance (Pump.size_ne_zero hqueue)]

end Powerboard.MsgPump
