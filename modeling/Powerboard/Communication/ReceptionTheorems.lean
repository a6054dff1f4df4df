import Powerboard.Communication.Reception

/-!
# Every byte is handed on once

The position in the stream of the next byte to read is the number of bytes taken so far, and the one of
the next byte to write is the number of bytes received. The index and the register show both modulo
the size of the buffer, which is enough to tell them apart while less than the buffer is unread.
-/

namespace Powerboard.Communication

open Machine RingBuffer

variable {s t : RxGlobals}

/-- The invariant: what was received is what was taken and the window of the buffer behind it. -/
structure RxInv (s : RxGlobals) : Prop where
  content : s.received = s.taken ++ window rxFifoSize s.rxFifoBuf s.taken.length s.unread
  cndtr : s.cndtr = rxFifoSize - s.received.length % rxFifoSize
  readIndex : s.rxFifoReadIndex =
    match s.isrPc with
    | .handing _ => (s.handed.length + 1) % rxFifoSize
    | _ => s.handed.length % rxFifoSize
  reading : s.isrPc = .reading → 0 < s.unread
  ended : s.ended = true → s.unread = 0 ∧ s.taken = s.handed

lemma rxInv_start : RxInv rxStart where
  content := rfl
  cndtr := rfl
  readIndex := rfl
  reading h := nomatch h
  ended h := nomatch h

/-- The write position is the position in the stream, modulo the size of the buffer. -/
lemma RxInv.length_received (h : RxInv s) : s.received.length = s.taken.length + s.unread := by
  have hlength := congrArg List.length h.content
  rwa [List.length_append, length_window] at hlength

lemma RxInv.cndtr_bounds (h : RxInv s) : 1 ≤ s.cndtr ∧ s.cndtr ≤ rxFifoSize := by
  have hcndtr := h.cndtr
  have hlt : s.received.length % rxFifoSize < rxFifoSize := Nat.mod_lt _ (by decide)
  omega

/-- The register tells the write position. -/
lemma RxInv.sub_cndtr (h : RxInv s) :
    rxFifoSize - s.cndtr = (s.taken.length + s.unread) % rxFifoSize := by
  have hcndtr := h.cndtr
  have hlt : s.received.length % rxFifoSize < rxFifoSize := Nat.mod_lt _ (by decide)
  rw [← h.length_received]
  omega

lemma RxInv.subU32_cndtr (h : RxInv s) :
    subU32 rxFifoSize s.cndtr = (s.taken.length + s.unread) % rxFifoSize := by
  obtain ⟨hpos, hle⟩ := h.cndtr_bounds
  rw [← h.sub_cndtr]
  unfold subU32 rxFifoSize at *
  omega

/-! ## The steps -/

lemma RxInv.dmaWrite (h : RxInv s) (hunread : s.unread < rxFifoSize) (byte : UInt8) :
    RxInv (s.dmaWrite byte) := by
  have hlength := h.length_received
  have htaken : (s.dmaWrite byte).taken = s.taken := rfl
  have hunread' : (s.dmaWrite byte).unread = s.unread + 1 := by
    unfold RxGlobals.unread
    rw [htaken, RxGlobals.dmaWrite, List.length_append, List.length_singleton, hlength]
    omega
  exact {
    content := by
      rw [htaken, hunread', RxGlobals.dmaWrite, h.sub_cndtr]
      dsimp only
      rw [window_push _ _ _ _ hunread, ← List.append_assoc, ← h.content]
    cndtr := by
      have hcndtr := h.cndtr
      simp only [RxGlobals.dmaWrite, List.length_append, List.length_singleton]
      unfold rxFifoSize at *
      split <;> omega
    readIndex := h.readIndex
    reading := fun _ => by omega
    ended := fun hended => nomatch hended }

/-- The test of the loop tells whether there is a byte to read. -/
lemma RxInv.test_iff (h : RxInv s) (hunread : s.unread < rxFifoSize) (hpc : s.isrPc = .loop) :
    s.rxFifoReadIndex = subU32 rxFifoSize s.cndtr ↔ s.unread = 0 := by
  have hindex := h.readIndex
  have htaken : s.taken = s.handed := by rw [RxGlobals.taken, hpc]
  simp only [hpc, ← htaken] at hindex
  have hlt : s.taken.length % rxFifoSize < rxFifoSize := Nat.mod_lt _ (by decide)
  rw [hindex, h.subU32_cndtr, ← Nat.mod_add_mod, eq_comm, tail_eq_front_iff hlt hunread.le]
  omega

/-- A step that takes no byte and leaves the index where it is. -/
lemma RxInv.setPc (h : RxInv s) {pc : IsrPc} {ended : Bool} (hold : s.taken = s.handed)
    (hindex : s.rxFifoReadIndex = s.handed.length % rxFifoSize)
    (hpc : pc = .idle ∨ pc = .loop ∨ pc = .reading ∨ pc = .behind)
    (hreading : pc = .reading → 0 < s.unread) (hended : ended = true → s.unread = 0) :
    RxInv { s with isrPc := pc, ended := ended } := by
  have htaken : { s with isrPc := pc, ended := ended }.taken = s.taken := by
    rw [hold]
    rcases hpc with rfl | rfl | rfl | rfl <;> rfl
  have hunread : { s with isrPc := pc, ended := ended }.unread = s.unread := by
    rw [RxGlobals.unread, htaken]
    rfl
  exact {
    content := by
      rw [htaken, hunread]
      exact h.content
    cndtr := h.cndtr
    readIndex := by rcases hpc with rfl | rfl | rfl | rfl <;> exact hindex
    reading := fun hpc => by
      rw [hunread]
      exact hreading hpc
    ended := fun htrue => by
      rw [hunread, htaken]
      exact ⟨hended htrue, hold⟩ }

/-- The byte that is read is the next one of the stream. -/
lemma RxInv.read (h : RxInv s) (hpc : s.isrPc = .reading) :
    RxInv { s with isrPc := .advancing (s.rxFifoBuf s.rxFifoReadIndex) } := by
  have hpos := h.reading hpc
  have hindex := h.readIndex
  have hcontent := h.content
  have hlength := h.length_received
  have htaken : s.taken = s.handed := by rw [RxGlobals.taken, hpc]
  simp only [hpc] at hindex
  obtain ⟨n, hn⟩ : ∃ n, s.unread = n + 1 := ⟨s.unread - 1, by omega⟩
  rw [hn, window_pop, htaken, ← hindex] at hcontent
  have hunread : { s with isrPc := .advancing (s.rxFifoBuf s.rxFifoReadIndex) }.unread = n := by
    simp only [RxGlobals.unread, RxGlobals.taken, List.length_append, List.length_singleton]
    rw [htaken] at hlength
    omega
  exact {
    content := by
      rw [hunread]
      simp only [RxGlobals.taken, List.length_append, List.length_singleton]
      rw [← window_mod, List.append_assoc, List.singleton_append]
      exact hcontent
    cndtr := h.cndtr
    readIndex := hindex
    reading := nofun
    ended := fun hended => by
      have hzero := (h.ended hended).1
      omega }

/-- A step with a byte that is not handed on yet, after which the same bytes are taken. -/
lemma RxInv.setTaken (h : RxInv s) {received : UInt8} {index : ℕ} {pc : IsrPc}
    {handed : List UInt8} (hheld : s.taken = s.handed ++ [received])
    (hindex : index =
      match pc with
      | .handing _ => (handed.length + 1) % rxFifoSize
      | _ => handed.length % rxFifoSize)
    (htaken : { s with rxFifoReadIndex := index, isrPc := pc, handed := handed }.taken = s.taken)
    (hpc : pc ≠ .reading) :
    RxInv { s with rxFifoReadIndex := index, isrPc := pc, handed := handed } := by
  have hunread :
      { s with rxFifoReadIndex := index, isrPc := pc, handed := handed }.unread = s.unread := by
    rw [RxGlobals.unread, htaken]
    rfl
  exact {
    content := by
      rw [htaken, hunread]
      exact h.content
    cndtr := h.cndtr
    readIndex := hindex
    reading := fun hreading => absurd hreading hpc
    ended := fun hended => by
      -- the loop has not ended while it has a byte
      have hnone := (h.ended hended).2
      simp [hheld] at hnone }

/-- The index follows the byte, which the interrupt still has. -/
lemma RxInv.advance (h : RxInv s) {received : UInt8} (hpc : s.isrPc = .advancing received) :
    RxInv { s with
      rxFifoReadIndex := (s.rxFifoReadIndex + 1) % rxFifoSize
      isrPc := .handing received } := by
  have hindex := h.readIndex
  have hheld : s.taken = s.handed ++ [received] := by rw [RxGlobals.taken, hpc]
  simp only [hpc] at hindex
  refine h.setTaken hheld ?_ hheld.symm nofun
  simp only [hindex]
  exact Nat.mod_add_mod _ _ _

lemma RxInv.hand (h : RxInv s) {received : UInt8} (hpc : s.isrPc = .handing received) :
    RxInv { s with handed := s.handed ++ [received], isrPc := .loop } := by
  have hindex := h.readIndex
  have hheld : s.taken = s.handed ++ [received] := by rw [RxGlobals.taken, hpc]
  simp only [hpc] at hindex
  refine h.setTaken hheld ?_ hheld.symm nofun
  rw [List.length_append, List.length_singleton]
  exact hindex

lemma RxInv.usart1Isr (h : RxInv s) (hunread : s.unread < rxFifoSize) : RxInv s.usart1Isr := by
  have hindex := h.readIndex
  cases hpc : s.isrPc with
  | idle =>
    simp only [hpc] at hindex
    have hold : s.taken = s.handed := by rw [RxGlobals.taken, hpc]
    rw [RxGlobals.usart1Isr, hpc]
    exact h.setPc hold hindex (.inr (.inl rfl)) nofun fun hended => (h.ended hended).1
  | loop =>
    have htest := h.test_iff hunread hpc
    simp only [hpc] at hindex
    have hold : s.taken = s.handed := by rw [RxGlobals.taken, hpc]
    rw [RxGlobals.usart1Isr, hpc]
    dsimp only
    split
    · next hne =>
      have hpos : s.unread ≠ 0 := fun hzero => hne (htest.mpr hzero)
      refine h.setPc hold hindex (.inr (.inr (.inl rfl))) (fun _ => ?_) fun hended => ?_
      · omega
      · exact (h.ended hended).1
    · next heq =>
      have hzero : s.unread = 0 := htest.mp (not_not.mp heq)
      exact h.setPc hold hindex (.inr (.inr (.inr rfl))) nofun fun _ => hzero
  | behind =>
    simp only [hpc] at hindex
    have hold : s.taken = s.handed := by rw [RxGlobals.taken, hpc]
    rw [RxGlobals.usart1Isr, hpc]
    exact h.setPc hold hindex (.inl rfl) nofun fun hended => (h.ended hended).1
  | reading =>
    rw [RxGlobals.usart1Isr, hpc]
    exact h.read hpc
  | advancing received =>
    rw [RxGlobals.usart1Isr, hpc]
    exact h.advance hpc
  | handing received =>
    rw [RxGlobals.usart1Isr, hpc]
    exact h.hand hpc

lemma RxInv.step {a : RxAction} (h : RxInv s) (hunread : s.unread < rxFifoSize)
    (hstep : rxStep s a = some t) : RxInv t := by
  cases a with
  | receive byte =>
    obtain rfl := Option.some.inj hstep
    exact h.dmaWrite hunread byte
  | usart1Isr =>
    obtain rfl := Option.some.inj hstep
    exact h.usart1Isr hunread

/-! ## What is handed on -/

/-- What was handed on was taken. -/
lemma handed_isPrefix_taken (s : RxGlobals) : s.handed <+: s.taken := by
  unfold RxGlobals.taken
  split
  · exact List.prefix_append _ _
  · exact List.prefix_append _ _
  all_goals exact List.prefix_refl _

lemma RxInv.handsOn (h : RxInv s) : HandsOn s where
  handed_isPrefix := by
    rw [h.content]
    exact (handed_isPrefix_taken s).trans (List.prefix_append _ _)
  handed_eq_of_ended hended := by
    obtain ⟨hzero, htaken⟩ := h.ended hended
    rw [h.content, hzero, window_zero, List.append_nil, htaken]
  rxFifoReadIndex_lt := by
    have hindex := h.readIndex
    rw [hindex]
    split <;> exact Nat.mod_lt _ (by decide)

/-- The interrupt hands on every byte once, as long as the buffer is never full of bytes that it has
not read. -/
theorem usart1Isr_handsOn {as : List RxAction} (h : exec rxStep rxStart as = some s)
    (hunread : StatesMeet rxStep (fun u => u.unread < rxFifoSize) rxStart as) : HandsOn s := by
  have hinv : StatesMeet rxStep RxInv rxStart as :=
    exec_induction_of_steps rxStep (fun _ _ _ hinv hu => hinv.step hu) rxInv_start
      (hunread.stepsMeet rxStep)
  exact (hinv as [] s (List.append_nil as).symm h).handsOn

/-- A second byte comes in before the first one is read, and a third one before the loop ends. -/
def arrivalsInLoop : List RxAction :=
  List.flatten
    [[.receive 7, .usart1Isr, .usart1Isr, .receive 8], List.replicate 6 .usart1Isr, [.receive 9],
      List.replicate 7 .usart1Isr]

theorem usart1Isr_handsOn_arrivalsInLoop :
    ∃ s, exec rxStep rxStart arrivalsInLoop = some s ∧ s.ended = true ∧ s.handed = [7, 8, 9] ∧
      HandsOn s := by
  have hrun : (exec rxStep rxStart arrivalsInLoop).map (fun s => (s.ended, s.handed)) =
      some (true, [7, 8, 9]) := by decide +kernel
  obtain ⟨s, hs, hview⟩ := Option.map_eq_some_iff.mp hrun
  obtain ⟨hended, hhanded⟩ := Prod.mk.inj hview
  have hunread : StatesMeet rxStep (fun u => u.unread < rxFifoSize) rxStart arrivalsInLoop := by
    decide +kernel
  exact ⟨s, hs, hended, hhanded, usart1Isr_handsOn hs hunread⟩

end Powerboard.Communication
