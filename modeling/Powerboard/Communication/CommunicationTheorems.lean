import Powerboard.Communication.Communication

/-!
# The order of the bytes that are sent

The DMA sends the bytes given to `phySendFunction0` in their order, whenever it reads and whenever its
interrupt comes.

The invariant is one equation: what was sent, followed by what the ring holds behind the bytes in
flight, is what was stored. A byte that a `memcpy` has written and not yet counted is already part of
the ring on the one side and of the stored bytes on the other.
-/

namespace Powerboard.Communication

open Machine RingBuffer

variable {s t : Globals} {memory : ℕ → UInt8}

/-! ## The invariant -/

/-- How many bytes of the running transfer the DMA has read. -/
def Globals.inFlight (s : Globals) : ℕ :=
  match s.dma with
  | none => 0
  | some d => d.transferred

/-- The bytes that the running `memcpy` has written. -/
def Globals.copied (s : Globals) : List UInt8 :=
  match s.sendPc with
  | .storing data packetBuffered _ copied => (data.drop packetBuffered).take copied
  | _ => []

/-- The bytes of the running call that are not stored. -/
def Globals.rest (s : Globals) : List UInt8 :=
  match s.sendPc with
  | .idle => []
  | .loop data packetBuffered | .stored data packetBuffered => data.drop packetBuffered
  | .storing data packetBuffered _ _ => data.drop packetBuffered

/-- The running call is within its data, and its `memcpy` within the free part of the ring that lies
before the end of the array. -/
def Globals.SendOk (s : Globals) : Prop :=
  match s.sendPc with
  | .idle => True
  | .loop data packetBuffered | .stored data packetBuffered =>
    data.length < 65536 ∧ packetBuffered ≤ data.length
  | .storing data packetBuffered n copied =>
    data.length < 65536 ∧ packetBuffered + n ≤ data.length ∧ copied ≤ n ∧
      s.count + n ≤ txFifoSize ∧ s.endIndex + n ≤ txFifoSize

/-- The running transfer is one of the oldest bytes of the ring and does not wrap. -/
def Globals.TransferOk (s : Globals) : Prop :=
  match s.dma with
  | none => s.currentTXTransactionSize = 0
  | some d =>
    d.cmar = s.start ∧ d.transferred + d.cndtr = s.currentTXTransactionSize ∧
      0 < s.currentTXTransactionSize ∧ s.currentTXTransactionSize ≤ s.count ∧
      s.start + s.currentTXTransactionSize ≤ txFifoSize

/-- Neither the send loop nor the interrupt is between storing or removing bytes and its
`trigger_transmision`. -/
def Globals.Settled (s : Globals) : Prop :=
  s.inIsr = false ∧ ∀ data packetBuffered, s.sendPc ≠ .stored data packetBuffered

/-- The invariant of the ring and of the running transfer. -/
structure FifoInv (s : Globals) : Prop where
  start_lt : s.start < txFifoSize
  count_le : s.count ≤ txFifoSize
  endIndex_eq : s.endIndex = (s.start + s.count) % txFifoSize
  send : s.SendOk
  transfer : s.TransferOk
  content : s.sent ++ window txFifoSize s.data (s.start + s.inFlight)
      (s.count + s.copied.length - s.inFlight) = s.stored ++ s.copied
  given : s.given = s.stored ++ s.rest

/-- The invariant. -/
structure CommInv (s : Globals) : Prop extends FifoInv s where
  triggered : s.Settled → 0 < s.count → s.dma ≠ none

lemma commInv_start : CommInv (commStart memory) := by
  refine ⟨⟨by simp [commStart, txFifoSize], by simp [commStart], rfl, trivial, rfl, rfl, rfl⟩, ?_⟩
  intro _ hcount
  simp [commStart] at hcount

lemma toU16_subU32 {a b : ℕ} (hba : b ≤ a) (ha : a < 65536) : toU16 (subU32 a b) = a - b := by
  unfold toU16 subU32
  omega

/-! ## Starting a transfer -/

/-- `trigger_transmision` starts a transfer of the bytes up to the end of the array when none is
running and there are any. -/
lemma triggerTransmision_cases (hstart : s.start < txFifoSize) (hcount : s.count ≤ txFifoSize) :
    (triggerTransmision s = s ∧ (s.count = 0 ∨ s.currentTXTransactionSize ≠ 0)) ∨
    (0 < s.count ∧ s.currentTXTransactionSize = 0 ∧
      triggerTransmision s =
        { s with
          dma := some { cmar := s.start, cndtr := min (txFifoSize - s.start) s.count
                        transferred := 0 }
          currentTXTransactionSize := min (txFifoSize - s.start) s.count }) := by
  have hbytes : toU16 (min (subU32 txFifoSize s.start) s.count) =
      min (txFifoSize - s.start) s.count := by
    unfold toU16 subU32 txFifoSize at *
    omega
  simp only [triggerTransmision, hbytes]
  by_cases htrigger : 0 < min (txFifoSize - s.start) s.count ∧ s.currentTXTransactionSize = 0
  · exact Or.inr ⟨by omega, htrigger.2, if_pos htrigger⟩
  · refine Or.inl ⟨if_neg htrigger, ?_⟩
    omega

lemma triggerTransmision_sendPc (s : Globals) (pc : SendPc) :
    { triggerTransmision s with sendPc := pc } = triggerTransmision { s with sendPc := pc } := by
  unfold triggerTransmision
  dsimp only
  split <;> rfl

lemma triggerTransmision_inIsr (s : Globals) (b : Bool) :
    { triggerTransmision s with inIsr := b } = triggerTransmision { s with inIsr := b } := by
  unfold triggerTransmision
  dsimp only
  split <;> rfl

/-- Behind `trigger_transmision` a transfer runs if there are bytes in the ring. -/
lemma FifoInv.triggerTransmision (h : FifoInv s) : CommInv (triggerTransmision s) := by
  have hlt := h.start_lt
  have htransfer := h.transfer
  unfold Globals.TransferOk at htransfer
  rcases triggerTransmision_cases h.start_lt h.count_le with ⟨heq, hnot⟩ | ⟨hcount, hsize, heq⟩
  · rw [heq]
    refine ⟨h, fun _ hcount hdma => ?_⟩
    simp only [hdma] at htransfer
    omega
  · -- no transfer is running, so the new one begins where the ring does
    have hdma : s.dma = none := by
      cases hdma : s.dma with
      | none => rfl
      | some d =>
        simp only [hdma] at htransfer
        omega
    have hflight : s.inFlight = 0 := by
      simp [Globals.inFlight, hdma]
    have hcontent := h.content
    rw [hflight] at hcontent
    rw [heq]
    refine ⟨⟨h.start_lt, h.count_le, h.endIndex_eq, h.send, ?_, hcontent, h.given⟩, by simp⟩
    refine ⟨rfl, Nat.zero_add _, ?_, Nat.min_le_right _ _, ?_⟩
    · show 0 < min (txFifoSize - s.start) s.count
      omega
    · show s.start + min (txFifoSize - s.start) s.count ≤ txFifoSize
      omega

/-! ## The steps -/

/-- A call begins. -/
lemma FifoInv.call (h : FifoInv s) (hidle : s.sendPc = .idle) {data : List UInt8}
    (hlen : data.length < 65536) :
    FifoInv { s with sendPc := .loop data 0, given := s.given ++ data } := by
  have hcontent := h.content
  have hgiven := h.given
  simp only [Globals.copied, Globals.rest, hidle] at hcontent hgiven
  refine ⟨h.start_lt, h.count_le, h.endIndex_eq, ⟨hlen, Nat.zero_le _⟩, h.transfer, hcontent, ?_⟩
  show s.given ++ data = s.stored ++ data.drop 0
  rw [hgiven, List.append_nil, List.drop_zero]

lemma FifoInv.endIndex_lt (h : FifoInv s) : s.endIndex < txFifoSize :=
  h.endIndex_eq ▸ Nat.mod_lt _ (by decide)

/-- What the loop stores next is of the data, fits into the ring and does not wrap. -/
lemma FifoInv.elementsToStore_le (h : FifoInv s) {packetLen packetBuffered : ℕ}
    (hlen : packetLen < 65536) (hbuffered : packetBuffered < packetLen) :
    packetBuffered + elementsToStore s packetLen packetBuffered ≤ packetLen ∧
      s.count + elementsToStore s packetLen packetBuffered ≤ txFifoSize ∧
      s.endIndex + elementsToStore s packetLen packetBuffered ≤ txFifoSize := by
  have hcount := h.count_le
  have hend := h.endIndex_lt
  have hn : elementsToStore s packetLen packetBuffered = min (packetLen - packetBuffered)
      (min (txFifoSize - s.endIndex) (txFifoSize - s.count)) := by
    unfold elementsToStore toU16 subU32 txFifoSize at *
    dsimp only
    omega
  omega

/-- The loop begins a `memcpy`. -/
lemma FifoInv.beginStore (h : FifoInv s) {data : List UInt8} {packetBuffered : ℕ}
    (hpc : s.sendPc = .loop data packetBuffered) (hmore : packetBuffered < data.length) :
    FifoInv { s with
      sendPc := .storing data packetBuffered
        (elementsToStore s data.length packetBuffered) 0 } := by
  have hcontent := h.content
  have hgiven := h.given
  have hsend := h.send
  simp only [Globals.copied, Globals.rest, Globals.SendOk, hpc] at hcontent hgiven hsend
  obtain ⟨hdata, hroom, harray⟩ := h.elementsToStore_le hsend.1 hmore
  refine ⟨h.start_lt, h.count_le, h.endIndex_eq, ?_, h.transfer, ?_, hgiven⟩
  · exact ⟨hsend.1, hdata, Nat.zero_le _, hroom, harray⟩
  · show s.sent ++ window txFifoSize s.data (s.start + s.inFlight)
      (s.count + ((data.drop packetBuffered).take 0).length - s.inFlight) =
        s.stored ++ (data.drop packetBuffered).take 0
    simpa using hcontent

/-- The loop ends. -/
lemma FifoInv.endCall (h : FifoInv s) {data : List UInt8} {packetBuffered : ℕ}
    (hpc : s.sendPc = .loop data packetBuffered) (hdone : ¬ packetBuffered < data.length) :
    FifoInv { s with sendPc := .idle } := by
  have hcontent := h.content
  have hgiven := h.given
  simp only [Globals.copied, Globals.rest, hpc] at hcontent hgiven
  refine ⟨h.start_lt, h.count_le, h.endIndex_eq, trivial, h.transfer, hcontent, ?_⟩
  rw [hgiven, List.drop_eq_nil_of_le (by omega)]
  rfl

lemma FifoInv.inFlight_le (h : FifoInv s) : s.inFlight ≤ s.count := by
  have htransfer := h.transfer
  unfold Globals.TransferOk at htransfer
  unfold Globals.inFlight
  cases hdma : s.dma with
  | none => exact Nat.zero_le _
  | some d =>
    simp only [hdma] at htransfer
    show d.transferred ≤ s.count
    omega

/-- One byte of the `memcpy` is written, behind what the ring holds. -/
lemma FifoInv.copy (h : FifoInv s) {data : List UInt8} {packetBuffered n copied : ℕ}
    (hpc : s.sendPc = .storing data packetBuffered n copied) (hcopied : copied < n) :
    FifoInv { s with
      data := Function.update s.data (s.endIndex + copied) (data.getD (packetBuffered + copied) 0)
      sendPc := .storing data packetBuffered n (copied + 1) } := by
  have hcontent := h.content
  have hgiven := h.given
  have hsend := h.send
  have hflight := h.inFlight_le
  simp only [Globals.copied, Globals.rest, Globals.SendOk, hpc] at hcontent hgiven hsend
  obtain ⟨hlen, hdata, -, hroom, harray⟩ := hsend
  refine ⟨h.start_lt, h.count_le, h.endIndex_eq, ⟨hlen, hdata, hcopied, hroom, harray⟩, h.transfer,
    ?_, hgiven⟩
  -- the window grows at its end, and the byte is written at the place behind it
  have htake (k : ℕ) (hk : k ≤ n) : ((data.drop packetBuffered).take k).length = k := by
    rw [List.length_take, List.length_drop]
    omega
  have hsize : s.count + (copied + 1) - s.inFlight = s.count + copied - s.inFlight + 1 := by
    omega
  have hindex : s.endIndex + copied =
      (s.start + s.inFlight + (s.count + copied - s.inFlight)) % txFifoSize := by
    have hend := h.endIndex_eq
    unfold txFifoSize at *
    omega
  have hbyte : (data.drop packetBuffered).take (copied + 1) =
      (data.drop packetBuffered).take copied ++ [data.getD (packetBuffered + copied) 0] := by
    have hlt : copied < (data.drop packetBuffered).length := by
      rw [List.length_drop]
      omega
    have hget : packetBuffered + copied < data.length := by omega
    rw [List.take_succ_eq_append_getElem hlt, List.getElem_drop, List.getD_eq_getElem?_getD,
      List.getElem?_eq_getElem hget, Option.getD_some]
  rw [htake copied hcopied.le] at hcontent
  show s.sent ++ window txFifoSize
      (Function.update s.data (s.endIndex + copied) (data.getD (packetBuffered + copied) 0))
      (s.start + s.inFlight)
      (s.count + ((data.drop packetBuffered).take (copied + 1)).length - s.inFlight) =
    s.stored ++ (data.drop packetBuffered).take (copied + 1)
  rw [htake (copied + 1) hcopied, hsize, hindex, window_push _ _ _ _ (by omega), hbyte,
    ← List.append_assoc, ← List.append_assoc, hcontent]

/-- The end of a section that stores bytes: they are counted. -/
lemma FifoInv.endStore (h : FifoInv s) {data : List UInt8} {packetBuffered n copied : ℕ}
    (hpc : s.sendPc = .storing data packetBuffered n copied) (hcopied : ¬ copied < n) :
    FifoInv { s with
      endIndex := (s.endIndex + n) % txFifoSize
      count := toU16 (s.count + n)
      stored := s.stored ++ (data.drop packetBuffered).take n
      sendPc := .stored data (toU16 (packetBuffered + n)) } := by
  have hcontent := h.content
  have hgiven := h.given
  have hsend := h.send
  have htransfer := h.transfer
  simp only [Globals.copied, Globals.rest, Globals.SendOk, hpc] at hcontent hgiven hsend
  obtain ⟨hlen, hdata, hle, hroom, harray⟩ := hsend
  obtain rfl : copied = n := by omega
  -- neither 16 bit sum wraps: the ring and the call are shorter
  have hcount : toU16 (s.count + copied) = s.count + copied := by
    unfold toU16 txFifoSize at *
    omega
  have hbuffered : toU16 (packetBuffered + copied) = packetBuffered + copied := by
    unfold toU16
    omega
  have htake : ((data.drop packetBuffered).take copied).length = copied := by
    rw [List.length_take, List.length_drop]
    omega
  rw [hcount, hbuffered]
  refine ⟨h.start_lt, hroom, ?_, ⟨hlen, hdata⟩, ?_, ?_, ?_⟩
  · show (s.endIndex + copied) % txFifoSize = (s.start + (s.count + copied)) % txFifoSize
    rw [h.endIndex_eq, Nat.mod_add_mod, Nat.add_assoc]
  · unfold Globals.TransferOk at htransfer ⊢
    cases hdma : s.dma with
    | none => simpa only [hdma] using htransfer
    | some d =>
      simp only [hdma] at htransfer ⊢
      omega
  · rw [htake] at hcontent
    show s.sent ++ window txFifoSize s.data (s.start + s.inFlight)
      (s.count + copied + 0 - s.inFlight) = s.stored ++ (data.drop packetBuffered).take copied ++ []
    rw [Nat.add_zero, List.append_nil, hcontent]
  · show s.given = s.stored ++ (data.drop packetBuffered).take copied ++
      data.drop (packetBuffered + copied)
    rw [hgiven, List.append_assoc, ← List.drop_drop, List.take_append_drop]

/-- The DMA reads the oldest byte that is not in flight. -/
lemma FifoInv.dmaRead (h : FifoInv s) {d : DmaTransfer} (hdma : s.dma = some d)
    (hmore : 0 < d.cndtr) :
    FifoInv { s with
      sent := s.sent ++ [s.data (d.cmar + d.transferred)]
      dma := some { d with cndtr := d.cndtr - 1, transferred := d.transferred + 1 } } := by
  have hcontent := h.content
  have htransfer := h.transfer
  simp only [Globals.inFlight, Globals.TransferOk, hdma] at hcontent htransfer
  obtain ⟨hcmar, hsum, hpos, hcount, harray⟩ := htransfer
  refine ⟨h.start_lt, h.count_le, h.endIndex_eq, h.send, ?_, ?_, h.given⟩
  · exact ⟨hcmar, by dsimp only; omega, hpos, hcount, harray⟩
  · -- the window loses its first byte, which is the one that was read
    have hsize : s.count + s.copied.length - d.transferred =
        s.count + s.copied.length - (d.transferred + 1) + 1 := by
      omega
    have hindex : (s.start + d.transferred) % txFifoSize = s.start + d.transferred := by
      apply Nat.mod_eq_of_lt
      omega
    rw [hsize, window_pop, hindex, ← hcmar] at hcontent
    show s.sent ++ [s.data (d.cmar + d.transferred)] ++ window txFifoSize s.data
      (s.start + (d.transferred + 1)) (s.count + s.copied.length - (d.transferred + 1)) =
        s.stored ++ s.copied
    rw [← window_mod, ← Nat.add_assoc, ← hcmar, List.append_assoc]
    exact hcontent

/-- The interrupt removes the bytes of a complete transfer. -/
lemma FifoInv.remove (h : FifoInv s) {d : DmaTransfer} (hdma : s.dma = some d)
    (hdone : d.cndtr = 0) (hunlocked : s.locked = false) :
    FifoInv { s with
      dma := none
      start := (s.start + s.currentTXTransactionSize) % txFifoSize
      count := toU16 (subU32 s.count s.currentTXTransactionSize)
      currentTXTransactionSize := 0
      inIsr := true } := by
  have hcontent := h.content
  have htransfer := h.transfer
  have hsend := h.send
  have hle := h.count_le
  simp only [Globals.inFlight, Globals.TransferOk, hdma] at hcontent htransfer
  obtain ⟨-, hsum, -, hcount, -⟩ := htransfer
  -- all of the transfer was read, so the ring may forget what it holds of it
  rw [show d.transferred = s.currentTXTransactionSize by omega] at hcontent
  have hsub : toU16 (subU32 s.count s.currentTXTransactionSize) =
      s.count - s.currentTXTransactionSize := by
    apply toU16_subU32 hcount
    unfold txFifoSize at hle
    omega
  -- the interrupt does not come while bytes are stored
  have hcopied : s.copied = [] := by
    unfold Globals.copied
    cases hpc : s.sendPc with
    | storing => simp [Globals.locked, hpc] at hunlocked
    | idle | loop | stored => rfl
  rw [hcopied, List.length_nil] at hcontent
  rw [hsub]
  refine ⟨Nat.mod_lt _ (by decide), by dsimp only; omega, ?_, ?_, rfl, ?_, h.given⟩
  · show s.endIndex = ((s.start + s.currentTXTransactionSize) % txFifoSize +
      (s.count - s.currentTXTransactionSize)) % txFifoSize
    rw [h.endIndex_eq, Nat.mod_add_mod]
    congr 1
    omega
  · unfold Globals.SendOk at hsend ⊢
    cases hpc : s.sendPc with
    | storing => simp [Globals.locked, hpc] at hunlocked
    | idle => trivial
    | loop | stored => simpa only [hpc] using hsend
  · show s.sent ++ window txFifoSize s.data
      ((s.start + s.currentTXTransactionSize) % txFifoSize + 0)
      (s.count - s.currentTXTransactionSize + s.copied.length - 0) = s.stored ++ s.copied
    rw [hcopied, Nat.add_zero, window_mod, List.length_nil, Nat.add_zero, Nat.sub_zero]
    exact hcontent

/-! ## The runs -/

/-- What a step can do. -/
inductive Moves (s : Globals) : CommAction → Globals → Prop
  | call (data : List UInt8) (hidle : s.sendPc = .idle) (hlen : data.length < 65536) :
      Moves s (.call data) { s with sendPc := .loop data 0, given := s.given ++ data }
  | beginStore (data : List UInt8) (packetBuffered : ℕ) (hpc : s.sendPc = .loop data packetBuffered)
      (hmore : packetBuffered < data.length) :
      Moves s .phySendFunction0 { s with
        sendPc := .storing data packetBuffered
          (elementsToStore s data.length packetBuffered) 0 }
  | endCall (data : List UInt8) (packetBuffered : ℕ) (hpc : s.sendPc = .loop data packetBuffered)
      (hdone : ¬ packetBuffered < data.length) :
      Moves s .phySendFunction0 { s with sendPc := .idle }
  | copy (data : List UInt8) (packetBuffered n copied : ℕ)
      (hpc : s.sendPc = .storing data packetBuffered n copied) (hcopied : copied < n) :
      Moves s .phySendFunction0 { s with
        data := Function.update s.data (s.endIndex + copied) (data.getD (packetBuffered + copied) 0)
        sendPc := .storing data packetBuffered n (copied + 1) }
  | endStore (data : List UInt8) (packetBuffered n copied : ℕ)
      (hpc : s.sendPc = .storing data packetBuffered n copied) (hcopied : ¬ copied < n) :
      Moves s .phySendFunction0 { s with
        endIndex := (s.endIndex + n) % txFifoSize
        count := toU16 (s.count + n)
        stored := s.stored ++ (data.drop packetBuffered).take n
        sendPc := .stored data (toU16 (packetBuffered + n)) }
  | trigger (data : List UInt8) (packetBuffered : ℕ)
      (hpc : s.sendPc = .stored data packetBuffered) :
      Moves s .phySendFunction0 { triggerTransmision s with sendPc := .loop data packetBuffered }
  | dmaRead (d : DmaTransfer) (hdma : s.dma = some d) (hmore : 0 < d.cndtr) :
      Moves s .dmaRead { s with
        sent := s.sent ++ [s.data (d.cmar + d.transferred)]
        dma := some { d with cndtr := d.cndtr - 1, transferred := d.transferred + 1 } }
  | remove (d : DmaTransfer) (hdma : s.dma = some d) (hdone : d.cndtr = 0)
      (hunlocked : s.locked = false) :
      Moves s .dma1Ch23Isr { s with
        dma := none
        start := (s.start + s.currentTXTransactionSize) % txFifoSize
        count := toU16 (subU32 s.count s.currentTXTransactionSize)
        currentTXTransactionSize := 0
        inIsr := true }
  | triggerInIsr : Moves s .dma1Ch23Isr { triggerTransmision s with inIsr := false }

lemma moves_of_commStep {a : CommAction} (h : commStep s a = some t) : Moves s a t := by
  cases a with
  | call data =>
    simp only [commStep] at h
    split at h
    · rename_i hcall
      obtain rfl := Option.some.inj h
      exact .call data hcall.1 hcall.2
    · cases h
  | phySendFunction0 =>
    simp only [commStep, phySendFunction0] at h
    cases hpc : s.sendPc with
    | idle => simp only [hpc] at h; cases h
    | loop data packetBuffered =>
      simp only [hpc] at h
      split at h
      · obtain rfl := Option.some.inj h
        exact .beginStore data packetBuffered hpc ‹_›
      · obtain rfl := Option.some.inj h
        exact .endCall data packetBuffered hpc ‹_›
    | storing data packetBuffered n copied =>
      simp only [hpc] at h
      split at h
      · obtain rfl := Option.some.inj h
        exact .copy data packetBuffered n copied hpc ‹_›
      · obtain rfl := Option.some.inj h
        exact .endStore data packetBuffered n copied hpc ‹_›
    | stored data packetBuffered =>
      simp only [hpc] at h
      obtain rfl := Option.some.inj h
      exact .trigger data packetBuffered hpc
  | dmaRead =>
    simp only [commStep, dmaRead] at h
    cases hdma : s.dma with
    | none => simp only [hdma] at h; cases h
    | some d =>
      simp only [hdma] at h
      split at h
      · obtain rfl := Option.some.inj h
        exact .dmaRead d hdma ‹_›
      · cases h
  | dma1Ch23Isr =>
    simp only [commStep] at h
    split at h
    · cases h
    · rename_i hlocked
      split at h
      · obtain rfl := Option.some.inj h
        exact .triggerInIsr
      · simp only [dma1Ch23Isr] at h
        cases hdma : s.dma with
        | none => simp only [hdma] at h; cases h
        | some d =>
          simp only [hdma] at h
          split at h
          · obtain rfl := Option.some.inj h
            exact .remove d hdma ‹_› (Bool.eq_false_of_not_eq_true hlocked)
          · cases h

/-- Every step keeps the invariant. -/
theorem CommInv.step {a : CommAction} (h : CommInv s) (hstep : commStep s a = some t) :
    CommInv t := by
  have hfifo := h.toFifoInv
  -- a step that neither stores nor removes bytes leaves a settled state settled
  have htriggered {pc : SendPc} (hpc : ∀ data packetBuffered, s.sendPc ≠ .stored data packetBuffered)
      (hsettled : s.inIsr = false ∧ ∀ data packetBuffered, pc ≠ .stored data packetBuffered)
      (hcount : 0 < s.count) : s.dma ≠ none :=
    h.triggered ⟨hsettled.1, hpc⟩ hcount
  cases moves_of_commStep hstep with
  | call data hidle hlen =>
    exact ⟨hfifo.call hidle hlen, htriggered (by simp [hidle])⟩
  | beginStore data packetBuffered hpc hmore =>
    exact ⟨hfifo.beginStore hpc hmore, htriggered (by simp [hpc])⟩
  | endCall data packetBuffered hpc hdone =>
    exact ⟨hfifo.endCall hpc hdone, htriggered (by simp [hpc])⟩
  | copy data packetBuffered n copied hpc hcopied =>
    exact ⟨hfifo.copy hpc hcopied, htriggered (by simp [hpc])⟩
  | endStore data packetBuffered n copied hpc hcopied =>
    refine ⟨hfifo.endStore hpc hcopied, fun hsettled _ => ?_⟩
    exact absurd rfl (hsettled.2 data (toU16 (packetBuffered + n)))
  | trigger data packetBuffered hpc =>
    rw [triggerTransmision_sendPc]
    apply FifoInv.triggerTransmision
    have hgiven := hfifo.given
    have hsend := hfifo.send
    have hcontent := hfifo.content
    simp only [Globals.rest, Globals.SendOk, Globals.copied, hpc] at hgiven hsend hcontent
    exact ⟨hfifo.start_lt, hfifo.count_le, hfifo.endIndex_eq, hsend, hfifo.transfer, hcontent, hgiven⟩
  | dmaRead d hdma hmore =>
    exact ⟨hfifo.dmaRead hdma hmore, by simp⟩
  | remove d hdma hdone hunlocked =>
    refine ⟨hfifo.remove hdma hdone hunlocked, fun hsettled => ?_⟩
    cases hsettled.1
  | triggerInIsr =>
    rw [triggerTransmision_inIsr]
    apply FifoInv.triggerTransmision
    exact ⟨hfifo.start_lt, hfifo.count_le, hfifo.endIndex_eq, hfifo.send, hfifo.transfer,
      hfifo.content, hfifo.given⟩

/-- No step writes into the region of the running transfer. -/
lemma CommInv.data_eq {a : CommAction} (h : CommInv s) (hstep : commStep s a = some t)
    {d : DmaTransfer} (hdma : s.dma = some d) {i : ℕ} (hlow : d.cmar ≤ i)
    (hhigh : i < d.cmar + s.currentTXTransactionSize) : t.data i = s.data i := by
  have htrigger (u : Globals) : (triggerTransmision u).data = u.data := by
    unfold triggerTransmision
    dsimp only
    split <;> rfl
  cases moves_of_commStep hstep with
  | copy data packetBuffered n copied hpc hcopied =>
    have htransfer := h.transfer
    have hsend := h.send
    have hend := h.endIndex_eq
    simp only [Globals.TransferOk, Globals.SendOk, hdma, hpc] at htransfer hsend
    apply Function.update_of_ne
    -- the byte goes behind the last one of the ring, the region is at its front
    have hne := place_ne s.start (show i - s.start < s.count + copied by omega)
      (show s.count + copied < txFifoSize by omega)
    intro heq
    apply hne
    unfold txFifoSize at *
    omega
  | trigger | triggerInIsr => exact congrFun (htrigger s) i
  | call | beginStore | endCall | endStore | dmaRead | remove => rfl

lemma CommInv.sent_isPrefix (h : CommInv s) : s.sent <+: s.given := by
  have hcopied : s.copied <+: s.rest := by
    unfold Globals.copied Globals.rest
    cases s.sendPc with
    | storing => exact List.take_prefix _ _
    | idle | loop | stored => exact List.nil_prefix
  rw [h.given]
  have hsent : s.sent <+: s.stored ++ s.copied := ⟨_, h.content⟩
  exact hsent.trans ((List.prefix_append_right_inj s.stored).mpr hcopied)

lemma CommInv.sent_eq (h : CommInv s) (hcount : s.count = 0) : s.sent = s.stored := by
  have hcontent := h.content
  have hflight := h.inFlight_le
  -- with an empty ring the equation of the invariant leaves no room for unsent bytes
  have hlength := congrArg List.length hcontent
  simp only [List.length_append, length_window] at hlength
  have hsent : s.sent <+: s.stored ++ s.copied := ⟨_, hcontent⟩
  have hstored : s.sent <+: s.stored :=
    List.prefix_of_prefix_length_le hsent (List.prefix_append _ _) (by omega)
  exact hstored.eq_of_length (by omega)

/-! ## The interrupt -/

/-- The two steps of the interrupt take the bytes of the complete transfer out of the ring, and start
a transfer of those that are left. -/
def Restarts (s : Globals) : Prop :=
  ∃ t u, commStep s .dma1Ch23Isr = some t ∧ commStep t .dma1Ch23Isr = some u ∧ u.inIsr = false ∧
    0 < s.currentTXTransactionSize ∧ u.count + s.currentTXTransactionSize = s.count ∧
    (0 < u.count → ∃ d, u.dma = some d ∧ 0 < d.cndtr ∧ d.transferred = 0)

/-- A transfer is running: it has bytes left, or its interrupt comes, with the mutex free. -/
def Running (s : Globals) : Prop :=
  ∃ d, s.dma = some d ∧ (0 < d.cndtr ∨ d.cndtr = 0 ∧ (s.locked = false → Restarts s))

/-- With no transfer, `trigger_transmision` starts one of the bytes that are there. -/
lemma triggerTransmision_started (h : FifoInv s) (hsize : s.currentTXTransactionSize = 0) :
    (triggerTransmision s).count = s.count ∧
      (0 < s.count → ∃ d, (triggerTransmision s).dma = some d ∧ 0 < d.cndtr ∧ d.transferred = 0) := by
  have hstart := h.start_lt
  rcases triggerTransmision_cases h.start_lt h.count_le with ⟨heq, hnot⟩ | ⟨hcount, -, heq⟩
  · rw [heq]
    exact ⟨rfl, fun hcount => by omega⟩
  · rw [heq]
    exact ⟨rfl, fun _ => ⟨_, rfl, by dsimp only; omega, rfl⟩⟩

/-- The interrupt up to the unlock takes the bytes of the complete transfer out of the ring. -/
lemma CommInv.removes (h : CommInv s) {d : DmaTransfer} (hdma : s.dma = some d)
    (hdone : d.cndtr = 0) (hisr : s.inIsr = false) (hunlocked : s.locked = false) :
    ∃ t, commStep s .dma1Ch23Isr = some t ∧ t.inIsr = true ∧ t.locked = false ∧
      t.currentTXTransactionSize = 0 ∧ t.count + s.currentTXTransactionSize = s.count := by
  have htransfer := h.transfer
  have hle := h.count_le
  simp only [Globals.TransferOk, hdma] at htransfer
  obtain ⟨-, -, -, hcount, -⟩ := htransfer
  have hsub : toU16 (subU32 s.count s.currentTXTransactionSize) =
      s.count - s.currentTXTransactionSize := by
    apply toU16_subU32 hcount
    unfold txFifoSize at hle
    omega
  simp only [commStep, dma1Ch23Isr, hunlocked, hisr, hdma, hdone, hsub, Bool.false_eq_true,
    ↓reduceIte, Option.some.injEq, exists_eq_left', true_and]
  exact ⟨hunlocked, Nat.sub_add_cancel hcount⟩

/-- The interrupt at the end of a transfer. -/
lemma CommInv.restarts (h : CommInv s) {d : DmaTransfer} (hdma : s.dma = some d)
    (hdone : d.cndtr = 0) (hisr : s.inIsr = false) (hunlocked : s.locked = false) :
    Restarts s := by
  have htransfer := h.transfer
  simp only [Globals.TransferOk, hdma] at htransfer
  obtain ⟨-, -, hpos, -, -⟩ := htransfer
  obtain ⟨t, hremoved, hisr', hunlocked', hsize, hcount⟩ := h.removes hdma hdone hisr hunlocked
  have hrestarted : commStep t .dma1Ch23Isr = some { triggerTransmision t with inIsr := false } := by
    simp only [commStep, hunlocked', hisr', Bool.false_eq_true, ↓reduceIte]
  obtain ⟨hsame, hstarted⟩ := triggerTransmision_started (h.step hremoved).toFifoInv hsize
  exact ⟨t, _, hremoved, hrestarted, rfl, hpos, by rw [hsame, hcount],
    fun hleft => hstarted (hsame ▸ hleft)⟩

lemma CommInv.running (h : CommInv s) (hsettled : s.Settled) (hcount : 0 < s.count) :
    Running s := by
  obtain ⟨d, hdma⟩ := Option.ne_none_iff_exists'.mp (h.triggered hsettled hcount)
  rcases Nat.eq_zero_or_pos d.cndtr with hdone | hmore
  · exact ⟨d, hdma, .inr ⟨hdone, h.restarts hdma hdone hsettled.1⟩⟩
  · exact ⟨d, hdma, .inl hmore⟩

/-! ## What the transmit path guarantees -/

/-- The transmit path in a state: what was sent is what was given and in the same order, the indices
are those of a ring, and a transfer is running whenever there is something to send. -/
structure Transmits (s : Globals) : Prop where
  sent_isPrefix : s.sent <+: s.given
  sent_eq_of_empty : s.count = 0 → s.sent = s.stored
  stored_eq_of_idle : s.sendPc = .idle → s.stored = s.given
  start_lt : s.start < txFifoSize
  endIndex_lt : s.endIndex < txFifoSize
  endIndex_eq : s.endIndex = (s.start + s.count) % txFifoSize
  count_le : s.count ≤ txFifoSize
  /-- the region of the running transfer is in the array -/
  region_le : ∀ d, s.dma = some d →
    d.transferred + d.cndtr = s.currentTXTransactionSize ∧
      d.cmar + s.currentTXTransactionSize ≤ txFifoSize
  /-- no step overwrites the region of the running transfer -/
  region_eq : ∀ d, s.dma = some d → ∀ a t, commStep s a = some t →
    ∀ i, d.cmar ≤ i → i < d.cmar + s.currentTXTransactionSize → t.data i = s.data i
  running : s.Settled → 0 < s.count → Running s

/-- In every run the transmit path sends the bytes that it was given. -/
theorem phySendFunction0_transmits {as : List CommAction}
    (h : exec commStep (commStart memory) as = some s) : Transmits s := by
  have hinv : CommInv s :=
    exec_induction commStep (fun _ _ _ hs hstep => hs.step hstep) commInv_start h
  refine ⟨hinv.sent_isPrefix, hinv.sent_eq, ?_, hinv.start_lt, hinv.endIndex_lt, hinv.endIndex_eq,
    hinv.count_le, ?_, ?_, hinv.running⟩
  · intro hidle
    have hgiven := hinv.given
    simp only [Globals.rest, hidle, List.append_nil] at hgiven
    exact hgiven.symm
  · intro d hdma
    have htransfer := hinv.transfer
    simp only [Globals.TransferOk, hdma] at htransfer
    omega
  · intro d hdma a t hstep i hlow hhigh
    exact hinv.data_eq hstep hdma hlow hhigh

/-- Two bytes are stored while the DMA reads three others. -/
def sendsTwice : List CommAction :=
  List.flatten
    [[.call [7, 8, 9]], List.replicate 6 .phySendFunction0, [.dmaRead, .phySendFunction0, .call [1, 2]],
      List.replicate 6 .phySendFunction0, [.dmaRead, .dmaRead]]

/-- The interrupt starts the transfer of the two, and the DMA reads the first of them. -/
theorem phySendFunction0_transmits_sendsTwice :
    ∃ s t, exec commStep (commStart fun _ => 0) sendsTwice = some s ∧
      s.sent = [7, 8, 9] ∧ s.dma = some ⟨0, 0, 3⟩ ∧ Transmits s ∧
      exec commStep (commStart fun _ => 0)
        (sendsTwice ++ [.dma1Ch23Isr, .dma1Ch23Isr, .dmaRead]) = some t ∧
      t.sent = [7, 8, 9, 1] ∧ t.dma = some ⟨3, 1, 1⟩ ∧ Transmits t := by
  have hfirst : (exec commStep (commStart fun _ => 0) sendsTwice).map
      (fun s => (s.sent, s.dma)) = some ([7, 8, 9], some ⟨0, 0, 3⟩) := by decide +kernel
  have hsecond : (exec commStep (commStart fun _ => 0)
      (sendsTwice ++ [.dma1Ch23Isr, .dma1Ch23Isr, .dmaRead])).map
      (fun t => (t.sent, t.dma)) = some ([7, 8, 9, 1], some ⟨3, 1, 1⟩) := by decide +kernel
  obtain ⟨s, hs, hview⟩ := Option.map_eq_some_iff.mp hfirst
  obtain ⟨t, ht, hview'⟩ := Option.map_eq_some_iff.mp hsecond
  obtain ⟨hsent, hdma⟩ := Prod.mk.inj hview
  obtain ⟨hsent', hdma'⟩ := Prod.mk.inj hview'
  exact ⟨s, t, hs, hsent, hdma, phySendFunction0_transmits hs, ht, hsent', hdma',
    phySendFunction0_transmits ht⟩

end Powerboard.Communication
