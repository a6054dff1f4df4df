import Powerboard.Library.RingBuffer
import Powerboard.MsgPump.Pump

/-!
# What the operations of the message pump do

For each operation one theorem says everything that it can do: `PostOutcome` for
`msgPump_postMessage`, `GetFreeOutcome` for `msgPump_getFreeBuffer`, and `DispatchOutcome` for a step
of the loop of `msgPump_pumpMessage`. Invariants are proved from these.
-/

namespace Powerboard.MsgPump

open RingBuffer

/-! ## Headers -/

namespace MsgHeader

/-- The header of a free element. -/
def free : MsgHeader := { headerMagic := magic, refCnt := 0, flags := .nothing }

/-- The header of an element that `msgPump_getFreeBuffer` has handed out. -/
def reserved : MsgHeader := { headerMagic := magic, refCnt := 1, flags := .inUse }

/-- The header of an element that has just been posted. -/
def posted : MsgHeader := { headerMagic := magic, refCnt := 1, flags := .postedNotDispatched }

lemma isFree_iff {h : MsgHeader} : h.IsFree ↔ h = free := by
  cases h
  simp only [IsFree, free, MsgHeader.mk.injEq]
  tauto

lemma isReserved_iff {h : MsgHeader} : h.IsReserved ↔ h = reserved := by
  cases h
  simp only [IsReserved, reserved, MsgHeader.mk.injEq]
  tauto

end MsgHeader

/-! ## Updates of the state -/

namespace Pump
variable (p : Pump) (e : Elem) (h : MsgHeader) (content : List UInt8) (entry : QueueEntry)

@[simp] lemma setHeader_header : (p.setHeader e h).header = Function.update p.header e h := rfl
@[simp] lemma setHeader_data : (p.setHeader e h).data = p.data := rfl
@[simp] lemma setHeader_callbackVector : (p.setHeader e h).callbackVector = p.callbackVector := rfl
@[simp] lemma setData_header : (p.setData e content).header = p.header := rfl
@[simp] lemma setData_data : (p.setData e content).data = Function.update p.data e content := rfl
@[simp] lemma setData_callbackVector : (p.setData e content).callbackVector = p.callbackVector := rfl
@[simp] lemma enqueue_header : (p.enqueue entry).header = p.header := rfl
@[simp] lemma enqueue_data : (p.enqueue entry).data = p.data := rfl
@[simp] lemma enqueue_callbackVector : (p.enqueue entry).callbackVector = p.callbackVector := rfl

/-- The queued messages, oldest first. -/
def queue : List QueueEntry := window msgQueueMaxSize p.msgQueue p.msgQueueFront p.msgQueueSize

/-- The test for a full queue in `msgPump_postMessage`. -/
def Full : Prop := p.msgQueueFront = p.msgQueueTail ∧ p.msgQueueSize ≠ 0

instance : Decidable p.Full := inferInstanceAs (Decidable (_ ∧ _))

/-- The indices of the ring fit together. -/
structure RingOk : Prop where
  front_lt : p.msgQueueFront < msgQueueMaxSize
  tail_eq : p.msgQueueTail = (p.msgQueueFront + p.msgQueueSize) % msgQueueMaxSize
  size_le : p.msgQueueSize ≤ msgQueueMaxSize

@[simp] lemma queue_setHeader : (p.setHeader e h).queue = p.queue := rfl
@[simp] lemma queue_setData : (p.setData e content).queue = p.queue := rfl
@[simp] lemma length_queue : p.queue.length = p.msgQueueSize := length_window _ _ _

variable {p}

/-- The test for a full queue finds exactly the full queue. -/
lemma RingOk.full_iff (h : p.RingOk) : p.Full ↔ p.msgQueueSize = msgQueueMaxSize := by
  have hring := tail_eq_front_iff h.front_lt h.size_le
  rw [← h.tail_eq] at hring
  constructor
  · rintro ⟨heq, hpos⟩
    exact (hring.mp heq.symm).resolve_left hpos
  · intro hsize
    refine ⟨(hring.mpr (Or.inr hsize)).symm, ?_⟩
    rw [hsize]
    decide

lemma RingOk.size_lt (h : p.RingOk) (hfull : ¬ p.Full) : p.msgQueueSize < msgQueueMaxSize := by
  rw [h.full_iff] at hfull
  exact lt_of_le_of_ne h.size_le hfull

lemma RingOk.enqueue (h : p.RingOk) (hfull : ¬ p.Full) : (p.enqueue entry).RingOk := by
  refine ⟨h.front_lt, ?_, h.size_lt hfull⟩
  show (p.msgQueueTail + 1) % msgQueueMaxSize =
    (p.msgQueueFront + (p.msgQueueSize + 1)) % msgQueueMaxSize
  rw [h.tail_eq, Nat.mod_add_mod, Nat.add_assoc]

lemma RingOk.queue_enqueue (h : p.RingOk) (hfull : ¬ p.Full) :
    (p.enqueue entry).queue = p.queue ++ [entry] := by
  unfold queue Pump.enqueue
  rw [h.tail_eq]
  exact window_push _ _ _ _ (h.size_lt hfull)

/-- The oldest message is at the front index. -/
lemma RingOk.queue_eq_cons (h : p.RingOk) (hsize : p.msgQueueSize ≠ 0) :
    p.queue = p.msgQueue p.msgQueueFront :: p.queue.tail := by
  obtain ⟨n, hn⟩ := Nat.exists_eq_succ_of_ne_zero hsize
  unfold queue
  rw [hn, Nat.succ_eq_add_one, window_pop, Nat.mod_eq_of_lt h.front_lt, List.tail_cons]

/-- A queue with a message in it has a size. -/
lemma size_ne_zero {m : QueueEntry} {rest : List QueueEntry} (hqueue : p.queue = m :: rest) :
    p.msgQueueSize ≠ 0 := by
  rw [← p.length_queue, hqueue]
  simp

/-- The message at the front index is the first of the queue. -/
lemma RingOk.front_eq {m : QueueEntry} {rest : List QueueEntry} (h : p.RingOk)
    (hqueue : p.queue = m :: rest) : p.msgQueue p.msgQueueFront = m := by
  have hcons := h.queue_eq_cons (size_ne_zero hqueue)
  rw [hqueue, List.cons.injEq] at hcons
  exact hcons.1.symm

/-- The update of the indices at the end of a dispatch. -/
def advance (p : Pump) : Pump :=
  { p with
    msgQueueFront := (p.msgQueueFront + 1) % msgQueueMaxSize
    msgQueueSize := p.msgQueueSize - 1 }

lemma queue_advance (hsize : p.msgQueueSize ≠ 0) : p.advance.queue = p.queue.tail := by
  obtain ⟨n, hn⟩ := Nat.exists_eq_succ_of_ne_zero hsize
  unfold queue advance
  simp only [hn, Nat.succ_eq_add_one, Nat.add_sub_cancel]
  rw [window_pop, List.tail_cons]

lemma RingOk.advance (h : p.RingOk) (hsize : p.msgQueueSize ≠ 0) : p.advance.RingOk := by
  have hle := h.size_le
  refine ⟨Nat.mod_lt _ (by decide), ?_, ?_⟩
  · show p.msgQueueTail = ((p.msgQueueFront + 1) % msgQueueMaxSize + (p.msgQueueSize - 1)) %
      msgQueueMaxSize
    rw [h.tail_eq, Nat.mod_add_mod]
    congr 1
    omega
  · show p.msgQueueSize - 1 ≤ msgQueueMaxSize
    omega

end Pump

/-! ## Pointers -/

/-- The pointer is inside the pool, behind the first header. -/
def BufDescription.InPool (d : BufDescription) (ptr : Pointer) : Prop :=
  (msgOverhead : ℤ) ≤ ptr.ptrOffset ∧ ptr.ptrOffset < d.msgAmount * (msgOverhead + d.msgSize)

/-- The pointer is to the element with this index. -/
def BufDescription.PointsTo (d : BufDescription) (ptr : Pointer) (index : ℕ) : Prop :=
  index < d.msgAmount ∧ ptr.ptrOffset = index * (d.msgSize + msgOverhead) + msgOverhead

lemma BufDescription.pointsTo_pointerTo {d : BufDescription} {index : ℕ}
    (h : index < d.msgAmount) (bytes : ℕ → UInt8) : d.PointsTo (d.pointerTo index bytes) index :=
  ⟨h, rfl⟩

/-- A pointer to an element passes the two tests for one, and the index computed is the right one. -/
lemma BufDescription.PointsTo.tests {d : BufDescription} {ptr : Pointer} {index : ℕ}
    (h : d.PointsTo ptr index) :
    d.InPool ptr ∧ ptr.ptrOffset % (d.msgSize + msgOverhead) = msgOverhead ∧
      (ptr.ptrOffset / (d.msgSize + msgOverhead)).toNat = index := by
  obtain ⟨hlt, hoff⟩ := h
  have hpos := d.msgSize_pos
  have hlen : (0 : ℤ) < d.msgSize + msgOverhead := by simp only [msgOverhead]; omega
  have hsmall : (msgOverhead : ℤ) < d.msgSize + msgOverhead := by omega
  have hnonneg : (0 : ℤ) ≤ msgOverhead := by simp
  refine ⟨⟨?_, ?_⟩, ?_, ?_⟩
  · rw [hoff]
    have hprod : (0 : ℤ) ≤ index * (d.msgSize + msgOverhead) := by positivity
    omega
  · rw [hoff]
    calc (index : ℤ) * (d.msgSize + msgOverhead) + msgOverhead
        < index * (d.msgSize + msgOverhead) + (d.msgSize + msgOverhead) := by omega
      _ = (index + 1) * (d.msgSize + msgOverhead) := by ring
      _ ≤ d.msgAmount * (d.msgSize + msgOverhead) := by
          apply mul_le_mul_of_nonneg_right _ hlen.le
          exact_mod_cast hlt
      _ = d.msgAmount * (msgOverhead + d.msgSize) := by ring
  · rw [hoff, Int.mul_add_emod_self_right, Int.emod_eq_of_lt hnonneg hsmall]
  · rw [hoff, Int.mul_add_ediv_right _ _ hlen.ne', Int.ediv_eq_zero_of_lt hnonneg hsmall, add_zero,
      Int.toNat_natCast]

lemma BufDescription.PointsTo.unique {d : BufDescription} {ptr : Pointer} {i j : ℕ}
    (hi : d.PointsTo ptr i) (hj : d.PointsTo ptr j) : i = j := by
  rw [← hi.tests.2.2, ← hj.tests.2.2]

/-- A pointer inside the pool that passes the test for an element points to one. -/
lemma BufDescription.pointsTo_of_tests {d : BufDescription} {ptr : Pointer} (hin : d.InPool ptr)
    (hmod : ptr.ptrOffset % (d.msgSize + msgOverhead) = msgOverhead) :
    d.PointsTo ptr (ptr.ptrOffset / (d.msgSize + msgOverhead)).toNat := by
  have hlen : (0 : ℤ) < d.msgSize + msgOverhead := by simp only [msgOverhead]; omega
  have hdiv := Int.mul_ediv_add_emod ptr.ptrOffset (d.msgSize + msgOverhead)
  rw [hmod] at hdiv
  set q := ptr.ptrOffset / ((d.msgSize : ℤ) + msgOverhead) with hq
  have hq0 : 0 ≤ q := by
    apply Int.ediv_nonneg _ hlen.le
    have hmin := hin.1
    simp only [msgOverhead] at hmin
    omega
  -- the element does not begin behind the pool, so its number is below the amount
  have hqlt : q < d.msgAmount := by
    have hmax := hin.2
    have hoverhead : (0 : ℤ) ≤ msgOverhead := by simp
    have hmul : ((d.msgSize : ℤ) + msgOverhead) * q <
        (d.msgSize + msgOverhead) * d.msgAmount := by
      calc ((d.msgSize : ℤ) + msgOverhead) * q
          ≤ (d.msgSize + msgOverhead) * q + msgOverhead := by omega
        _ = ptr.ptrOffset := hdiv
        _ < d.msgAmount * (msgOverhead + d.msgSize) := hmax
        _ = (d.msgSize + msgOverhead) * d.msgAmount := by ring
    exact lt_of_mul_lt_mul_left hmul hlen.le
  refine ⟨by omega, ?_⟩
  rw [Int.toNat_of_nonneg hq0, ← hdiv]
  ring

/-! ## What a post can do -/

variable {t : BufTable} {p : Pump} {d : BufDescription} {id : MsgId} {ptr : Pointer}

/-- The queue entry of an element. -/
def entryOf (d : BufDescription) (e : Elem) : QueueEntry :=
  { id := e.id, buffer := some e, bufferDescription := some d }

@[simp] lemma entryOf_buffer (d : BufDescription) (e : Elem) : (entryOf d e).buffer = some e := rfl
@[simp] lemma entryOf_id (d : BufDescription) (e : Elem) : (entryOf d e).id = e.id := rfl

/-- The bytes copied from a pointer. -/
def copied (d : BufDescription) (ptr : Pointer) : List UInt8 := (List.range d.msgSize).map ptr.bytes

/-- Everything that a post of a pointer that is not null, with a declared id, can do. -/
inductive PostOutcome (d : BufDescription) (p : Pump) (id : MsgId) (ptr : Pointer) :
    Bool × Pump → Prop
  | full (hfull : p.Full) : PostOutcome d p id ptr (false, p)
  | misaligned (hroom : ¬ p.Full) (hin : d.InPool ptr) (hno : ∀ i, ¬ d.PointsTo ptr i) :
      PostOutcome d p id ptr (false, p)
  | reserved (i : ℕ) (hroom : ¬ p.Full) (hptr : d.PointsTo ptr i)
      (hheader : p.header ⟨id, i⟩ = .reserved) :
      PostOutcome d p id ptr (true, (p.setHeader ⟨id, i⟩ .posted).enqueue (entryOf d ⟨id, i⟩))
  | recovered (i : ℕ) (hroom : ¬ p.Full) (hptr : d.PointsTo ptr i)
      (hheader : p.header ⟨id, i⟩ ≠ .reserved) :
      PostOutcome d p id ptr (false, p.setHeader ⟨id, i⟩ .free)
  | copied (i : ℕ) (hroom : ¬ p.Full) (hout : ¬ d.InPool ptr) (hi : i < d.msgAmount)
      (hheader : p.header ⟨id, i⟩ = .free) :
      PostOutcome d p id ptr (true, ((p.setHeader ⟨id, i⟩ .posted).setData ⟨id, i⟩
        (copied d ptr)).enqueue (entryOf d ⟨id, i⟩))
  | noneFree (hroom : ¬ p.Full) (hout : ¬ d.InPool ptr)
      (hnone : ∀ i < d.msgAmount, p.header ⟨id, i⟩ ≠ .free) : PostOutcome d p id ptr (false, p)

/-- A post of a reserved element queues it, or finds the queue full. -/
lemma PostOutcome.of_reserved {e : Elem} {r : Bool × Pump} (hr : PostOutcome d p e.id ptr r)
    (hptr : d.PointsTo ptr e.index) (hheader : p.header e = .reserved) :
    r = (true, (p.setHeader e .posted).enqueue (entryOf d e)) ∧ ¬ p.Full ∨
      r = (false, p) ∧ p.Full := by
  cases hr with
  | full hfull => exact .inr ⟨rfl, hfull⟩
  | misaligned _ _ hno => exact absurd hptr (hno e.index)
  | copied _ _ hout => exact absurd hptr.tests.1 hout
  | noneFree _ hout => exact absurd hptr.tests.1 hout
  | recovered i _ hptr' hheader' =>
    rw [hptr'.unique hptr] at hheader'
    exact absurd hheader hheader'
  | reserved i hroom hptr' =>
    obtain rfl := hptr'.unique hptr
    exact .inl ⟨rfl, hroom⟩

/-- A free element can be locked. -/
lemma lockMessage_of_free {e : Elem} (he : p.header e = .free) :
    lockMessage p (some e) =
      (true, p.setHeader e { headerMagic := magic, refCnt := 1, flags := .nothing }) := by
  simp only [lockMessage, he, MsgHeader.free]
  rfl

/-- A loop that ends at the first element with a property. -/
lemma search_outcome {α β : Type} {P : α → Prop} {f : List α → β} {found : α → β} {notFound : β}
    (hnil : f [] = notFound) (hhit : ∀ a rest, P a → f (a :: rest) = found a)
    (hmiss : ∀ a rest, ¬ P a → f (a :: rest) = f rest) (l : List α) :
    (∃ a ∈ l, P a ∧ f l = found a) ∨ ((∀ a ∈ l, ¬ P a) ∧ f l = notFound) := by
  induction l with
  | nil => exact Or.inr ⟨by simp, hnil⟩
  | cons a rest ih =>
    by_cases ha : P a
    · exact Or.inl ⟨a, List.mem_cons_self, ha, hhit a rest ha⟩
    · rw [hmiss a rest ha]
      rcases ih with ⟨b, hb, hfound⟩ | ⟨hnone, heq⟩
      · exact Or.inl ⟨b, List.mem_cons_of_mem a hb, hfound⟩
      · exact Or.inr ⟨List.forall_mem_cons.mpr ⟨ha, hnone⟩, heq⟩

/-- The element that a message is copied into does not depend on the message. -/
lemma postCopy_outcome (indices : List ℕ) :
    (∃ i ∈ indices, p.header ⟨id, i⟩ = .free ∧ ∀ ptr : Pointer,
        postCopy d p id ptr.bytes indices =
          (true, ((p.setHeader ⟨id, i⟩ .posted).setData ⟨id, i⟩ (copied d ptr)).enqueue
            (entryOf d ⟨id, i⟩))) ∨
      ((∀ i ∈ indices, p.header ⟨id, i⟩ ≠ .free) ∧
        ∀ ptr : Pointer, postCopy d p id ptr.bytes indices = (false, p)) := by
  have houtcome := @search_outcome ℕ (Pointer → Bool × Pump) (fun i => p.header ⟨id, i⟩ = .free)
    (fun l ptr => postCopy d p id ptr.bytes l)
    (fun i ptr => (true, ((p.setHeader ⟨id, i⟩ .posted).setData ⟨id, i⟩ (copied d ptr)).enqueue
      (entryOf d ⟨id, i⟩)))
    (fun _ => (false, p)) rfl
  refine (houtcome ?_ ?_ indices).imp ?_ ?_
  · intro i rest hfree
    funext ptr
    rw [postCopy, if_pos (MsgHeader.isFree_iff.mpr hfree), lockMessage_of_free hfree]
    simp [Pump.setHeader, MsgHeader.posted, copied, entryOf]
  · intro i rest hnot
    funext ptr
    rw [postCopy, if_neg (mt MsgHeader.isFree_iff.mp hnot)]
  · rintro ⟨i, hi, hfree, heq⟩
    exact ⟨i, hi, hfree, congrFun heq⟩
  · rintro ⟨hnone, heq⟩
    exact ⟨hnone, congrFun heq⟩

/-- The test against the table finds the description of a declared id. -/
lemma BufTable.lookup_eq (hd : t.messageBuffers id = some d) :
    id < lastId ∧ t.lookup id = .ok (some d) ∧ id = d.id := by
  have hrange := t.id_range id d hd
  exact ⟨hrange.2, by rw [BufTable.lookup, if_pos hrange, hd], (t.id_eq id d hd).symm⟩

/-- A post with a declared id, when there is room in the queue. -/
lemma postMessage_of_room (hd : t.messageBuffers id = some d) (hroom : ¬ p.Full) (ptr : Pointer) :
    postMessage t p id (some ptr) = .ok (postPointer d p id ptr) := by
  obtain ⟨hlast, hlookup, hid⟩ := t.lookup_eq hd
  unfold postMessage
  rw [if_neg (show ¬ (p.msgQueueFront = p.msgQueueTail ∧ p.msgQueueSize ≠ 0) from hroom),
    if_pos hlast, hlookup]
  exact if_pos hid

/-- The pointer to a variable of the caller: the message is copied. -/
lemma postMessage_of_notInPool (hd : t.messageBuffers id = some d) (hroom : ¬ p.Full)
    {ptr : Pointer} (hout : ¬ d.InPool ptr) :
    postMessage t p id (some ptr) =
      .ok (postCopy d p id ptr.bytes (List.range d.msgAmount)) := by
  rw [postMessage_of_room hd hroom, postPointer]
  exact congrArg Except.ok (if_neg hout)

/-- A post with a declared id does one of these things, and never faults. -/
theorem postMessage_outcome (p : Pump) (ptr : Pointer) (hd : t.messageBuffers id = some d) :
    ∃ r, postMessage t p id (some ptr) = .ok r ∧ PostOutcome d p id ptr r := by
  by_cases hfull : p.Full
  · exact ⟨_, if_pos hfull, .full hfull⟩
  refine ⟨_, postMessage_of_room hd hfull ptr, ?_⟩
  unfold postPointer
  dsimp only
  split
  · rename_i hin
    split
    · rename_i hmod
      -- the branches of `postPointer`: inside the pool at an element, between two, and outside
      have hptr := d.pointsTo_of_tests hin hmod
      unfold postReserved
      split
      · rename_i hreserved
        have hheader := MsgHeader.isReserved_iff.mp hreserved
        rw [hheader]
        exact .reserved _ hfull hptr hheader
      · rename_i hreserved
        exact .recovered _ hfull hptr (mt MsgHeader.isReserved_iff.mpr hreserved)
    · rename_i hmod
      exact .misaligned hfull hin fun i hi => hmod hi.tests.2.1
  · rename_i hout
    rcases postCopy_outcome (p := p) (d := d) (List.range d.msgAmount) with
      ⟨i, hi, hfree, heq⟩ | ⟨hnone, heq⟩
    · rw [heq ptr]
      exact .copied i hfull hout (List.mem_range.mp hi) hfree
    · rw [heq ptr]
      exact .noneFree hfull hout fun i hi => hnone i (List.mem_range.mpr hi)

/-- A post that does not fault has a declared id, or does nothing. -/
lemma postMessage_cases {r : Bool × Pump} (h : postMessage t p id (some ptr) = .ok r) :
    (∃ d, t.messageBuffers id = some d ∧ PostOutcome d p id ptr r) ∨ r = (false, p) := by
  cases hd : t.messageBuffers id with
  | some d =>
    obtain ⟨r', hr', houtcome⟩ := postMessage_outcome p ptr hd
    rw [h, Except.ok.injEq] at hr'
    exact Or.inl ⟨d, rfl, hr' ▸ houtcome⟩
  | none =>
    right
    unfold postMessage BufTable.lookup at h
    rw [hd] at h
    split_ifs at h <;> simp_all

/-! ## What a reservation can do -/

/-- Everything that `msgPump_getFreeBuffer` can do. -/
inductive GetFreeOutcome (d : BufDescription) (p : Pump) (id : MsgId) : Option Elem × Pump → Prop
  | reserved (i : ℕ) (hi : i < d.msgAmount) (hheader : p.header ⟨id, i⟩ = .free) :
      GetFreeOutcome d p id (some ⟨id, i⟩, p.setHeader ⟨id, i⟩ .reserved)
  | noneFree (hnone : ∀ i < d.msgAmount, p.header ⟨id, i⟩ ≠ .free) :
      GetFreeOutcome d p id (none, p)

lemma getFree_of_free {i : ℕ} (rest : List ℕ) (hfree : p.header ⟨id, i⟩ = .free) :
    getFree p id (i :: rest) = (some ⟨id, i⟩, p.setHeader ⟨id, i⟩ .reserved) := by
  rw [getFree, if_pos (MsgHeader.isFree_iff.mpr hfree), lockMessage_of_free hfree]
  simp [Pump.setHeader, MsgHeader.reserved]

lemma getFree_outcome (indices : List ℕ) :
    (∃ i ∈ indices, p.header ⟨id, i⟩ = .free ∧
        getFree p id indices = (some ⟨id, i⟩, p.setHeader ⟨id, i⟩ .reserved)) ∨
      ((∀ i ∈ indices, p.header ⟨id, i⟩ ≠ .free) ∧ getFree p id indices = (none, p)) := by
  apply search_outcome
  · rfl
  · intro i rest hfree
    exact getFree_of_free rest hfree
  · intro i rest hnot
    rw [getFree, if_neg (mt MsgHeader.isFree_iff.mp hnot)]

/-- A reservation for a declared id that is not the first one does one of these things. -/
theorem getFreeBuffer_outcome (hd : t.messageBuffers id = some d) (hid : systemFirstId < id) :
    ∃ r, getFreeBuffer t p id = .ok r ∧ GetFreeOutcome d p id r := by
  obtain ⟨hlast, hlookup, -⟩ := t.lookup_eq hd
  have hget : getFreeBuffer t p id = .ok (getFree p id (List.range d.msgAmount)) := by
    unfold getFreeBuffer
    rw [if_pos ⟨hlast, hid⟩, hlookup]
  refine ⟨_, hget, ?_⟩
  rcases getFree_outcome (p := p) (List.range d.msgAmount) with
    ⟨i, hi, hfree, heq⟩ | ⟨hnone, heq⟩
  · rw [heq]
    exact .reserved i (List.mem_range.mp hi) hfree
  · rw [heq]
    exact .noneFree fun i hi => hnone i (List.mem_range.mpr hi)

lemma getFreeBuffer_cases {r : Option Elem × Pump} (h : getFreeBuffer t p id = .ok r) :
    (∃ d, t.messageBuffers id = some d ∧ GetFreeOutcome d p id r) ∨ r = (none, p) := by
  by_cases hid : systemFirstId < id
  · cases hd : t.messageBuffers id with
    | some d =>
      obtain ⟨r', hr', houtcome⟩ := getFreeBuffer_outcome (p := p) hd hid
      rw [h, Except.ok.injEq] at hr'
      exact Or.inl ⟨d, rfl, hr' ▸ houtcome⟩
    | none =>
      right
      unfold getFreeBuffer BufTable.lookup at h
      rw [hd] at h
      split_ifs at h <;> simp_all
  · right
    unfold getFreeBuffer at h
    rw [if_neg fun hboth => hid hboth.2, Except.ok.injEq] at h
    exact h.symm

/-! ## What no operation changes -/

lemma PostOutcome.callbackVector {r : Bool × Pump} (h : PostOutcome d p id ptr r) :
    r.2.callbackVector = p.callbackVector := by
  cases h <;> rfl

lemma GetFreeOutcome.callbackVector {r : Option Elem × Pump} (h : GetFreeOutcome d p id r) :
    r.2.callbackVector = p.callbackVector := by
  cases h <;> rfl

lemma GetFreeOutcome.data {r : Option Elem × Pump} (h : GetFreeOutcome d p id r) :
    r.2.data = p.data := by
  cases h <;> rfl

@[simp] lemma setBufferFlag_callbackVector (buffer : Option Elem) (flag : Flag) :
    (setBufferFlag p buffer flag).callbackVector = p.callbackVector := by
  cases buffer <;> rfl

@[simp] lemma setBufferFlag_data (buffer : Option Elem) (flag : Flag) :
    (setBufferFlag p buffer flag).data = p.data := by
  cases buffer <;> rfl

@[simp] lemma lockMessage_callbackVector (e : Option Elem) :
    (lockMessage p e).2.callbackVector = p.callbackVector := by
  cases e with
  | none => rfl
  | some e =>
    unfold lockMessage
    dsimp only
    split <;> rfl

@[simp] lemma lockMessage_data (e : Option Elem) : (lockMessage p e).2.data = p.data := by
  unfold lockMessage
  split
  · dsimp only
    split <;> rfl
  · rfl

@[simp] lemma unlockMessage_callbackVector (e : Option Elem) :
    (unlockMessage p e).2.callbackVector = p.callbackVector := by
  cases e with
  | none => rfl
  | some e =>
    unfold unlockMessage
    dsimp only
    split <;> rfl

@[simp] lemma unlockMessage_data (e : Option Elem) : (unlockMessage p e).2.data = p.data := by
  cases e with
  | none => rfl
  | some e =>
    unfold unlockMessage
    dsimp only
    split <;> rfl

/-! ## Well-formed states -/

/-- A queue entry has a declared id, the description of that id, and a null pointer or an element of
that pool. -/
def EntryOk (t : BufTable) (m : QueueEntry) : Prop :=
  ∃ d, t.messageBuffers m.id = some d ∧ m.bufferDescription = some d ∧
    ∀ e, m.buffer = some e → e.id = m.id ∧ e.index < d.msgAmount

/-- The ring and the loop fit together. -/
structure WellFormed (t : BufTable) (s : PumpState) : Prop where
  ring : s.pump.RingOk
  entries : ∀ m ∈ s.pump.queue, EntryOk t m
  busy : s.pc ≠ .waiting → s.pump.msgQueueSize ≠ 0
  calling : ∀ i, s.pc = .calling i → i ≤ maxReceivers

/-- Nothing but a post and the end of a dispatch changes the ring. -/
structure SameRing (p p' : Pump) : Prop where
  front : p'.msgQueueFront = p.msgQueueFront
  tail : p'.msgQueueTail = p.msgQueueTail
  size : p'.msgQueueSize = p.msgQueueSize
  msgQueue : p'.msgQueue = p.msgQueue

lemma SameRing.queue {p p' : Pump} (h : SameRing p p') : p'.queue = p.queue := by
  unfold Pump.queue
  rw [h.front, h.size, h.msgQueue]

lemma SameRing.ringOk {p p' : Pump} (h : SameRing p p') (hp : p.RingOk) : p'.RingOk :=
  ⟨by rw [h.front]; exact hp.front_lt, by rw [h.tail, h.front, h.size]; exact hp.tail_eq,
    by rw [h.size]; exact hp.size_le⟩

/-- A post appends its entry to the queue. -/
lemma WellFormed.queue_enqueue {s : PumpState} {p' : Pump} {m : QueueEntry} (h : WellFormed t s)
    (hring : SameRing s.pump p') (hroom : ¬ s.pump.Full) :
    (p'.enqueue m).queue = s.pump.queue ++ [m] := by
  have hroom' : ¬ p'.Full := by
    unfold Pump.Full at hroom ⊢
    rwa [hring.front, hring.tail, hring.size]
  rw [(hring.ringOk h.ring).queue_enqueue m hroom', hring.queue]

/-- While the front is dispatched, a post appends to what is behind it. -/
lemma WellFormed.tail_queue_enqueue {s : PumpState} {p' : Pump} {m : QueueEntry}
    (h : WellFormed t s) (hring : SameRing s.pump p') (hroom : ¬ s.pump.Full)
    (hbusy : s.pc ≠ .waiting) : (p'.enqueue m).queue.tail = s.pump.queue.tail ++ [m] := by
  rw [h.queue_enqueue hring hroom, h.ring.queue_eq_cons (h.busy hbusy)]
  rfl

lemma sameRing_setHeader (e : Elem) (h : MsgHeader) : SameRing p (p.setHeader e h) :=
  ⟨rfl, rfl, rfl, rfl⟩

lemma sameRing_setData (e : Elem) (content : List UInt8) : SameRing p (p.setData e content) :=
  ⟨rfl, rfl, rfl, rfl⟩

lemma sameRing_setBufferFlag (buffer : Option Elem) (flag : Flag) :
    SameRing p (setBufferFlag p buffer flag) := by
  cases buffer <;> exact ⟨rfl, rfl, rfl, rfl⟩

lemma sameRing_lockMessage (e : Option Elem) : SameRing p (lockMessage p e).2 := by
  cases e with
  | none => exact ⟨rfl, rfl, rfl, rfl⟩
  | some e =>
    unfold lockMessage
    dsimp only
    split <;> exact ⟨rfl, rfl, rfl, rfl⟩

lemma sameRing_unlockMessage (e : Option Elem) : SameRing p (unlockMessage p e).2 := by
  cases e with
  | none => exact ⟨rfl, rfl, rfl, rfl⟩
  | some e =>
    unfold unlockMessage
    dsimp only
    split <;> exact ⟨rfl, rfl, rfl, rfl⟩

lemma SameRing.trans {p p' p'' : Pump} (h : SameRing p p') (h' : SameRing p' p'') :
    SameRing p p'' :=
  ⟨h'.front.trans h.front, h'.tail.trans h.tail, h'.size.trans h.size,
    h'.msgQueue.trans h.msgQueue⟩

lemma GetFreeOutcome.sameRing {r : Option Elem × Pump} (h : GetFreeOutcome d p id r) :
    SameRing p r.2 := by
  cases h with
  | reserved => exact sameRing_setHeader _ _
  | noneFree => exact ⟨rfl, rfl, rfl, rfl⟩

section WellFormed
variable {s : PumpState}

lemma wellFormed_initial (callbackVector : MsgId → ℕ → Option Callback)
    (data : Elem → List UInt8) : WellFormed t (initial callbackVector data) := by
  refine ⟨⟨?_, rfl, ?_⟩, ?_, ?_, ?_⟩
  · show 0 < msgQueueMaxSize
    decide
  · show 0 ≤ msgQueueMaxSize
    omega
  · intro m hm
    simp [initial, Pump.queue] at hm
  · intro hpc
    exact absurd rfl hpc
  · intro i hpc
    simp [initial] at hpc

lemma WellFormed.of_sameRing {p' : Pump} (h : WellFormed t s) (hring : SameRing s.pump p') :
    WellFormed t { s with pump := p' } :=
  ⟨hring.ringOk h.ring, by rw [hring.queue]; exact h.entries,
    fun hpc => by rw [hring.size]; exact h.busy hpc, h.calling⟩

lemma WellFormed.enqueue {p' : Pump} {m : QueueEntry} (h : WellFormed t s)
    (hring : SameRing s.pump p') (hroom : ¬ s.pump.Full) (hm : EntryOk t m) :
    WellFormed t { s with pump := p'.enqueue m } := by
  have hroom' : ¬ p'.Full := by
    unfold Pump.Full at hroom ⊢
    rwa [hring.front, hring.tail, hring.size]
  refine ⟨(hring.ringOk h.ring).enqueue m hroom', ?_, ?_, h.calling⟩
  · intro m' hm'
    rw [(hring.ringOk h.ring).queue_enqueue m hroom', hring.queue, List.mem_append,
      List.mem_singleton] at hm'
    rcases hm' with hm' | rfl
    · exact h.entries m' hm'
    · exact hm
  · intro _
    exact Nat.succ_ne_zero _

lemma entryOk_entryOf (hd : t.messageBuffers id = some d) {i : ℕ} (hi : i < d.msgAmount) :
    EntryOk t (entryOf d ⟨id, i⟩) := by
  refine ⟨d, hd, rfl, ?_⟩
  intro e he
  rw [entryOf, Option.some.injEq] at he
  subst he
  exact ⟨rfl, hi⟩

/-- A post keeps the state well formed. -/
lemma WellFormed.post {r : Bool × Pump} (h : WellFormed t s) (hd : t.messageBuffers id = some d)
    (hr : PostOutcome d s.pump id ptr r) : WellFormed t { s with pump := r.2 } := by
  cases hr with
  | full => exact h
  | misaligned => exact h
  | noneFree => exact h
  | reserved i hroom hptr =>
    exact h.enqueue (sameRing_setHeader _ _) hroom (entryOk_entryOf hd hptr.1)
  | recovered i => exact h.of_sameRing (sameRing_setHeader _ _)
  | copied i hroom _ hi =>
    apply h.enqueue _ hroom (entryOk_entryOf hd hi)
    exact (sameRing_setHeader _ _).trans (sameRing_setData _ _)

/-- A post queues an entry for its message, or none. -/
lemma PostOutcome.queue {r : Bool × Pump} (hr : PostOutcome d s.pump id ptr r)
    (h : WellFormed t s) :
    r.2.queue = s.pump.queue ∨ ∃ i, r.2.queue = s.pump.queue ++ [entryOf d ⟨id, i⟩] := by
  cases hr with
  | full | misaligned | noneFree => exact Or.inl rfl
  | recovered i => exact Or.inl (sameRing_setHeader _ _).queue
  | reserved i hroom => exact Or.inr ⟨i, h.queue_enqueue (sameRing_setHeader _ _) hroom⟩
  | copied i hroom =>
    have hring := (sameRing_setHeader (p := s.pump) ⟨id, i⟩ .posted).trans
      (sameRing_setData ⟨id, i⟩ (MsgPump.copied d ptr))
    exact Or.inr ⟨i, h.queue_enqueue hring hroom⟩

/-- A post writes to the pool of its message only. -/
lemma PostOutcome.data_of_ne {r : Bool × Pump} {e : Elem} (hr : PostOutcome d p id ptr r)
    (he : e.id ≠ id) : r.2.data e = p.data e := by
  cases hr with
  | copied i =>
    have hne : e ≠ ⟨id, i⟩ := by
      rintro rfl
      exact he rfl
    exact Function.update_of_ne hne _ _
  | _ => rfl

/-! ## What a step of the loop can do -/

/-- Everything that a step of the loop of `msgPump_pumpMessage` can do. `m` is the message at the
front of the queue. -/
inductive DispatchOutcome (t : BufTable) (s : PumpState) : PumpState × Option Call → Prop
  | idle (hpc : s.pc = .waiting) (hsize : s.pump.msgQueueSize = 0) : DispatchOutcome t s (s, none)
  | start (m : QueueEntry) (rest : List QueueEntry) (hpc : s.pc = .waiting)
      (hqueue : s.pump.queue = m :: rest) :
      DispatchOutcome t s
        ({ pump := setBufferFlag s.pump m.buffer .inUse, pc := .calling 0 }, none)
  | call (m : QueueEntry) (rest : List QueueEntry) (i : ℕ) (hpc : s.pc = .calling i)
      (hi : i < maxReceivers) (hqueue : s.pump.queue = m :: rest) :
      DispatchOutcome t s ({ s with pc := .calling (i + 1) },
        (s.pump.callbackVector m.id i).map fun callback =>
          { callback := callback, id := m.id, content := m.buffer.map s.pump.data })
  | returned (m : QueueEntry) (rest : List QueueEntry) (hpc : s.pc = .calling maxReceivers)
      (hqueue : s.pump.queue = m :: rest) :
      DispatchOutcome t s
        ({ pump := setBufferFlag s.pump m.buffer .nothing, pc := .cleared }, none)
  | unlock (m : QueueEntry) (rest : List QueueEntry) (hpc : s.pc = .cleared)
      (hqueue : s.pump.queue = m :: rest) :
      DispatchOutcome t s ({ pump := (unlockMessage s.pump m.buffer).2, pc := .unlocked }, none)
  | finish (m : QueueEntry) (rest : List QueueEntry) (hpc : s.pc = .unlocked)
      (hqueue : s.pump.queue = m :: rest) :
      DispatchOutcome t s ({ pump := s.pump.advance, pc := .waiting }, none)

/-- In a well-formed state a step of the loop does one of these things, and never faults. -/
theorem dispatch_outcome (h : WellFormed t s) : ∃ r, dispatch s = .ok r ∧ DispatchOutcome t s r := by
  by_cases hsize : s.pump.msgQueueSize = 0
  · have hpc : s.pc = .waiting := by
      by_contra hpc
      exact h.busy hpc hsize
    exact ⟨_, by simp [dispatch, hpc, hsize], .idle hpc hsize⟩
  have hqueue := h.ring.queue_eq_cons hsize
  obtain ⟨d, hd, hdescription, -⟩ := h.entries _ (hqueue ▸ List.mem_cons_self)
  cases hpc : s.pc with
  | waiting => exact ⟨_, by simp [dispatch, hpc, hsize], .start _ _ hpc hqueue⟩
  | calling i =>
    by_cases hi : i < maxReceivers
    · -- the callbacks are those of the description, which is the one of the id
      refine ⟨_, ?_, .call _ _ i hpc hi hqueue⟩
      rw [← t.id_eq _ _ hd]
      simp [dispatch, hpc, hi, hdescription]
    · have heq : i = maxReceivers := Nat.le_antisymm (h.calling i hpc) (Nat.le_of_not_lt hi)
      subst heq
      exact ⟨_, by simp [dispatch, hpc], .returned _ _ hpc hqueue⟩
  | cleared => exact ⟨_, by simp [dispatch, hpc], .unlock _ _ hpc hqueue⟩
  | unlocked => exact ⟨_, by simp [dispatch, hpc, Pump.advance], .finish _ _ hpc hqueue⟩

/-- What is called is a callback of the message at the front. -/
lemma DispatchOutcome.of_call {r : PumpState × Option Call} {call : Call}
    (hr : DispatchOutcome t s r) (hcall : r.2 = some call) :
    ∃ i m rest, s.pc = .calling i ∧ i < maxReceivers ∧ s.pump.queue = m :: rest ∧
      s.pump.callbackVector m.id i = some call.callback ∧ call.id = m.id ∧
      call.content = m.buffer.map s.pump.data ∧ r.1 = { s with pc := .calling (i + 1) } := by
  cases hr with
  | call m rest i hpc hi hqueue =>
    obtain ⟨c, hc, rfl⟩ := Option.map_eq_some_iff.mp hcall
    exact ⟨i, m, rest, hpc, hi, hqueue, hc, rfl, rfl, rfl⟩
  | _ => cases hcall

lemma DispatchOutcome.callbackVector {r : PumpState × Option Call} (hr : DispatchOutcome t s r) :
    r.1.pump.callbackVector = s.pump.callbackVector := by
  cases hr <;> simp [Pump.advance]

lemma DispatchOutcome.data {r : PumpState × Option Call} (hr : DispatchOutcome t s r) :
    r.1.pump.data = s.pump.data := by
  cases hr <;> simp [Pump.advance]

/-- A step that leaves the ring as it is, while there is a message at the front. -/
lemma WellFormed.setPc {p' : Pump} {pc' : DispatchPc} (h : WellFormed t s)
    (hring : SameRing s.pump p') (hsize : s.pump.msgQueueSize ≠ 0)
    (hcalling : ∀ i, pc' = .calling i → i ≤ maxReceivers) : WellFormed t ⟨p', pc'⟩ := by
  refine ⟨hring.ringOk h.ring, by rw [hring.queue]; exact h.entries, fun _ => ?_, hcalling⟩
  rwa [hring.size]

/-- A step of the loop keeps the state well formed. -/
lemma WellFormed.dispatch {r : PumpState × Option Call} (h : WellFormed t s)
    (hr : DispatchOutcome t s r) : WellFormed t r.1 := by
  cases hr with
  | idle => exact h
  | start m rest hpc hqueue =>
    refine h.setPc (sameRing_setBufferFlag _ _) (Pump.size_ne_zero hqueue) fun i hi => ?_
    rw [DispatchPc.calling.injEq] at hi
    omega
  | call m rest i hpc hi hqueue =>
    refine h.setPc ⟨rfl, rfl, rfl, rfl⟩ (Pump.size_ne_zero hqueue) fun j hj => ?_
    rw [DispatchPc.calling.injEq] at hj
    omega
  | returned m rest hpc hqueue =>
    exact h.setPc (sameRing_setBufferFlag _ _) (Pump.size_ne_zero hqueue) nofun
  | unlock m rest hpc hqueue =>
    exact h.setPc (sameRing_unlockMessage _) (Pump.size_ne_zero hqueue) nofun
  | finish m rest hpc hqueue =>
    -- the message that leaves is the front, so the rest was queued before
    have hsize := h.busy (by rw [hpc]; decide)
    refine ⟨h.ring.advance hsize, ?_, by simp, by simp⟩
    intro m' hm'
    rw [Pump.queue_advance hsize] at hm'
    exact h.entries m' (List.mem_of_mem_tail hm')

end WellFormed

end Powerboard.MsgPump
