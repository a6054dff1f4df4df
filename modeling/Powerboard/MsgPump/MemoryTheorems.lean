import Powerboard.MsgPump.Firmware
import Powerboard.MsgPump.Memory
import Powerboard.MsgPump.PumpTheorems

/-!
# The bytes of the message pump are its elements

The functions on the bytes and the functions on elements do the same: in states that represent one
another they return the same, fail alike and lead to states that represent one another. What is
outside of the pools is left alone.
-/

namespace Powerboard.MsgPump

open Memory Machine CString

variable {t : BufTable} {l : Layout t} {m : MemPump} {p : Pump} {d : BufDescription} {e : Elem}

/-! ## Representation -/

/-- The bytes of a header -/
structure HeaderIs (mem : Mem) (header : ℤ) (h : MsgHeader) : Prop where
  magic : headerMagic mem header = h.headerMagic
  refCnt : (refCnt mem header).toNat = h.refCnt
  flags : flags mem header = h.flags.value

/-- An entry of the queue -/
structure StandsFor (l : Layout t) (m : MemEntry) (entry : QueueEntry) : Prop where
  id : m.id = entry.id
  buffer : m.buffer = l.address entry.buffer
  bufferDescription : m.bufferDescription = entry.bufferDescription
  elem : ∀ e ∈ entry.buffer, ∃ d, entry.bufferDescription = some d ∧
    t.messageBuffers e.id = some d ∧ e.index < d.msgAmount

/-- The globals and the bytes stand for the pump with its elements. -/
structure Represents (l : Layout t) (m : MemPump) (p : Pump) : Prop where
  front : m.msgQueueFront = p.msgQueueFront
  tail : m.msgQueueTail = p.msgQueueTail
  size : m.msgQueueSize = p.msgQueueSize
  callbacks : m.callbackVector = p.callbackVector
  queue : ∀ i, StandsFor l (m.msgQueue i) (p.msgQueue i)
  header : ∀ e d, t.messageBuffers e.id = some d → e.index < d.msgAmount →
    HeaderIs m.mem (headerOf (l.pointer e)) (p.header e)
  data : ∀ e d, t.messageBuffers e.id = some d → e.index < d.msgAmount →
    p.data e = bytes m.mem (l.pointer e) d.msgSize

theorem Flag.value_inj {f g : Flag} : f.value = g.value ↔ f = g := by
  cases f <;> cases g <;> decide

/-! ## Where the elements are -/

theorem headerOf_pointer (hd : t.messageBuffers e.id = some d) :
    headerOf (l.pointer e) = l.data e.id + e.index * (d.msgSize + msgOverhead) := by
  simp only [headerOf, Layout.pointer, hd, add_sub_cancel_right]

theorem pointer_eq (hd : t.messageBuffers e.id = some d) :
    l.pointer e = l.data e.id + e.index * (d.msgSize + msgOverhead) + msgOverhead := by
  simp only [Layout.pointer, hd]

/-- The elements of one pool do not overlap. -/
theorem offset_add_le {i j k : ℕ} (h : i < j) : i * k + k ≤ j * k := by
  calc i * k + k = (i + 1) * k := by ring
    _ ≤ j * k := Nat.mul_le_mul_right k h

/-- An element lies in its pool. -/
theorem pointer_bounds (hd : t.messageBuffers e.id = some d) (he : e.index < d.msgAmount) :
    (l.data e.id : ℤ) ≤ headerOf (l.pointer e) ∧
      l.pointer e + d.msgSize ≤ l.data e.id + d.poolSize := by
  have hoffset := offset_add_le (k := d.msgSize + msgOverhead) he
  rw [pointer_eq hd, headerOf, BufDescription.poolSize]
  constructor
  · have : (0 : ℤ) ≤ e.index * (d.msgSize + msgOverhead) := by positivity
    omega
  · have hcast : ((e.index * (d.msgSize + msgOverhead) + (d.msgSize + msgOverhead) : ℕ) : ℤ) ≤
        (d.msgAmount * (d.msgSize + msgOverhead) : ℕ) := by exact_mod_cast hoffset
    push_cast at hcast ⊢
    omega

theorem pointer_pos (hd : t.messageBuffers e.id = some d) (he : e.index < d.msgAmount) :
    0 < l.pointer e := by
  have hbounds := (pointer_bounds (l := l) hd he).1
  have hpos := l.data_pos e.id
  simp only [headerOf, msgOverhead] at hbounds
  omega

/-- Two elements do not overlap. -/
theorem elements_apart {e' : Elem} {d' : BufDescription} (hne : e' ≠ e)
    (hd : t.messageBuffers e.id = some d) (he : e.index < d.msgAmount)
    (hd' : t.messageBuffers e'.id = some d') (he' : e'.index < d'.msgAmount) :
    l.pointer e' + d'.msgSize ≤ headerOf (l.pointer e) ∨
      headerOf (l.pointer e) + (msgOverhead + d.msgSize : ℕ) ≤ headerOf (l.pointer e') := by
  by_cases hid : e'.id = e.id
  · have hindex : e'.index ≠ e.index := by
      intro h
      exact hne (by cases e; cases e'; simp_all)
    rw [hid, hd, Option.some.injEq] at hd'
    subst hd'
    rw [pointer_eq (by rw [hid]; exact hd), pointer_eq hd, headerOf, headerOf, hid]
    rcases Nat.lt_or_gt_of_ne hindex with h | h
    · left
      have hcast : ((e'.index * (d.msgSize + msgOverhead) + (d.msgSize + msgOverhead) : ℕ) : ℤ) ≤
          (e.index * (d.msgSize + msgOverhead) : ℕ) := by exact_mod_cast offset_add_le h
      push_cast at hcast
      omega
    · right
      have hcast : ((e.index * (d.msgSize + msgOverhead) + (d.msgSize + msgOverhead) : ℕ) : ℤ) ≤
          (e'.index * (d.msgSize + msgOverhead) : ℕ) := by exact_mod_cast offset_add_le h
      push_cast at hcast ⊢
      omega
  · have hpools := l.disjoint e'.id e.id d' d hd' hd hid
    have hb := pointer_bounds (l := l) hd he
    have hb' := pointer_bounds (l := l) hd' he'
    simp only [headerOf, msgOverhead] at hb hb' ⊢
    push_cast
    omega

/-! ## Writing to an element -/

theorem HeaderIs.congr {mem mem' : Mem} {a b : ℤ} {n : ℕ} {h : MsgHeader}
    (hh : HeaderIs mem b h) (hsame : SameOutside a n mem mem')
    (hb : b + msgOverhead ≤ a ∨ a + n ≤ b) : HeaderIs mem' b h where
  magic := by
    rw [← hh.magic]
    exact hsame.word_eq (by simp only [msgOverhead] at hb; omega)
  refCnt := by
    rw [← hh.refCnt]
    exact congrArg UInt8.toNat (hsame (b + 4) (by simp only [msgOverhead] at hb; omega))
  flags := by
    rw [← hh.flags]
    exact hsame (b + 5) (by simp only [msgOverhead] at hb; omega)

/-- Whatever is written to an element stays in it. -/
theorem Represents.setElem (h : Represents l m p) (hd : t.messageBuffers e.id = some d)
    (he : e.index < d.msgAmount) {mem : Mem} {hdr : MsgHeader}
    (hsame : SameOutside (headerOf (l.pointer e)) (msgOverhead + d.msgSize) m.mem mem)
    (hheader : HeaderIs mem (headerOf (l.pointer e)) hdr) :
    Represents l { m with mem := mem }
      ((p.setHeader e hdr).setData e (bytes mem (l.pointer e) d.msgSize)) where
  front := h.front
  tail := h.tail
  size := h.size
  callbacks := h.callbacks
  queue := h.queue
  header e' d' hd' he' := by
    by_cases hne : e' = e
    · subst hne
      simpa only [Pump.setData, Pump.setHeader, Function.update_self] using hheader
    · simp only [Pump.setData, Pump.setHeader, Function.update_of_ne hne]
      refine (h.header e' d' hd' he').congr hsame ?_
      have happart := elements_apart (l := l) hne hd he hd' he'
      simp only [headerOf, msgOverhead] at happart ⊢
      push_cast at happart ⊢
      omega
  data e' d' hd' he' := by
    by_cases hne : e' = e
    · subst hne
      rw [hd, Option.some.injEq] at hd'
      subst hd'
      simp only [Pump.setData, Function.update_self]
    · simp only [Pump.setData, Pump.setHeader, Function.update_of_ne hne]
      rw [h.data e' d' hd' he', hsame.bytes_eq]
      have happart := elements_apart (l := l) hne hd he hd' he'
      simp only [headerOf, msgOverhead] at happart ⊢
      push_cast at happart ⊢
      omega

theorem setData_self (p : Pump) (e : Elem) (hdr : MsgHeader) :
    (p.setHeader e hdr).setData e (p.data e) = p.setHeader e hdr := by
  simp [Pump.setData, Pump.setHeader]

/-- Whatever is written to a header leaves the messages alone. -/
theorem Represents.setHeader (h : Represents l m p) (hd : t.messageBuffers e.id = some d)
    (he : e.index < d.msgAmount) {mem : Mem} {hdr : MsgHeader}
    (hsame : SameOutside (headerOf (l.pointer e)) msgOverhead m.mem mem)
    (hheader : HeaderIs mem (headerOf (l.pointer e)) hdr) :
    Represents l { m with mem := mem } (p.setHeader e hdr) := by
  have hdata : bytes mem (l.pointer e) d.msgSize = p.data e := by
    rw [h.data e d hd he, hsame.bytes_eq]
    simp only [headerOf]
    omega
  have helem := h.setElem hd he (hsame.mono le_rfl (by push_cast; omega)) hheader
  rwa [hdata, setData_self] at helem

/-- Writes outside of the pools -/
theorem Represents.of_sameInPools (h : Represents l m p) {mem : Mem}
    (hsame : ∀ id d, t.messageBuffers id = some d → ∀ x : ℤ, l.data id ≤ x →
      x < l.data id + d.poolSize → mem x = m.mem x) : Represents l { m with mem := mem } p where
  front := h.front
  tail := h.tail
  size := h.size
  callbacks := h.callbacks
  queue := h.queue
  header e d hd he := by
    have hheader := h.header e d hd he
    have hbounds := pointer_bounds (l := l) hd he
    have hin : ∀ x, headerOf (l.pointer e) ≤ x → x < headerOf (l.pointer e) + 8 →
        mem x = m.mem x := by
      intro x hx hx8
      simp only [headerOf, msgOverhead] at hbounds hx hx8
      exact hsame e.id d hd x (by omega) (by omega)
    refine ⟨?_, ?_, ?_⟩
    · rw [← hheader.magic]
      exact word_congr fun x hx hx4 => hin x hx (by omega)
    · rw [← hheader.refCnt]
      exact congrArg UInt8.toNat (hin _ (by omega) (by omega))
    · rw [← hheader.flags]
      exact hin _ (by omega) (by omega)
  data e d hd he := by
    have hbounds := pointer_bounds (l := l) hd he
    rw [h.data e d hd he]
    refine (bytes_congr fun k hk => ?_).symm
    simp only [headerOf, msgOverhead] at hbounds
    exact hsame e.id d hd _ (by omega) (by omega)

/-! ## The functions -/

/-- A place that belongs to no pool, nor is it the flags in front of the null pointer. -/
def OutsidePools (l : Layout t) (x : ℤ) : Prop :=
  x ≠ nullFlags ∧ ∀ id d, t.messageBuffers id = some d → x < l.data id ∨ l.data id + d.poolSize ≤ x

/-- A function on the bytes returns what the function on the elements returns, and writes to no
memory outside of the pools. -/
structure Agrees {α β : Type} (l : Layout t) (m : MemPump) (value : β → α) (r : α × MemPump)
    (r' : β × Pump) : Prop where
  result : r.1 = value r'.1
  represents : Represents l r.2 r'.2
  outside : ∀ x, OutsidePools l x → r.2.mem x = m.mem x

theorem Represents.enqueue (h : Represents l m p) {me : MemEntry} {entry : QueueEntry}
    (hentry : StandsFor l me entry) : Represents l (m.enqueue me) (p.enqueue entry) where
  front := h.front
  tail := by simp only [MemPump.enqueue, Pump.enqueue, h.tail]
  size := by simp only [MemPump.enqueue, Pump.enqueue, h.size]
  callbacks := h.callbacks
  queue i := by
    simp only [MemPump.enqueue, Pump.enqueue, h.tail]
    by_cases hi : i = p.msgQueueTail
    · subst hi
      simpa only [Function.update_self] using hentry
    · simpa only [Function.update_of_ne hi] using h.queue i
  header := h.header
  data := h.data

/-- What is in an element is in no other place. -/
theorem outside_of_sameOutside (hd : t.messageBuffers e.id = some d) (he : e.index < d.msgAmount)
    {mem mem' : Mem} (hsame : SameOutside (headerOf (l.pointer e)) (msgOverhead + d.msgSize) mem mem')
    (x : ℤ) (hx : OutsidePools l x) : mem' x = mem x := by
  have hbounds := pointer_bounds (l := l) hd he
  have hpool := hx.2 e.id d hd
  refine hsame x ?_
  simp only [headerOf, msgOverhead] at hbounds ⊢
  push_cast
  omega

theorem sameOutside_setRefCnt (mem : Mem) (header : ℤ) (v : UInt8) :
    SameOutside header msgOverhead mem (setRefCnt mem header v) :=
  sameOutside_write (by omega) (by simp only [msgOverhead]; omega) mem v

theorem sameOutside_setFlags (mem : Mem) (header : ℤ) (v : UInt8) :
    SameOutside header msgOverhead mem (setFlags mem header v) :=
  sameOutside_write (by omega) (by simp only [msgOverhead]; omega) mem v

theorem sameOutside_setHeaderMagic (mem : Mem) (header : ℤ) (v : UInt32) :
    SameOutside header msgOverhead mem (setHeaderMagic mem header v) :=
  sameOutside_writeWord le_rfl (by simp only [msgOverhead]; omega) mem v

theorem HeaderIs.setRefCnt {mem : Mem} {header : ℤ} {h : MsgHeader} (hh : HeaderIs mem header h)
    (v : UInt8) : HeaderIs (setRefCnt mem header v) header { h with refCnt := v.toNat } where
  magic := by
    rw [← hh.magic]
    exact word_congr fun x _ _ => write_of_ne (by omega) mem v
  refCnt := congrArg UInt8.toNat (write_self mem _ v)
  flags := by
    rw [← hh.flags]
    exact write_of_ne (by omega) mem v

theorem HeaderIs.setFlags {mem : Mem} {header : ℤ} {h : MsgHeader} (hh : HeaderIs mem header h)
    (f : Flag) : HeaderIs (setFlags mem header f.value) header { h with flags := f } where
  magic := by
    rw [← hh.magic]
    exact word_congr fun x _ _ => write_of_ne (by omega) mem _
  refCnt := by
    rw [← hh.refCnt]
    exact congrArg UInt8.toNat (write_of_ne (by omega) mem _)
  flags := write_self mem _ _

theorem HeaderIs.setHeaderMagic {mem : Mem} {header : ℤ} {h : MsgHeader}
    (hh : HeaderIs mem header h) (v : UInt32) :
    HeaderIs (setHeaderMagic mem header v) header { h with headerMagic := v } := by
  have hsame : SameOutside header 4 mem (MsgPump.setHeaderMagic mem header v) :=
    sameOutside_writeWord le_rfl (by omega) mem v
  refine ⟨word_writeWord mem header v, ?_, ?_⟩
  · rw [← hh.refCnt]
    exact congrArg UInt8.toNat (hsame _ (by omega))
  · rw [← hh.flags]
    exact hsame _ (by omega)

/-- A header that is replaced, by a function that returns `b`. -/
theorem Agrees.of_header {b : Bool} (h : Represents l m p) (hd : t.messageBuffers e.id = some d)
    (he : e.index < d.msgAmount) {mem : Mem} {hdr : MsgHeader}
    (hsame : SameOutside (headerOf (l.pointer e)) msgOverhead m.mem mem)
    (hheader : HeaderIs mem (headerOf (l.pointer e)) hdr) :
    Agrees l m id (b, { m with mem := mem }) (b, p.setHeader e hdr) where
  result := rfl
  represents := h.setHeader hd he hsame hheader
  outside := outside_of_sameOutside hd he (hsame.mono le_rfl (by push_cast; omega))

theorem Agrees.refl {b : Bool} (h : Represents l m p) : Agrees l m id (b, m) (b, p) :=
  ⟨rfl, h, fun _ _ => rfl⟩

theorem usable_iff {mem : Mem} {header : ℤ} {h : MsgHeader} (hh : HeaderIs mem header h) :
    (flags mem header ≠ Flag.bufferNotUsable.value ∧ headerMagic mem header = magic) ↔
      (h.flags ≠ .bufferNotUsable ∧ h.headerMagic = magic) := by
  rw [hh.flags, hh.magic, ne_eq, Flag.value_inj]

theorem lockMessage_agrees (h : Represents l m p) (hd : t.messageBuffers e.id = some d)
    (he : e.index < d.msgAmount) :
    Agrees l m id (m.lockMessage (l.pointer e)) (lockMessage p (some e)) := by
  have hheader := h.header e d hd he
  have hne : l.pointer e ≠ 0 := (pointer_pos hd he).ne'
  have hcond : (refCnt m.mem (headerOf (l.pointer e)) < 255 ∧
      flags m.mem (headerOf (l.pointer e)) ≠ Flag.bufferNotUsable.value ∧
      headerMagic m.mem (headerOf (l.pointer e)) = magic) ↔
      ((p.header e).refCnt < 255 ∧ (p.header e).flags ≠ .bufferNotUsable ∧
        (p.header e).headerMagic = magic) := by
    rw [usable_iff hheader, UInt8.lt_iff_toNat_lt, hheader.refCnt]
    rfl
  simp only [MemPump.lockMessage, lockMessage, if_pos hne, hcond]
  by_cases hlock : (p.header e).refCnt < 255 ∧ (p.header e).flags ≠ .bufferNotUsable ∧
      (p.header e).headerMagic = magic
  · rw [if_pos hlock, if_pos hlock]
    refine Agrees.of_header h hd he (sameOutside_setRefCnt _ _ _) ?_
    have hcount : (refCnt m.mem (headerOf (l.pointer e)) + 1).toNat = (p.header e).refCnt + 1 := by
      rw [UInt8.toNat_add, hheader.refCnt, UInt8.toNat_one]
      exact Nat.mod_eq_of_lt (by omega)
    rw [← hcount]
    exact hheader.setRefCnt _
  · rw [if_neg hlock, if_neg hlock]
    exact Agrees.refl h

theorem unlockMessage_agrees (h : Represents l m p) (hd : t.messageBuffers e.id = some d)
    (he : e.index < d.msgAmount) :
    Agrees l m id (m.unlockMessage (l.pointer e)) (unlockMessage p (some e)) := by
  have hheader := h.header e d hd he
  have hne : l.pointer e ≠ 0 := (pointer_pos hd he).ne'
  have hcond : (0 < refCnt m.mem (headerOf (l.pointer e)) ∧
      flags m.mem (headerOf (l.pointer e)) ≠ Flag.bufferNotUsable.value ∧
      headerMagic m.mem (headerOf (l.pointer e)) = magic) ↔
      (0 < (p.header e).refCnt ∧ (p.header e).flags ≠ .bufferNotUsable ∧
        (p.header e).headerMagic = magic) := by
    rw [usable_iff hheader, UInt8.lt_iff_toNat_lt, hheader.refCnt]
    rfl
  simp only [MemPump.unlockMessage, unlockMessage, if_pos hne, hcond]
  by_cases hunlock : 0 < (p.header e).refCnt ∧ (p.header e).flags ≠ .bufferNotUsable ∧
      (p.header e).headerMagic = magic
  · rw [if_pos hunlock, if_pos hunlock]
    refine Agrees.of_header h hd he (sameOutside_setRefCnt _ _ _) ?_
    have hcount : (refCnt m.mem (headerOf (l.pointer e)) - 1).toNat = (p.header e).refCnt - 1 := by
      have hle : (1 : UInt8) ≤ refCnt m.mem (headerOf (l.pointer e)) := by
        rw [UInt8.le_iff_toNat_le, hheader.refCnt]
        exact hunlock.1
      rw [UInt8.toNat_sub_of_le _ _ hle, hheader.refCnt]
      rfl
    rw [← hcount]
    exact hheader.setRefCnt _
  · rw [if_neg hunlock, if_neg hunlock]
    exact Agrees.refl h

theorem isFree_iff {mem : Mem} {header : ℤ} {h : MsgHeader} (hh : HeaderIs mem header h) :
    MemPump.IsFree mem header ↔ h.IsFree := by
  rw [MemPump.IsFree, MsgHeader.IsFree, hh.magic, hh.flags, Flag.value_inj, ← UInt8.toNat_inj,
    hh.refCnt]
  rfl

theorem isReserved_iff {mem : Mem} {header : ℤ} {h : MsgHeader} (hh : HeaderIs mem header h) :
    (refCnt mem header = 1 ∧ flags mem header = Flag.inUse.value ∧ headerMagic mem header = magic) ↔
      h.IsReserved := by
  rw [MsgHeader.IsReserved, hh.magic, hh.flags, Flag.value_inj, ← UInt8.toNat_inj, hh.refCnt]
  rfl

/-- The entry of an element in the queue -/
theorem standsFor_elem (hd : t.messageBuffers e.id = some d) (he : e.index < d.msgAmount) :
    StandsFor l { id := e.id, buffer := l.pointer e, bufferDescription := some d }
      { id := e.id, buffer := some e, bufferDescription := some d } where
  id := rfl
  buffer := rfl
  bufferDescription := rfl
  elem x hx := by
    obtain rfl : e = x := by simpa using hx
    exact ⟨d, rfl, hd, he⟩

theorem postReserved_agrees (h : Represents l m p) (hd : t.messageBuffers e.id = some d)
    (he : e.index < d.msgAmount) :
    Agrees l m id (m.postReserved d e.id (l.pointer e)) (postReserved d p e.id e) := by
  have hheader := h.header e d hd he
  simp only [MemPump.postReserved, postReserved, isReserved_iff hheader]
  by_cases hreserved : (p.header e).IsReserved
  · rw [if_pos hreserved, if_pos hreserved]
    have hset := Agrees.of_header (b := true) h hd he
      ((sameOutside_setFlags _ _ Flag.postedNotDispatched.value).trans
        (sameOutside_setRefCnt _ _ 1))
      ((hheader.setFlags .postedNotDispatched).setRefCnt 1)
    exact ⟨rfl, hset.represents.enqueue (standsFor_elem hd he), hset.outside⟩
  · rw [if_neg hreserved, if_neg hreserved]
    exact Agrees.of_header h hd he
      (((sameOutside_setFlags _ _ Flag.nothing.value).trans (sameOutside_setRefCnt _ _ 0)).trans
        (sameOutside_setHeaderMagic _ _ magic))
      (((hheader.setFlags .nothing).setRefCnt 0).setHeaderMagic magic)

variable {msg : MsgId}

/-- A free element is locked, with its header as a reservation or a post begins with it. -/
theorem lock_free_agrees (h : Represents l m p) (hd : t.messageBuffers e.id = some d)
    (he : e.index < d.msgAmount) (hfree : (p.header e).IsFree) :
    ∃ m₁ p₁, m.lockMessage (l.pointer e) = (true, m₁) ∧ lockMessage p (some e) = (true, p₁) ∧
      Represents l m₁ p₁ ∧ (∀ x, OutsidePools l x → m₁.mem x = m.mem x) ∧
      SameOutside (headerOf (l.pointer e)) msgOverhead m.mem m₁.mem := by
  have hlock := lockMessage_of_free (MsgHeader.isFree_iff.mp hfree)
  have hagrees := lockMessage_agrees h hd he
  have hsame : SameOutside (headerOf (l.pointer e)) msgOverhead m.mem
      (m.lockMessage (l.pointer e)).2.mem := by
    simp only [MemPump.lockMessage]
    split_ifs
    · exact sameOutside_setRefCnt _ _ _
    · exact sameOutside_refl _ _ _
    · exact sameOutside_refl _ _ _
  rw [hlock] at hagrees
  have htrue : m.lockMessage (l.pointer e) = (true, (m.lockMessage (l.pointer e)).2) :=
    Prod.ext hagrees.result rfl
  rw [htrue] at hagrees
  exact ⟨_, _, htrue, hlock, hagrees.represents, hagrees.outside, hsame⟩

/-- The address that the loops compute -/
theorem header_address (hd : t.messageBuffers msg = some d) (i : ℕ) :
    (l.data msg : ℤ) + i * (d.msgSize + msgOverhead) = headerOf (l.pointer ⟨msg, i⟩) :=
  (headerOf_pointer (e := ⟨msg, i⟩) hd).symm

theorem headerOf_add (a : ℤ) : headerOf a + msgOverhead = a := by
  rw [headerOf, sub_add_cancel]

/-- The message that is copied lies outside of the pool, so that no header that is written and no
byte that was copied is read. -/
theorem postCopy_agrees (h : Represents l m p) (hd : t.messageBuffers msg = some d) {a : ℤ}
    {content : ℕ → UInt8} (hcontent : ∀ k : ℕ, k < d.msgSize → content k = m.mem (a + k))
    (ha : a + d.msgSize ≤ l.data msg ∨ l.data msg + d.poolSize ≤ a) {is : List ℕ}
    (his : ∀ i ∈ is, i < d.msgAmount) :
    Agrees l m id (m.postCopy d (l.data msg) msg a is) (postCopy d p msg content is) := by
  induction is with
  | nil => exact Agrees.refl h
  | cons i rest ih =>
    have hi : (⟨msg, i⟩ : Elem).index < d.msgAmount := his i List.mem_cons_self
    have hd' : t.messageBuffers (⟨msg, i⟩ : Elem).id = some d := hd
    have hheader := h.header ⟨msg, i⟩ d hd hi
    have hbounds := pointer_bounds (l := l) hd' hi
    simp only [MemPump.postCopy, postCopy, header_address hd, headerOf_add, isFree_iff hheader]
    by_cases hfree : (p.header ⟨msg, i⟩).IsFree
    · obtain ⟨m₁, p₁, hm₁, hp₁, hlock, houtside, hsame⟩ := lock_free_agrees h hd' hi hfree
      simp only [if_pos hfree, hm₁, hp₁]
      have hflags := sameOutside_setFlags m₁.mem (headerOf (l.pointer ⟨msg, i⟩))
        Flag.postedNotDispatched.value
      have hcopy := sameOutside_memcpy (MsgPump.setFlags m₁.mem (headerOf (l.pointer ⟨msg, i⟩))
        Flag.postedNotDispatched.value) (l.pointer ⟨msg, i⟩) a d.msgSize
      have hapart : l.pointer ⟨msg, i⟩ ≤ a ∨ a + d.msgSize ≤ l.pointer ⟨msg, i⟩ := by
        simp only [headerOf] at hbounds
        omega
      have hbeside : a + d.msgSize ≤ headerOf (l.pointer ⟨msg, i⟩) ∨
          headerOf (l.pointer ⟨msg, i⟩) + msgOverhead ≤ a := by
        simp only [headerOf] at hbounds ⊢
        omega
      have hmessage : bytes (memcpy (MsgPump.setFlags m₁.mem (headerOf (l.pointer ⟨msg, i⟩))
          Flag.postedNotDispatched.value) (l.pointer ⟨msg, i⟩) a d.msgSize)
          (l.pointer ⟨msg, i⟩) d.msgSize = (List.range d.msgSize).map content := by
        rw [bytes_memcpy hapart, hflags.bytes_eq hbeside, hsame.bytes_eq hbeside]
        exact List.map_congr_left fun k hk => (hcontent k (List.mem_range.mp hk)).symm
      have hwrites : SameOutside (headerOf (l.pointer ⟨msg, i⟩)) (msgOverhead + d.msgSize) m₁.mem
          (memcpy (MsgPump.setFlags m₁.mem (headerOf (l.pointer ⟨msg, i⟩))
            Flag.postedNotDispatched.value) (l.pointer ⟨msg, i⟩) a d.msgSize) :=
        (hflags.mono le_rfl (by push_cast; omega)).trans
          (hcopy.mono (by simp only [headerOf]; omega) (by simp only [headerOf]; push_cast; omega))
      have helem := hlock.setElem hd' hi hwrites
        (((hlock.header ⟨msg, i⟩ d hd hi).setFlags .postedNotDispatched).congr hcopy
          (Or.inl (by simp only [headerOf]; omega)))
      rw [hmessage] at helem
      refine ⟨rfl, helem.enqueue (standsFor_elem hd' hi), fun x hx => ?_⟩
      exact (outside_of_sameOutside hd' hi hwrites x hx).trans (houtside x hx)
    · simp only [if_neg hfree]
      exact ih fun j hj => his j (List.mem_cons_of_mem i hj)

theorem postPointer_agrees (h : Represents l m p) (hd : t.messageBuffers msg = some d) {a : ℤ}
    (ha : d.InPoolAt (l.data msg) a ∨ a + d.msgSize ≤ l.data msg ∨ l.data msg + d.poolSize ≤ a) :
    Agrees l m id (m.postPointer d (l.data msg) msg a)
      (postPointer d p msg (pointerAt l m.mem msg a)) := by
  by_cases hin : d.InPool (pointerAt l m.mem msg a)
  · by_cases hmod : (pointerAt l m.mem msg a).ptrOffset % (d.msgSize + msgOverhead) = msgOverhead
    · obtain ⟨hindex, hoffset⟩ := BufDescription.pointsTo_of_tests hin hmod
      set i := ((pointerAt l m.mem msg a).ptrOffset / (d.msgSize + msgOverhead)).toNat with hi
      have haddress : a = l.pointer ⟨msg, i⟩ := by
        rw [pointer_eq (e := ⟨msg, i⟩) hd]
        simp only [pointerAt] at hoffset ⊢
        omega
      have hmem : m.postPointer d (l.data msg) msg a = m.postReserved d msg a := by
        rw [MemPump.postPointer]
        exact (if_pos hin).trans (if_pos hmod)
      have hpump : postPointer d p msg (pointerAt l m.mem msg a) = postReserved d p msg ⟨msg, i⟩ := by
        rw [postPointer]
        exact (if_pos hin).trans (if_pos hmod)
      rw [hmem, hpump]
      have hpost := postReserved_agrees (e := ⟨msg, i⟩) h hd hindex
      rwa [← haddress] at hpost
    · have hmem : m.postPointer d (l.data msg) msg a = (false, m) := by
        rw [MemPump.postPointer]
        exact (if_pos hin).trans (if_neg hmod)
      have hpump : postPointer d p msg (pointerAt l m.mem msg a) = (false, p) := by
        rw [postPointer]
        exact (if_pos hin).trans (if_neg hmod)
      rw [hmem, hpump]
      exact Agrees.refl h
  · have hmem : m.postPointer d (l.data msg) msg a =
        m.postCopy d (l.data msg) msg a (List.range d.msgAmount) := by
      rw [MemPump.postPointer]
      exact if_neg hin
    have hpump : postPointer d p msg (pointerAt l m.mem msg a) =
        postCopy d p msg (pointerAt l m.mem msg a).bytes (List.range d.msgAmount) := by
      rw [postPointer]
      exact if_neg hin
    rw [hmem, hpump]
    refine postCopy_agrees h hd (fun k _ => rfl) (ha.resolve_left hin) fun i hi => ?_
    exact List.mem_range.mp hi

/-- Both fault alike, or both return and agree. -/
inductive AgreesOrFaults {α β : Type} (l : Layout t) (m : MemPump) (value : β → α) :
    Except Fault (α × MemPump) → Except Fault (β × Pump) → Prop
  | fault (f : Fault) : AgreesOrFaults l m value (.error f) (.error f)
  | ok {r : α × MemPump} {r' : β × Pump} (h : Agrees l m value r r') :
    AgreesOrFaults l m value (.ok r) (.ok r')

theorem postMessage_agrees (h : Represents l m p) {a : ℤ}
    (ha : (MemCall.post msg a).Allowed l) :
    AgreesOrFaults l m id (m.postMessage l msg a)
      (postMessage t p msg (if a = 0 then none else some (pointerAt l m.mem msg a))) := by
  simp only [MemPump.postMessage, postMessage, h.front, h.tail, h.size]
  by_cases hfull : p.msgQueueFront = p.msgQueueTail ∧ p.msgQueueSize ≠ 0
  · simp only [if_pos hfull]
    exact .ok (Agrees.refl h)
  simp only [if_neg hfull]
  by_cases hlast : msg < lastId
  · simp only [if_pos hlast]
    cases hlookup : t.lookup msg with
    | error fault => exact .fault fault
    | ok o =>
      cases o with
      | none => exact .fault .nullDescriptor
      | some d =>
        by_cases hid : msg = d.id
        · have hd : t.messageBuffers msg = some d := by
            simp only [BufTable.lookup] at hlookup
            split_ifs at hlookup
            exact Except.ok.inj hlookup
          simp only [if_pos hid]
          by_cases hnull : a = 0
          · simp only [hnull, ne_eq, not_true, if_false, if_true]
            exact .ok ⟨rfl, h.enqueue ⟨rfl, rfl, rfl, by simp⟩, fun _ _ => rfl⟩
          · simp only [hnull, ne_eq, not_false_eq_true, if_true, if_false]
            exact .ok (postPointer_agrees h hd (ha d hd hnull))
        · simp only [if_neg hid]
          exact .ok (Agrees.refl h)
  · simp only [if_neg hlast]
    exact .ok (Agrees.refl h)

theorem getFree_agrees (h : Represents l m p) (hd : t.messageBuffers msg = some d) {is : List ℕ}
    (his : ∀ i ∈ is, i < d.msgAmount) :
    Agrees l m l.address (m.getFree d (l.data msg) is) (getFree p msg is) := by
  induction is with
  | nil => exact ⟨rfl, h, fun _ _ => rfl⟩
  | cons i rest ih =>
    have hi : (⟨msg, i⟩ : Elem).index < d.msgAmount := his i List.mem_cons_self
    have hd' : t.messageBuffers (⟨msg, i⟩ : Elem).id = some d := hd
    have hheader := h.header ⟨msg, i⟩ d hd hi
    simp only [MemPump.getFree, getFree, header_address hd, headerOf_add, isFree_iff hheader]
    by_cases hfree : (p.header ⟨msg, i⟩).IsFree
    · obtain ⟨m₁, p₁, hm₁, hp₁, hlock, houtside, -⟩ := lock_free_agrees h hd' hi hfree
      simp only [if_pos hfree, hm₁, hp₁]
      have hflags := sameOutside_setFlags m₁.mem (headerOf (l.pointer ⟨msg, i⟩)) Flag.inUse.value
      refine ⟨rfl, hlock.setHeader hd' hi hflags
        ((hlock.header ⟨msg, i⟩ d hd hi).setFlags .inUse), fun x hx => ?_⟩
      exact (outside_of_sameOutside hd' hi (hflags.mono le_rfl (by push_cast; omega)) x hx).trans
        (houtside x hx)
    · simp only [if_neg hfree]
      exact ih fun j hj => his j (List.mem_cons_of_mem i hj)

theorem getFreeBuffer_agrees (h : Represents l m p) :
    AgreesOrFaults l m l.address (m.getFreeBuffer l msg) (getFreeBuffer t p msg) := by
  simp only [MemPump.getFreeBuffer, getFreeBuffer]
  by_cases hrange : msg < lastId ∧ systemFirstId < msg
  · simp only [if_pos hrange]
    have hlookup : t.lookup msg = .ok (t.messageBuffers msg) := if_pos ⟨hrange.2.le, hrange.1⟩
    rw [hlookup]
    cases hd : t.messageBuffers msg with
    | none => exact .ok ⟨rfl, h, fun _ _ => rfl⟩
    | some d =>
      refine .ok (getFree_agrees h hd fun i hi => ?_)
      exact List.mem_range.mp hi
  · simp only [if_neg hrange]
    exact .ok ⟨rfl, h, fun _ _ => rfl⟩

/-! ## Dispatching -/

theorem bytes_write (mem : Mem) (a : ℤ) (n k : ℕ) (v : UInt8) :
    bytes (write mem (a + k) v) a n = (bytes mem a n).set k v := by
  refine List.ext_getElem (by simp [bytes]) fun i hi hi' => ?_
  simp only [bytes, List.getElem_map, List.getElem_range, List.getElem_set]
  by_cases hik : k = i
  · simp [hik]
  · rw [if_neg hik, write_of_ne (by omega)]

/-- A state and the place in the loop -/
def StateRepresents (l : Layout t) (s : MemState) (q : PumpState) : Prop :=
  Represents l s.pump q.pump ∧ s.pc = q.pc

theorem setBufferFlag_represents (h : Represents l m p) {me : MemEntry} {entry : QueueEntry}
    (hentry : StandsFor l me entry) (f : Flag) :
    Represents l (m.setBufferFlag me.buffer f) (setBufferFlag p entry.buffer f) ∧
      ∀ x, OutsidePools l x → (m.setBufferFlag me.buffer f).mem x = m.mem x := by
  rw [hentry.buffer]
  cases hbuffer : entry.buffer with
  | none =>
    -- the flag of the header in front of the null pointer
    have helse : ∀ x : ℤ, x ≠ nullFlags → setFlags m.mem (headerOf 0) f.value x = m.mem x :=
      fun x hx => write_of_ne hx _ _
    have hnull : Represents l { m with mem := setFlags m.mem (headerOf 0) f.value } p :=
      h.of_sameInPools fun _ _ _ x hx _ => helse x (by
        simp only [nullFlags, headerOf, msgOverhead]
        omega)
    exact ⟨⟨hnull.front, hnull.tail, hnull.size, hnull.callbacks, hnull.queue, hnull.header,
      hnull.data⟩, fun x hx => helse x hx.1⟩
  | some e =>
    obtain ⟨d, -, hd, he⟩ := hentry.elem e hbuffer
    have hflags := sameOutside_setFlags m.mem (headerOf (l.pointer e)) f.value
    exact ⟨h.setHeader hd he hflags ((h.header e d hd he).setFlags f),
      outside_of_sameOutside hd he (hflags.mono le_rfl (by push_cast; omega))⟩

theorem unlockEntry_represents (h : Represents l m p) {me : MemEntry} {entry : QueueEntry}
    (hentry : StandsFor l me entry) :
    Represents l (m.unlockMessage me.buffer).2 (unlockMessage p entry.buffer).2 ∧
      ∀ x, OutsidePools l x → (m.unlockMessage me.buffer).2.mem x = m.mem x := by
  rw [hentry.buffer]
  cases hbuffer : entry.buffer with
  | none => exact ⟨h, fun _ _ => rfl⟩
  | some e =>
    obtain ⟨d, -, hd, he⟩ := hentry.elem e hbuffer
    have hagrees := unlockMessage_agrees h hd he
    exact ⟨hagrees.represents, hagrees.outside⟩

/-- Both fault alike, or both make the same call. -/
inductive DispatchAgrees (l : Layout t) (s : MemState) :
    Except Fault (MemState × Option Call) → Except Fault (PumpState × Option Call) → Prop
  | fault (f : Fault) : DispatchAgrees l s (.error f) (.error f)
  | ok {s' : MemState} {q' : PumpState} (call : Option Call) (h : StateRepresents l s' q')
    (houtside : ∀ x, OutsidePools l x → s'.pump.mem x = s.pump.mem x) :
    DispatchAgrees l s (.ok (s', call)) (.ok (q', call))

theorem dispatch_agrees {s : MemState} {q : PumpState} (h : StateRepresents l s q) :
    DispatchAgrees l s s.dispatch (dispatch q) := by
  obtain ⟨hpump, hpc⟩ := h
  have hentry := hpump.queue q.pump.msgQueueFront
  rw [← hpump.front] at hentry
  simp only [MemState.dispatch, dispatch, hpc, hpump.size, ← hpump.front]
  cases hq : q.pc with
  | waiting =>
    by_cases hsize : q.pump.msgQueueSize ≠ 0
    · simp only [if_pos hsize]
      have hflag := setBufferFlag_represents hpump hentry .inUse
      exact .ok none ⟨hflag.1, rfl⟩ hflag.2
    · simp only [if_neg hsize]
      exact .ok none ⟨hpump, hpc⟩ fun _ _ => rfl
  | calling i =>
    by_cases hi : i < maxReceivers
    · simp only [if_pos hi, hentry.bufferDescription]
      cases hdesc : (q.pump.msgQueue s.pump.msgQueueFront).bufferDescription with
      | none => exact .fault .nullDescriptor
      | some d =>
        have hcontent : (if (s.pump.msgQueue s.pump.msgQueueFront).buffer = 0 then none
            else some (bytes s.pump.mem (s.pump.msgQueue s.pump.msgQueueFront).buffer d.msgSize)) =
            (q.pump.msgQueue s.pump.msgQueueFront).buffer.map q.pump.data := by
          rw [hentry.buffer]
          cases hbuffer : (q.pump.msgQueue s.pump.msgQueueFront).buffer with
          | none => rfl
          | some e =>
            obtain ⟨d', hd', hd, he⟩ := hentry.elem e hbuffer
            rw [hdesc, Option.some.injEq] at hd'
            subst hd'
            have hne : l.address (some e) ≠ 0 := (pointer_pos hd he).ne'
            rw [if_neg hne, Option.map_some, hpump.data e d hd he]
            rfl
        simp only [hcontent, hpump.callbacks]
        exact .ok _ ⟨hpump, rfl⟩ fun _ _ => rfl
    · simp only [if_neg hi]
      have hflag := setBufferFlag_represents hpump hentry .nothing
      exact .ok none ⟨hflag.1, rfl⟩ hflag.2
  | cleared =>
    have hunlock := unlockEntry_represents hpump hentry
    exact .ok none ⟨hunlock.1, rfl⟩ hunlock.2
  | unlocked =>
    refine .ok none ⟨⟨?_, hpump.tail, rfl, hpump.callbacks, hpump.queue, hpump.header,
      hpump.data⟩, rfl⟩ fun _ _ => rfl
    rfl

/-! ## Runs -/

/-- Two results of a call, or of a run, that are the same, in states that represent one another. -/
def SameOutcome {ρ : Type} (l : Layout t) (r : MemState × ρ) (r' : PumpState × ρ) : Prop :=
  StateRepresents l r.1 r'.1 ∧ r.2 = r'.2

/-- What a call does to memory outside of the pools -/
def MemCall.WritesOnly (c : MemCall) (mem mem' : Mem) (x : ℤ) : Prop :=
  mem' x = mem x ∨ ∃ v, c = .writeElsewhere x v

theorem elemOption_agrees {s : MemState} {q : PumpState} (h : Represents l s.pump q.pump)
    {o : Option Elem} (ho : ∀ x ∈ o, t.HasElem x) {f : MemPump → ℤ → Bool × MemPump}
    {g : Pump → Option Elem → Bool × Pump} (hnull : f s.pump 0 = (false, s.pump))
    (hnone : g q.pump none = (false, q.pump))
    (hsome : ∀ e d, t.messageBuffers e.id = some d → e.index < d.msgAmount →
      Agrees l s.pump id (f s.pump (l.pointer e)) (g q.pump (some e))) :
    Agrees l s.pump id (f s.pump (l.address o)) (g q.pump o) := by
  cases o with
  | none =>
    simp only [Layout.address, hnull, hnone]
    exact Agrees.refl h
  | some e =>
    obtain ⟨d, hd, he⟩ := ho e rfl
    exact hsome e d hd he

/-- A call that is allowed returns the same on the bytes and on the elements. -/
theorem memCall_simulates {s : MemState} {q : PumpState} (h : StateRepresents l s q) {c : MemCall}
    (hc : c.Allowed l) :
    Option.Rel (SameOutcome l) (memCall l s c) (elemCall l q (c.asElemCall l s)) ∧
      ∀ r, memCall l s c = some r → ∀ x, OutsidePools l x →
        c.WritesOnly s.pump.mem r.1.pump.mem x := by
  obtain ⟨hpump, hpc⟩ := h
  cases c with
  | post msg a =>
    have hpost := postMessage_agrees hpump hc
    simp only [memCall, elemCall, MemCall.asElemCall]
    generalize s.pump.postMessage l msg a = r, postMessage t q.pump msg _ = r' at hpost
    cases hpost with
    | fault f => exact ⟨.none, by simp⟩
    | ok hagrees =>
      refine ⟨.some ⟨⟨hagrees.represents, hpc⟩, congrArg MemResult.success hagrees.result⟩, ?_⟩
      rintro _ ⟨⟩ x hx
      exact .inl (hagrees.outside x hx)
  | getFreeBuffer msg =>
    have hget : AgreesOrFaults l s.pump l.address (s.pump.getFreeBuffer l msg)
        (getFreeBuffer t q.pump msg) := getFreeBuffer_agrees hpump
    simp only [memCall, elemCall, MemCall.asElemCall]
    generalize s.pump.getFreeBuffer l msg = r, getFreeBuffer t q.pump msg = r' at hget
    cases hget with
    | fault f => exact ⟨.none, by simp⟩
    | ok hagrees =>
      refine ⟨.some ⟨⟨hagrees.represents, hpc⟩, congrArg MemResult.buffer hagrees.result⟩, ?_⟩
      rintro _ ⟨⟩ x hx
      exact .inl (hagrees.outside x hx)
  | lock o =>
    have hagrees := elemOption_agrees (f := MemPump.lockMessage) (g := lockMessage) hpump hc rfl rfl
      fun e d hd he => lockMessage_agrees hpump hd he
    refine ⟨.some ⟨⟨hagrees.represents, hpc⟩, congrArg MemResult.success hagrees.result⟩, ?_⟩
    rintro _ ⟨⟩ x hx
    exact .inl (hagrees.outside x hx)
  | unlock o =>
    have hagrees := elemOption_agrees (f := MemPump.unlockMessage) (g := unlockMessage) hpump hc
      rfl rfl fun e d hd he => unlockMessage_agrees hpump hd he
    refine ⟨.some ⟨⟨hagrees.represents, hpc⟩, congrArg MemResult.success hagrees.result⟩, ?_⟩
    rintro _ ⟨⟩ x hx
    exact .inl (hagrees.outside x hx)
  | writeElement e k v =>
    obtain ⟨d, hd, he, hk⟩ := hc
    have hsame : SameOutside (l.pointer e) d.msgSize s.pump.mem
        (write s.pump.mem (l.pointer e + k) v) :=
      sameOutside_write (by omega) (by omega) _ v
    have hwide : SameOutside (headerOf (l.pointer e)) (msgOverhead + d.msgSize) s.pump.mem
        (write s.pump.mem (l.pointer e + k) v) :=
      hsame.mono (by simp only [headerOf]; omega) (by simp only [headerOf]; push_cast; omega)
    have helem := hpump.setElem hd he hwide
      ((hpump.header e d hd he).congr hsame (.inl (by simp only [headerOf]; omega)))
    rw [bytes_write, ← hpump.data e d hd he] at helem
    have hself : q.pump.setHeader e (q.pump.header e) = q.pump := by
      simp only [Pump.setHeader, Function.update_eq_self]
    rw [hself] at helem
    refine ⟨.some ⟨⟨helem, hpc⟩, rfl⟩, ?_⟩
    rintro _ ⟨⟩ x hx
    exact .inl (outside_of_sameOutside hd he hwide x hx)
  | writeElsewhere a v =>
    refine ⟨.some ⟨⟨hpump.of_sameInPools fun msg d hd x hx hx' => ?_, hpc⟩, rfl⟩, ?_⟩
    · have hout := hc msg d hd
      exact write_of_ne (by omega) _ v
    · rintro _ ⟨⟩ x -
      by_cases hxa : x = a
      · exact .inr ⟨v, by rw [hxa]⟩
      · exact .inl (write_of_ne hxa _ v)
  | dispatch =>
    have hdispatch := dispatch_agrees ⟨hpump, hpc⟩
    simp only [memCall, elemCall, MemCall.asElemCall]
    generalize s.dispatch = r, dispatch q = r' at hdispatch
    cases hdispatch with
    | fault f => exact ⟨.none, by simp⟩
    | ok call hrep houtside =>
      refine ⟨.some ⟨hrep, rfl⟩, ?_⟩
      rintro _ ⟨⟩ x hx
      exact .inl (houtside x hx)

theorem rel_iff {α β : Type} {R : α → β → Prop} {a : Option α} {b : Option β} :
    Option.Rel R a b ↔ a = none ∧ b = none ∨ ∃ x y, a = some x ∧ b = some y ∧ R x y := by
  constructor
  · rintro (h | _)
    · exact .inr ⟨_, _, rfl, rfl, h⟩
    · exact .inl ⟨rfl, rfl⟩
  · rintro (⟨rfl, rfl⟩ | ⟨x, y, rfl, rfl, h⟩)
    · exact .none
    · exact .some h

/-- A run on the bytes returns what the run on the elements returns. -/
theorem calls_simulate {s : MemState} {q : PumpState} (h : StateRepresents l s q)
    {cs : List MemCall} (hcs : ∀ c ∈ cs, c.Allowed l) :
    Option.Rel (SameOutcome l) (calls (memCall l) s cs)
      (calls (elemCall l) q (asElemCalls l s cs)) := by
  induction cs generalizing s q with
  | nil => exact .some ⟨h, rfl⟩
  | cons c cs ih =>
    have hstep := rel_iff.mp (memCall_simulates h (hcs c List.mem_cons_self)).1
    simp only [asElemCalls, calls]
    rcases hstep with ⟨hmem, helem⟩ | ⟨r, r', hmem, helem, hrep, hresult⟩
    · rw [hmem, helem]
      exact .none
    · rw [hmem, helem]
      simp only [Option.bind_some, Option.elim_some]
      have hrest := ih hrep fun c' hc' => hcs c' (List.mem_cons_of_mem c hc')
      rcases rel_iff.mp hrest with ⟨hmem, helem⟩ | ⟨u, u', hmem, helem, hrep, hresults⟩
      · rw [hmem, helem]
        exact .none
      · rw [hmem, helem]
        exact .some ⟨hrep, by simp [hresult, hresults]⟩

/-- The memory outside of the pools that no client writes to is what it was. -/
theorem calls_outside {s : MemState} {q : PumpState} (h : StateRepresents l s q) {cs : List MemCall}
    (hcs : ∀ c ∈ cs, c.Allowed l) {s' : MemState} {results : List MemResult}
    (hrun : calls (memCall l) s cs = some (s', results)) {x : ℤ} (hx : OutsidePools l x)
    (hwrites : ∀ v, MemCall.writeElsewhere x v ∉ cs) : s'.pump.mem x = s.pump.mem x := by
  induction cs generalizing s q results with
  | nil =>
    simp only [calls_nil, Option.some.injEq, Prod.mk.injEq] at hrun
    rw [hrun.1]
  | cons c cs ih =>
    have hstep := memCall_simulates h (hcs c List.mem_cons_self)
    simp only [calls, Option.bind_eq_some_iff, Option.map_eq_some_iff, Prod.mk.injEq] at hrun
    obtain ⟨r, hr, u, hu, rfl, -⟩ := hrun
    obtain ⟨r', hrep⟩ : ∃ r', SameOutcome l r r' := by
      rcases rel_iff.mp hstep.1 with ⟨hmem, -⟩ | ⟨r₁, r', hmem, -, hsame⟩
      · rw [hmem] at hr
        cases hr
      · rw [hr, Option.some.injEq] at hmem
        exact ⟨r', hmem ▸ hsame⟩
    rw [ih hrep.1 (fun c' hc' => hcs c' (List.mem_cons_of_mem c hc')) hu
      fun v hv => hwrites v (List.mem_cons_of_mem c hv)]
    rcases hstep.2 r hr x hx with hsame | ⟨v, rfl⟩
    · exact hsame
    · exact absurd List.mem_cons_self (hwrites v)

/-! ## The initial memory -/

/-- Every element of a pool is free, and its message is zero. -/
structure PoolReady (d : BufDescription) (data : ℤ) (mem : Mem) : Prop where
  header : ∀ i : ℕ, i < d.msgAmount →
    HeaderIs mem (data + i * (d.msgSize + msgOverhead)) MsgHeader.free
  content : ∀ i : ℕ, i < d.msgAmount →
    bytes mem (data + i * (d.msgSize + msgOverhead) + msgOverhead) d.msgSize =
      List.replicate d.msgSize 0

/-- The loop that writes the magic, after `n` rounds -/
def writeMagics (d : BufDescription) (data : ℤ) (mem : Mem) (n : ℕ) : Mem :=
  (List.range n).foldl (fun mem (i : ℕ) =>
    setHeaderMagic mem (data + i * (d.msgSize + msgOverhead)) magic) mem

theorem writeMagics_succ (d : BufDescription) (data : ℤ) (mem : Mem) (n : ℕ) :
    writeMagics d data mem (n + 1) =
      setHeaderMagic (writeMagics d data mem n) (data + n * (d.msgSize + msgOverhead)) magic := by
  simp only [writeMagics, List.range_succ, List.foldl_append, List.foldl_cons, List.foldl_nil]

theorem header_add_le {i j : ℕ} (d : BufDescription) (data : ℤ) (h : i < j) :
    data + i * (d.msgSize + msgOverhead) + (d.msgSize + msgOverhead) ≤
      data + j * (d.msgSize + msgOverhead) := by
  have hcast : ((i * (d.msgSize + msgOverhead) + (d.msgSize + msgOverhead) : ℕ) : ℤ) ≤
      (j * (d.msgSize + msgOverhead) : ℕ) := by exact_mod_cast offset_add_le h
  push_cast at hcast
  omega

theorem writeMagics_of_outside {d : BufDescription} {data x : ℤ} {mem : Mem} {n : ℕ}
    (hx : ∀ i : ℕ, i < n → x < data + i * (d.msgSize + msgOverhead) ∨
      data + i * (d.msgSize + msgOverhead) + 4 ≤ x) : writeMagics d data mem n x = mem x := by
  induction n with
  | zero => rfl
  | succ n ih =>
    rw [writeMagics_succ, setHeaderMagic,
      sameOutside_writeWord (n := 4) le_rfl (by omega) _ _ x (hx n (by omega))]
    exact ih fun i hi => hx i (by omega)

theorem word_writeMagics {d : BufDescription} {data : ℤ} {mem : Mem} {n i : ℕ} (hi : i < n) :
    word (writeMagics d data mem n) (data + i * (d.msgSize + msgOverhead)) = magic := by
  induction n with
  | zero => omega
  | succ n ih =>
    rw [writeMagics_succ]
    by_cases hin : i = n
    · rw [hin]
      exact word_writeWord _ _ _
    · have hlt : i < n := by omega
      have hle := header_add_le d data hlt
      simp only [msgOverhead] at hle ih ⊢
      rw [setHeaderMagic, (sameOutside_writeWord (n := 4) le_rfl (by omega) _ _).word_eq (by omega)]
      exact ih hlt

theorem initPool_eq (d : BufDescription) (data : ℤ) (mem : Mem) :
    MemPump.initPool d data mem = writeMagics d data (memset mem data 0 d.poolSize) d.msgAmount :=
  rfl

/-- A place in an element behind the magic is zero. -/
theorem initPool_apply (d : BufDescription) (data : ℤ) (mem : Mem) {i k : ℕ}
    (hi : i < d.msgAmount) (hk : 4 ≤ k) (hk' : k < d.msgSize + msgOverhead) :
    MemPump.initPool d data mem (data + i * (d.msgSize + msgOverhead) + k) = 0 := by
  have hplace : data + i * (d.msgSize + msgOverhead) + k =
      data + ((i * (d.msgSize + msgOverhead) + k : ℕ) : ℤ) := by push_cast; ring
  have hin : i * (d.msgSize + msgOverhead) + k < d.poolSize := by
    have hle := offset_add_le (k := d.msgSize + msgOverhead) hi
    rw [BufDescription.poolSize]
    omega
  rw [initPool_eq, writeMagics_of_outside, hplace, memset_apply hin]
  intro j _
  rcases Nat.lt_trichotomy j i with h | h | h
  · have hle := header_add_le d data h
    simp only [msgOverhead] at hle ⊢
    omega
  · rw [h]
    omega
  · have hle := header_add_le d data h
    omega

theorem initPool_ready (d : BufDescription) (data : ℤ) (mem : Mem) :
    PoolReady d data (MemPump.initPool d data mem) where
  header i hi := by
    refine ⟨word_writeMagics hi, ?_, ?_⟩
    · have hzero := initPool_apply d data mem (k := 4) hi le_rfl
        (by simp only [msgOverhead]; omega)
      exact congrArg UInt8.toNat hzero
    · exact initPool_apply d data mem (k := 5) hi (by omega)
        (by simp only [msgOverhead]; omega)
  content i hi := by
    refine List.eq_replicate_iff.mpr ⟨by simp [bytes], fun b hb => ?_⟩
    obtain ⟨k, hk, rfl⟩ := List.mem_map.mp hb
    have hk := List.mem_range.mp hk
    have hzero := initPool_apply d data mem (k := msgOverhead + k) hi
      (by simp only [msgOverhead]; omega) (by omega)
    push_cast at hzero
    rwa [← add_assoc] at hzero

theorem sameOutside_initPool (d : BufDescription) (data : ℤ) (mem : Mem) :
    SameOutside data d.poolSize mem (MemPump.initPool d data mem) := by
  intro x hx
  rw [initPool_eq, writeMagics_of_outside]
  · exact sameOutside_memset mem data 0 d.poolSize x hx
  · intro i hi
    have hle := header_add_le d data hi
    have hpos : (0 : ℤ) ≤ i * (d.msgSize + msgOverhead) := by positivity
    simp only [BufDescription.poolSize] at hx
    push_cast at hx
    simp only [msgOverhead] at hle hx hpos ⊢
    omega

/-- The pools of the other descriptors are left alone. -/
theorem foldl_initPool_outside (l : Layout t) {ds : List BufDescription} {mem : Mem} {x : ℤ}
    (hx : ∀ d ∈ ds, x < l.data d.id ∨ l.data d.id + d.poolSize ≤ x) :
    ds.foldl (fun mem d => MemPump.initPool d (l.data d.id) mem) mem x = mem x := by
  induction ds generalizing mem with
  | nil => rfl
  | cons d ds ih =>
    rw [List.foldl_cons, ih fun d' hd' => hx d' (List.mem_cons_of_mem d hd')]
    exact sameOutside_initPool d (l.data d.id) mem x (hx d List.mem_cons_self)

theorem PoolReady.congr {data : ℤ} {mem mem' : Mem} (h : PoolReady d data mem)
    (hsame : ∀ x, data ≤ x → x < data + d.poolSize → mem' x = mem x) : PoolReady d data mem' := by
  -- a place in an element is one in the pool
  have hin : ∀ i k : ℕ, i < d.msgAmount → k < d.msgSize + msgOverhead →
      mem' (data + i * (d.msgSize + msgOverhead) + k) =
        mem (data + i * (d.msgSize + msgOverhead) + k) := by
    intro i k hi hk
    have hle := header_add_le d data hi
    have hpos : (0 : ℤ) ≤ i * (d.msgSize + msgOverhead) := by positivity
    refine hsame _ (by omega) ?_
    simp only [BufDescription.poolSize]
    push_cast
    omega
  refine ⟨fun i hi => ?_, fun i hi => ?_⟩
  · have hheader := h.header i hi
    refine ⟨?_, ?_, ?_⟩
    · rw [← hheader.magic]
      refine word_congr fun x hx hx4 => ?_
      obtain ⟨k, rfl⟩ : ∃ k : ℕ, x = data + i * (d.msgSize + msgOverhead) + k :=
        ⟨(x - (data + i * (d.msgSize + msgOverhead))).toNat, by omega⟩
      exact hin i k hi (by simp only [msgOverhead]; omega)
    · rw [← hheader.refCnt]
      exact congrArg UInt8.toNat (hin i 4 hi (by simp only [msgOverhead]; omega))
    · rw [← hheader.flags]
      exact hin i 5 hi (by simp only [msgOverhead]; omega)
  · rw [← h.content i hi]
    refine bytes_congr fun k hk => ?_
    have hk' := hin i (msgOverhead + k) hi (by omega)
    push_cast at hk'
    rwa [← add_assoc] at hk'

/-- After `msgPump_init` every pool is ready, whatever was in memory. -/
theorem foldl_initPool_ready (l : Layout t) {ds : List BufDescription} {mem : Mem}
    (hds : ∀ d ∈ ds, t.messageBuffers d.id = some d) (hnodup : (ds.map BufDescription.id).Nodup) :
    ∀ d ∈ ds, PoolReady d (l.data d.id)
      (ds.foldl (fun mem d => MemPump.initPool d (l.data d.id) mem) mem) := by
  induction ds generalizing mem with
  | nil => simp
  | cons d ds ih =>
    simp only [List.map_cons, List.nodup_cons] at hnodup
    have hds' : ∀ d' ∈ ds, t.messageBuffers d'.id = some d' :=
      fun d' hd' => hds d' (List.mem_cons_of_mem d hd')
    intro d' hd'
    rw [List.foldl_cons]
    rcases List.mem_cons.mp hd' with rfl | hd'
    · refine (initPool_ready d' (l.data d'.id) mem).congr fun x hx hx' => ?_
      refine foldl_initPool_outside l fun e he => ?_
      have hne : e.id ≠ d'.id := fun heq => hnodup.1 (heq ▸ List.mem_map_of_mem he)
      have hpools := l.disjoint e.id d'.id e d' (hds' e he) (hds d' List.mem_cons_self) hne
      omega
    · exact ih hds' hnodup.2 d' hd'

/-- The messages of the elements after `msgPump_init` -/
def zeroData (t : BufTable) (e : Elem) : List UInt8 :=
  (t.messageBuffers e.id).elim [] fun d => List.replicate d.msgSize 0

/-- The section of the descriptors, which `msgPump_init` reads into `g_messageBuffers` -/
structure IsSection (t : BufTable) (ds : List BufDescription) : Prop where
  mem_iff : ∀ d, d ∈ ds ↔ t.messageBuffers d.id = some d
  nodup : (ds.map BufDescription.id).Nodup

theorem init_represents (l : Layout t) (m : MemPump) {ds : List BufDescription}
    (hds : IsSection t ds) :
    StateRepresents l { pump := m.init l ds, pc := .waiting }
      (initial m.callbackVector (zeroData t)) := by
  have hready : ∀ d msg, t.messageBuffers msg = some d → PoolReady d (l.data msg) (m.init l ds).mem := by
    intro d msg hd
    have hid := t.id_eq msg d hd
    subst hid
    exact foldl_initPool_ready l (fun d' hd' => (hds.mem_iff d').mp hd') hds.nodup d
      ((hds.mem_iff d).mpr hd)
  refine ⟨⟨rfl, rfl, rfl, rfl, fun i => ⟨rfl, rfl, rfl, by simp [initial]⟩, ?_, ?_⟩, rfl⟩
  · intro e d hd he
    rw [headerOf_pointer hd]
    exact (hready d e.id hd).header e.index he
  · intro e d hd he
    rw [pointer_eq hd, (hready d e.id hd).content e.index he]
    simp [initial, zeroData, hd]

/-- The message pump on the bytes of its pools does what the message pump on elements does: from
`msgPump_init` on, whatever was in memory and whatever calls are made within the rules, all results
and all calls of callbacks are the same, and the bytes keep standing for the elements. -/
theorem bytes_refine_elements (l : Layout t) (m : MemPump) {ds : List BufDescription}
    (hds : IsSection t ds) {cs : List MemCall} (hcs : ∀ c ∈ cs, c.Allowed l) :
    Option.Rel (SameOutcome l)
      (calls (memCall l) { pump := m.init l ds, pc := .waiting } cs)
      (calls (elemCall l) (initial m.callbackVector (zeroData t))
        (asElemCalls l { pump := m.init l ds, pc := .waiting } cs)) :=
  calls_simulate (init_represents l m hds) hcs

theorem mem_msgPumpDescriptions {msg : MsgId} (hd : firmware.messageBuffers msg = some d) :
    d ∈ msgPumpDescriptions := by
  have hfind : msgPumpDescriptions.find? (fun e => e.id = msg) = some d := hd
  exact List.mem_of_find?_eq_some hfind

theorem firmware_isSection : IsSection firmware msgPumpDescriptions where
  mem_iff d := by
    have hall : ∀ d ∈ msgPumpDescriptions, firmware.messageBuffers d.id = some d := by decide
    exact ⟨hall d, mem_msgPumpDescriptions⟩
  nodup := by decide

theorem firmware_poolSize_le {msg : MsgId} (hd : firmware.messageBuffers msg = some d) :
    d.poolSize ≤ 4096 ∧ -3 ≤ msg := by
  have hall : ∀ d ∈ msgPumpDescriptions, d.poolSize ≤ 4096 := by decide
  exact ⟨hall d (mem_msgPumpDescriptions hd), (firmware.id_range msg d hd).1⟩

/-- The page of RAM for a pool -/
def page (i : ℤ) : ℕ := 0x20000000 + 4096 * (i + 3).toNat

theorem pages_apart {i j : ℤ} (hi : -3 ≤ i) (hj : -3 ≤ j) (hne : i ≠ j) {n k : ℕ} (hn : n ≤ 4096)
    (hk : k ≤ 4096) : page i + n ≤ page j ∨ page j + k ≤ page i := by
  simp only [page]
  omega

theorem page_ge (i : ℤ) : 0x20000000 ≤ page i := Nat.le_add_right _ _

/-- The pools of the power board in RAM, a page for each -/
def pagedLayout : Layout firmware where
  data := page
  data_pos msg := lt_of_lt_of_le (by decide) (page_ge msg)
  disjoint _ _ _ _ hd hd' hne :=
    pages_apart (firmware_poolSize_le hd).2 (firmware_poolSize_le hd').2 hne
      (firmware_poolSize_le hd).1 (firmware_poolSize_le hd').1

/-- Memory that was never written -/
def erased : MemPump :=
  { mem := fun _ => 0xff
    msgQueueFront := 0
    msgQueueTail := 0
    msgQueueSize := 0
    msgQueue := fun _ => { id := 0, buffer := 0, bufferDescription := none }
    callbackVector := fun _ _ => none }

/-- A power state in flash is posted and dispatched, and an element is reserved and written to. -/
theorem bytes_refine_elements_powerState :
    Option.Rel (SameOutcome pagedLayout)
      (calls (memCall pagedLayout)
        { pump := erased.init pagedLayout msgPumpDescriptions, pc := .waiting }
        [.post 1 0x08000000, .dispatch, .getFreeBuffer 1, .writeElement ⟨1, 1⟩ 3 7])
      (calls (elemCall pagedLayout) (initial erased.callbackVector (zeroData firmware))
        (asElemCalls pagedLayout { pump := erased.init pagedLayout msgPumpDescriptions, pc := .waiting }
          [.post 1 0x08000000, .dispatch, .getFreeBuffer 1, .writeElement ⟨1, 1⟩ 3 7])) := by
  refine bytes_refine_elements pagedLayout erased firmware_isSection fun c hc => ?_
  simp only [List.mem_cons, List.not_mem_nil, or_false] at hc
  rcases hc with rfl | rfl | rfl | rfl
  · intro d hd _
    have hd' : firmware.messageBuffers 1 =
        some (MessageType.systemPowerState.pool 2 msgIdSystemPowerState) :=
      rfl
    rw [hd', Option.some.injEq] at hd
    subst hd
    exact .inr (.inl (by decide))
  · trivial
  · trivial
  · exact ⟨MessageType.systemPowerState.pool 2 msgIdSystemPowerState, rfl, by decide, by decide⟩

/-- The address of the flags in front of the null pointer is `0xfffffffd`. -/
theorem place_ne_nullFlags {address : UInt32} (hnull : address ≠ 0xfffffffd) :
    place address ≠ nullFlags := by
  have hlt := address.toNat_lt
  have hne : address.toNat ≠ 0xfffffffd := fun h => hnull (UInt32.toNat_inj.mp h)
  simp only [place, nullFlags, headerOf, msgOverhead]
  split <;> omega

/-- The message pump writes to its pools only, and, for messages without a buffer, to the byte at
`0xfffffffd`: a byte at any other address outside of the pools that no client writes to is, after
`msgPump_init` and any calls within the rules, what it was before. -/
theorem pools_confine_writes (l : Layout t) (m : MemPump) {ds : List BufDescription}
    (hds : IsSection t ds) {cs : List MemCall} (hcs : ∀ c ∈ cs, c.Allowed l) {s : MemState}
    {results : List MemResult}
    (hrun : calls (memCall l) { pump := m.init l ds, pc := .waiting } cs = some (s, results))
    {address : UInt32} (hnull : address ≠ 0xfffffffd)
    (houtside : ∀ id d, t.messageBuffers id = some d →
      address.toNat < l.data id ∨ l.data id + d.poolSize ≤ address.toNat)
    (hwrites : ∀ v, MemCall.writeElsewhere (place address) v ∉ cs) :
    s.pump.mem (place address) = m.mem (place address) := by
  have hx : OutsidePools l (place address) := by
    refine ⟨place_ne_nullFlags hnull, fun id d hd => ?_⟩
    have hlt := address.toNat_lt
    have hout := houtside id d hd
    simp only [place]
    split <;> omega
  rw [calls_outside (init_represents l m hds) hcs hrun hx hwrites]
  exact foldl_initPool_outside l fun d hd => hx.2 d.id d ((hds.mem_iff d).mp hd)

/-- The dispatch of a message without a buffer writes the flag in front of the null pointer, and not the
counter beside it. -/
theorem pools_confine_writes_null :
    ∃ s results, calls (memCall pagedLayout)
        { pump := erased.init pagedLayout msgPumpDescriptions, pc := .waiting }
        [.writeElsewhere 5 7, .post 1 0, .dispatch] = some (s, results) ∧
      s.pump.mem (place 0xfffffffd) = Flag.inUse.value ∧ s.pump.mem (place 0xfffffffc) = 0xff := by
  have hallowed : ∀ c ∈ [MemCall.writeElsewhere 5 7, .post 1 0, .dispatch],
      c.Allowed pagedLayout := by
    intro c hc
    simp only [List.mem_cons, List.not_mem_nil, or_false] at hc
    rcases hc with rfl | rfl | rfl
    · intro msg d _
      have hpage : 0x20000000 ≤ pagedLayout.data msg := page_ge msg
      omega
    · intro d _ h
      exact absurd rfl h
    · trivial
  have houtside : ∀ id d, firmware.messageBuffers id = some d →
      (0xfffffffc : UInt32).toNat < pagedLayout.data id ∨
        pagedLayout.data id + d.poolSize ≤ (0xfffffffc : UInt32).toNat := by
    intro id d hd
    have hall : ∀ d ∈ msgPumpDescriptions, page d.id + d.poolSize ≤ 0xfffffffc := by decide
    have hid := firmware.id_eq id d hd
    subst hid
    exact .inr (hall d (mem_msgPumpDescriptions hd))
  exact ⟨_, _, rfl, rfl, pools_confine_writes pagedLayout erased firmware_isSection hallowed rfl
    (by decide) houtside (by simp [place])⟩

end Powerboard.MsgPump
