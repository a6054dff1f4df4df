import Powerboard.MsgPump.PumpTheorems

/-!
# The books of a buffer pool

For pools whose elements nobody locks: every element is free, or the queue holds it, or it is
reserved and has an owner. `Account` states this with the header that each of them has, and says
what each operation does to the owners. An element that loses its owner in any other way is lost.
-/

namespace Powerboard.MsgPump

/-! ## What the queue holds -/

/-- The queue entries that are not yet unlocked. -/
def PumpState.heldEntries (s : PumpState) : List QueueEntry :=
  match s.pc with
  | .unlocked => s.pump.queue.tail
  | .waiting | .calling _ | .cleared => s.pump.queue

/-- The elements that the queue holds a reference to. -/
def PumpState.held (s : PumpState) : List Elem := s.heldEntries.filterMap (·.buffer)

variable {t : BufTable} {s : PumpState} {d : BufDescription} {id : MsgId} {ptr : Pointer}

lemma heldEntries_of_ne (hpc : s.pc ≠ .unlocked) : s.heldEntries = s.pump.queue := by
  unfold PumpState.heldEntries
  cases hp : s.pc with
  | unlocked => exact absurd hp hpc
  | waiting | calling | cleared => rfl

lemma heldEntries_of_unlocked (hpc : s.pc = .unlocked) : s.heldEntries = s.pump.queue.tail := by
  unfold PumpState.heldEntries
  rw [hpc]

lemma mem_queue_of_heldEntries {m : QueueEntry} (h : m ∈ s.heldEntries) : m ∈ s.pump.queue := by
  by_cases hpc : s.pc = .unlocked
  · rw [heldEntries_of_unlocked hpc] at h
    exact List.mem_of_mem_tail h
  · rw [heldEntries_of_ne hpc] at h
    exact h

lemma held_of_sameRing {p' : Pump} (h : SameRing s.pump p') :
    PumpState.held { s with pump := p' } = s.held := by
  unfold PumpState.held PumpState.heldEntries
  rw [h.queue]

lemma held_enqueue {p' : Pump} {m : QueueEntry} (h : WellFormed t s)
    (hring : SameRing s.pump p') (hroom : ¬ s.pump.Full) :
    PumpState.held { s with pump := p'.enqueue m } = s.held ++ m.buffer.toList := by
  have hentries : PumpState.heldEntries { s with pump := p'.enqueue m } = s.heldEntries ++ [m] := by
    unfold PumpState.heldEntries
    cases hpc : s.pc with
    | waiting | calling | cleared => exact h.queue_enqueue hring hroom
    | unlocked => exact h.tail_queue_enqueue hring hroom (by rw [hpc]; simp)
  unfold PumpState.held
  rw [hentries, List.filterMap_append]
  cases hm : m.buffer <;> simp [hm]

/-- A post comes last: a message that is being dispatched stays at the front. -/
lemma queue_of_enqueue {p' : Pump} {m m' : QueueEntry} {rest : List QueueEntry}
    (h : WellFormed t s) (hring : SameRing s.pump p') (hroom : ¬ s.pump.Full) (hpc : s.pc ≠ .waiting)
    (hqueue : (p'.enqueue m).queue = m' :: rest) : ∃ rest', s.pump.queue = m' :: rest' := by
  have hcons := h.ring.queue_eq_cons (h.busy hpc)
  rw [h.queue_enqueue hring hroom, hcons, List.cons_append, List.cons.injEq] at hqueue
  rw [hqueue.1] at hcons
  exact ⟨_, hcons⟩

/-- A post leaves what is held, or adds an element of its pool. -/
lemma held_post {r : Bool × Pump} (h : WellFormed t s) (hr : PostOutcome d s.pump id ptr r) :
    PumpState.held { s with pump := r.2 } = s.held ∨
      ∃ i, PumpState.held { s with pump := r.2 } = s.held ++ [⟨id, i⟩] := by
  cases hr with
  | full | misaligned | noneFree => exact Or.inl rfl
  | recovered i => exact Or.inl (held_of_sameRing (sameRing_setHeader _ _))
  | reserved i hroom => exact Or.inr ⟨i, held_enqueue h (sameRing_setHeader _ _) hroom⟩
  | copied i hroom =>
    exact Or.inr ⟨i, held_enqueue h ((sameRing_setHeader _ _).trans (sameRing_setData _ _)) hroom⟩

lemma length_held_le (s : PumpState) : s.held.length ≤ s.pump.msgQueueSize := by
  have hentries : s.heldEntries.length ≤ s.pump.queue.length := by
    unfold PumpState.heldEntries
    cases s.pc <;> simp
  rw [Pump.length_queue] at hentries
  exact (List.length_filterMap_le _ _).trans hentries

/-- What is held belongs to a message of its id. -/
lemma exists_entry_of_mem_held {e : Elem} (h : WellFormed t s) (he : e ∈ s.held) :
    ∃ m ∈ s.pump.queue, m.buffer = some e ∧ m.id = e.id := by
  obtain ⟨m, hm, hbuffer⟩ := List.mem_filterMap.mp he
  have hmem := mem_queue_of_heldEntries hm
  obtain ⟨d, -, -, hentry⟩ := h.entries m hmem
  exact ⟨m, hmem, hbuffer, (hentry e hbuffer).1.symm⟩

/-- The element of the message at the front is held first, until it is unlocked. -/
lemma held_of_queue {m : QueueEntry} {rest : List QueueEntry} (hqueue : s.pump.queue = m :: rest)
    (hpc : s.pc ≠ .unlocked) :
    s.held = m.buffer.toList ++ rest.filterMap (·.buffer) := by
  unfold PumpState.held
  rw [heldEntries_of_ne hpc, hqueue]
  cases hm : m.buffer <;> simp [hm]

/-- The element of the message at the front is not held any more when it is unlocked. -/
lemma held_of_unlocked {m : QueueEntry} {rest : List QueueEntry} (hqueue : s.pump.queue = m :: rest)
    (hpc : s.pc = .unlocked) : s.held = rest.filterMap (·.buffer) := by
  unfold PumpState.held
  rw [heldEntries_of_unlocked hpc, hqueue, List.tail_cons]

/-- The unlocking of the message at the front. -/
lemma held_unlock {m : QueueEntry} {rest : List QueueEntry} (hqueue : s.pump.queue = m :: rest) :
    PumpState.held ⟨(unlockMessage s.pump m.buffer).2, .unlocked⟩ = rest.filterMap (·.buffer) :=
  held_of_unlocked ((sameRing_unlockMessage m.buffer).queue.trans hqueue) rfl

/-- When the front index moves on, its message has been unlocked. -/
lemma held_advance (hpc : s.pc = .unlocked) (hsize : s.pump.msgQueueSize ≠ 0) :
    PumpState.held ⟨s.pump.advance, .waiting⟩ = s.held := by
  unfold PumpState.held
  rw [heldEntries_of_ne (by simp), heldEntries_of_unlocked hpc]
  exact congrArg _ (Pump.queue_advance hsize)

/-- The queue holds the element of a message until its flag is cleared. -/
lemma mem_held_of_cleared {m : QueueEntry} {rest : List QueueEntry} {e : Elem}
    (hpc : s.pc = .cleared) (hqueue : s.pump.queue = m :: rest) (hm : m.buffer = some e) :
    e ∈ s.held := by
  rw [held_of_queue hqueue (by rw [hpc]; simp), hm]
  simp

/-- Before the front is unlocked, what is held depends on the queue only. -/
lemma held_of_queue_eq {p' : Pump} {pc' : DispatchPc} (hqueue : p'.queue = s.pump.queue)
    (hpc : s.pc ≠ .unlocked) (hpc' : pc' ≠ .unlocked) : PumpState.held ⟨p', pc'⟩ = s.held := by
  unfold PumpState.held
  rw [heldEntries_of_ne hpc, heldEntries_of_ne hpc', hqueue]

/-- A step of the loop leaves what is held, or unlocks the message at the front. -/
lemma held_dispatch {r : PumpState × Option Call} (hr : DispatchOutcome t s r) :
    r.1.held = s.held ∨
      ∃ m : QueueEntry, s.pc = .cleared ∧ r.1.pc = .unlocked ∧
        r.1.pump = (unlockMessage s.pump m.buffer).2 ∧ s.held = m.buffer.toList ++ r.1.held := by
  cases hr with
  | idle => exact Or.inl rfl
  | start m rest hpc hqueue =>
    left
    apply held_of_queue_eq (sameRing_setBufferFlag _ _).queue _ (by simp)
    rw [hpc]
    simp
  | call m rest i hpc hi hqueue =>
    left
    apply held_of_queue_eq rfl _ (by simp)
    rw [hpc]
    simp
  | returned m rest hpc hqueue =>
    left
    apply held_of_queue_eq (sameRing_setBufferFlag _ _).queue _ (by simp)
    rw [hpc]
    simp
  | unlock m rest hpc hqueue =>
    right
    refine ⟨m, hpc, rfl, rfl, ?_⟩
    rw [held_of_queue hqueue (by rw [hpc]; simp), held_unlock hqueue]
  | finish m rest hpc hqueue =>
    left
    exact held_advance hpc (Pump.size_ne_zero hqueue)

/-! ## The books -/

/-- Every element of the pools `ids` is free, or the queue holds it, or it has an owner. -/
def Accounted (t : BufTable) (ids : MsgId → Prop) (owners : Elem → Prop) (s : PumpState) : Prop :=
  ∀ e d, ids e.id → t.messageBuffers e.id = some d → e.index < d.msgAmount →
    (s.pump.header e).IsFree ∨ e ∈ s.held ∨ owners e

/-- The books of the pools `ids`, whose elements nobody locks but the pump and the owners. -/
structure Account (t : BufTable) (ids : MsgId → Prop) (owners : Elem → Prop) (s : PumpState) :
    Prop where
  wellFormed : WellFormed t s
  once : ∀ e, ids e.id → s.held.count e ≤ 1
  /-- the queue has the one lock of an element it holds -/
  held : ∀ e ∈ s.held, ids e.id → (s.pump.header e).headerMagic = magic ∧
    (s.pump.header e).refCnt = 1 ∧ (s.pump.header e).flags ≠ .bufferNotUsable
  /-- the flag is cleared before the lock is given back -/
  cleared : s.pc = .cleared → ∀ m rest e, s.pump.queue = m :: rest → m.buffer = some e →
    ids e.id → (s.pump.header e).flags = .nothing
  owned : ∀ e, owners e → ids e.id → s.pump.header e = .reserved ∧ e ∉ s.held
  others : ∀ e, ids e.id → e ∉ s.held → ¬ owners e → s.pump.header e = .free

variable {ids : MsgId → Prop} {owners owners' : Elem → Prop} {e : Elem}

lemma Account.accounted (h : Account t ids owners s) : Accounted t ids owners s := by
  intro e d hid hd hindex
  by_cases hheld : e ∈ s.held
  · exact Or.inr (Or.inl hheld)
  by_cases howner : owners e
  · exact Or.inr (Or.inr howner)
  · exact Or.inl (MsgHeader.isFree_iff.mpr (h.others e hid hheld howner))

/-- An element whose owner forgets it is lost. -/
lemma Account.not_accounted (h : Account t ids owners s) (he : owners e) (hid : ids e.id)
    (hd : t.messageBuffers e.id = some d) (hindex : e.index < d.msgAmount) (hlost : ¬ owners' e) :
    ¬ Accounted t ids owners' s := by
  intro haccounted
  obtain ⟨hheader, hheld⟩ := h.owned e he hid
  rcases haccounted e d hid hd hindex with hfree | hin | howner
  · rw [MsgHeader.isFree_iff, hheader] at hfree
    exact absurd hfree (by decide)
  · exact hheld hin
  · exact hlost howner

/-- The books depend on the owners only through the pools they are about. -/
lemma Account.congr (h : Account t ids owners s)
    (howners : ∀ e, ids e.id → (owners' e ↔ owners e)) : Account t ids owners' s := by
  refine ⟨h.wellFormed, h.once, h.held, h.cleared, ?_, ?_⟩
  · intro e he hid
    exact h.owned e ((howners e hid).mp he) hid
  · intro e hid hheld he
    exact h.others e hid hheld (mt (howners e hid).mpr he)

/-- The books of fewer pools. -/
lemma Account.mono {ids' : MsgId → Prop} (h : Account t ids owners s)
    (hids : ∀ id, ids' id → ids id) : Account t ids' owners s :=
  ⟨h.wellFormed, fun e hid => h.once e (hids _ hid), fun e he hid => h.held e he (hids _ hid),
    fun hpc m rest e hqueue hm hid => h.cleared hpc m rest e hqueue hm (hids _ hid),
    fun e he hid => h.owned e he (hids _ hid), fun e hid => h.others e (hids _ hid)⟩

lemma account_initial (callbackVector : MsgId → ℕ → Option Callback) (data : Elem → List UInt8) :
    Account t ids (fun _ => False) (initial callbackVector data) := by
  have hheld : (initial callbackVector data).held = [] := rfl
  refine ⟨wellFormed_initial callbackVector data, ?_, ?_, ?_, ?_, ?_⟩
  · intro e hid
    simp [hheld]
  · intro e he
    simp [hheld] at he
  · intro hpc
    simp [initial] at hpc
  · intro e he
    exact he.elim
  · intro e hid hnot he
    rfl

/-! ## Operations on other pools -/

/-- What changes no header of the pools and not the ring leaves the books. -/
lemma Account.of_sameRing {p' : Pump} (h : Account t ids owners s) (hring : SameRing s.pump p')
    (hheader : ∀ e, ids e.id → p'.header e = s.pump.header e) :
    Account t ids owners { s with pump := p' } := by
  have hheld := held_of_sameRing hring
  refine ⟨h.wellFormed.of_sameRing hring, ?_, ?_, ?_, ?_, ?_⟩
  · rw [hheld]
    exact h.once
  · intro e he hid
    rw [hheld] at he
    show (p'.header e).headerMagic = magic ∧ _
    rw [hheader e hid]
    exact h.held e he hid
  · intro hpc m rest e hqueue hm hid
    show (p'.header e).flags = .nothing
    rw [hheader e hid]
    apply h.cleared hpc m rest e _ hm hid
    rw [← hqueue]
    exact hring.queue.symm
  · intro e he hid
    rw [hheld]
    show p'.header e = .reserved ∧ _
    rw [hheader e hid]
    exact h.owned e he hid
  · intro e hid hnot he
    rw [hheld] at hnot
    show p'.header e = .free
    rw [hheader e hid]
    exact h.others e hid hnot he

lemma setHeader_of_other {p : Pump} {header : MsgHeader} {e' : Elem} (hother : ¬ ids e.id)
    (hid : ids e'.id) : (p.setHeader e header).header e' = p.header e' := by
  rw [Pump.setHeader_header, Function.update_of_ne]
  intro heq
  rw [heq] at hid
  exact hother hid

/-- A header of another pool may change. -/
lemma Account.setHeader (h : Account t ids owners s) (e : Elem) (header : MsgHeader)
    (hid : ¬ ids e.id) :
    Account t ids owners { s with pump := s.pump.setHeader e header } :=
  h.of_sameRing (sameRing_setHeader _ _) fun _ hid' => setHeader_of_other hid hid'

/-- An element of another pool may be put into the queue. -/
lemma Account.enqueue {m : QueueEntry} (h : Account t ids owners s) (hroom : ¬ s.pump.Full)
    (hm : EntryOk t m) (hid : ∀ e, m.buffer = some e → ¬ ids e.id) :
    Account t ids owners { s with pump := s.pump.enqueue m } := by
  have hring : SameRing s.pump s.pump := ⟨rfl, rfl, rfl, rfl⟩
  have hheld : PumpState.held { s with pump := s.pump.enqueue m } = s.held ++ m.buffer.toList :=
    held_enqueue h.wellFormed hring hroom
  have hnot : ∀ e, ids e.id → e ∉ m.buffer.toList := by
    intro e hids he
    exact hid e (Option.mem_toList.mp he) hids
  have hmem : ∀ e, ids e.id → (e ∈ s.held ++ m.buffer.toList ↔ e ∈ s.held) := by
    intro e hids
    rw [List.mem_append, or_iff_left (hnot e hids)]
  refine ⟨h.wellFormed.enqueue hring hroom hm, ?_, ?_, ?_, ?_, ?_⟩
  · intro e hids
    rw [hheld, List.count_append, List.count_eq_zero_of_not_mem (hnot e hids), add_zero]
    exact h.once e hids
  · intro e he hids
    rw [hheld, hmem e hids] at he
    exact h.held e he hids
  · intro hpc m' rest e hqueue hm' hids
    have hpc' : s.pc ≠ .waiting := by
      rw [show s.pc = .cleared from hpc]
      simp
    obtain ⟨rest', hcons⟩ := queue_of_enqueue h.wellFormed hring hroom hpc' hqueue
    exact h.cleared hpc m' rest' e hcons hm' hids
  · intro e he hids
    rw [hheld, hmem e hids]
    exact h.owned e he hids
  · intro e hids hnot' he
    rw [hheld, hmem e hids] at hnot'
    exact h.others e hids hnot' he

/-- Posts to other pools leave the books. -/
lemma Account.post {r : Bool × Pump} (h : Account t ids owners s) (hid : ¬ ids id)
    (hd : t.messageBuffers id = some d) (hr : PostOutcome d s.pump id ptr r) :
    Account t ids owners { s with pump := r.2 } := by
  cases hr with
  | full | misaligned | noneFree => exact h
  | recovered i => exact h.setHeader _ _ hid
  | reserved i hroom hptr hheader =>
    refine (h.setHeader ⟨id, i⟩ .posted hid).enqueue hroom (entryOk_entryOf hd hptr.1) ?_
    intro e he
    rw [entryOf_buffer, Option.some.injEq] at he
    rwa [← he]
  | copied i hroom hout hi hheader =>
    have hset := (h.setHeader ⟨id, i⟩ .posted hid).of_sameRing
      (sameRing_setData ⟨id, i⟩ (copied d ptr)) fun _ _ => rfl
    refine hset.enqueue hroom (entryOk_entryOf hd hi) ?_
    intro e he
    rw [entryOf_buffer, Option.some.injEq] at he
    rwa [← he]

/-- So do reservations from other pools. -/
lemma Account.getFreeOther {r : Option Elem × Pump} (h : Account t ids owners s) (hid : ¬ ids id)
    (hr : GetFreeOutcome d s.pump id r) : Account t ids owners { s with pump := r.2 } := by
  cases hr with
  | reserved i => exact h.setHeader _ _ hid
  | noneFree => exact h

/-- So do locks of elements of other pools. -/
lemma Account.lockOther (h : Account t ids owners s) (hid : ¬ ids e.id) :
    Account t ids owners { s with pump := (lockMessage s.pump (some e)).2 } := by
  unfold lockMessage
  dsimp only
  split
  · exact h.setHeader _ _ hid
  · exact h

lemma Account.unlockOther (h : Account t ids owners s) (hid : ¬ ids e.id) :
    Account t ids owners { s with pump := (unlockMessage s.pump (some e)).2 } := by
  unfold unlockMessage
  dsimp only
  split
  · exact h.setHeader _ _ hid
  · exact h

/-! ## Operations on the pools themselves -/

/-- A reservation makes the caller the owner of the element. -/
lemma Account.getFree {r : Option Elem × Pump} (h : Account t ids owners s) (hid : ids id)
    (hr : GetFreeOutcome d s.pump id r) :
    Account t ids (fun e => owners e ∨ r.1 = some e) { s with pump := r.2 } := by
  cases hr with
  | noneFree => exact h.congr (by simp)
  | reserved i hi hfree =>
    have hring : SameRing s.pump (s.pump.setHeader ⟨id, i⟩ .reserved) := sameRing_setHeader _ _
    have hheld := held_of_sameRing hring
    -- what is held has a lock, and a free element has none
    have hnot : (⟨id, i⟩ : Elem) ∉ s.held := by
      intro hin
      have hheader := (h.held _ hin hid).2.1
      rw [hfree] at hheader
      exact absurd hheader (by decide)
    have hother : ∀ e ≠ (⟨id, i⟩ : Elem),
        (s.pump.setHeader ⟨id, i⟩ .reserved).header e = s.pump.header e := by
      intro e he
      rw [Pump.setHeader_header, Function.update_of_ne he]
    refine ⟨h.wellFormed.of_sameRing hring, ?_, ?_, ?_, ?_, ?_⟩
    · rw [hheld]
      exact h.once
    · intro e he hids
      rw [hheld] at he
      have hne : e ≠ ⟨id, i⟩ := fun heq => hnot (heq ▸ he)
      show ((s.pump.setHeader ⟨id, i⟩ .reserved).header e).headerMagic = magic ∧ _
      rw [hother e hne]
      exact h.held e he hids
    · intro hpc m rest e hqueue hm hids
      have hflag := h.cleared hpc m rest e hqueue hm hids
      have hne : e ≠ ⟨id, i⟩ := by
        -- the message at the front is held while its flag is cleared
        intro heq
        exact hnot (heq ▸ mem_held_of_cleared (s := s) hpc hqueue hm)
      show ((s.pump.setHeader ⟨id, i⟩ .reserved).header e).flags = .nothing
      rw [hother e hne]
      exact hflag
    · intro e he hids
      rw [hheld]
      show (s.pump.setHeader ⟨id, i⟩ .reserved).header e = .reserved ∧ _
      by_cases heq : e = ⟨id, i⟩
      · subst heq
        exact ⟨Function.update_self _ _ _, hnot⟩
      · rw [hother e heq]
        apply h.owned e (he.resolve_right _) hids
        intro hsome
        exact heq (Option.some.inj hsome).symm
    · intro e hids hnot' he
      rw [hheld] at hnot'
      have heq : e ≠ ⟨id, i⟩ := fun heq => he (Or.inr (congrArg some heq.symm))
      show (s.pump.setHeader ⟨id, i⟩ .reserved).header e = .free
      rw [hother e heq]
      exact h.others e hids hnot' fun howner => he (Or.inl howner)

/-- An owned element is put into the queue: from then on the queue holds it, and nobody owns it. -/
lemma Account.enqueueOwned (h : Account t ids owners s) (hid : ids e.id) (he : owners e)
    (hd : t.messageBuffers e.id = some d) (hindex : e.index < d.msgAmount) (hroom : ¬ s.pump.Full) :
    Account t ids (fun e' => owners e' ∧ e' ≠ e)
      { s with pump := (s.pump.setHeader e .posted).enqueue (entryOf d e) } := by
  obtain ⟨-, hnot⟩ := h.owned e he hid
  set p' := s.pump.setHeader e .posted with hp'
  have hring : SameRing s.pump p' := sameRing_setHeader _ _
  have hheld : PumpState.held { s with pump := p'.enqueue (entryOf d e) } = s.held ++ [e] :=
    held_enqueue h.wellFormed hring hroom
  have hself : p'.header e = .posted := Function.update_self _ _ _
  have hother : ∀ e' ≠ e, p'.header e' = s.pump.header e' := by
    intro e' hne
    rw [hp', Pump.setHeader_header, Function.update_of_ne hne]
  refine ⟨h.wellFormed.enqueue hring hroom (entryOk_entryOf hd hindex), ?_, ?_, ?_, ?_, ?_⟩
  · intro e' hids
    show (PumpState.held { s with pump := p'.enqueue (entryOf d e) }).count e' ≤ 1
    rw [hheld, List.count_append]
    by_cases heq : e' = e
    · rw [heq, List.count_eq_zero_of_not_mem hnot]
      simp
    · rw [List.count_singleton, if_neg (by simpa using Ne.symm heq)]
      exact h.once e' hids
  · intro e' he' hids
    change e' ∈ PumpState.held { s with pump := p'.enqueue (entryOf d e) } at he'
    rw [hheld, List.mem_append, List.mem_singleton] at he'
    show (p'.header e').headerMagic = magic ∧ (p'.header e').refCnt = 1 ∧
      (p'.header e').flags ≠ .bufferNotUsable
    by_cases heq : e' = e
    · rw [heq, hself]
      exact ⟨rfl, rfl, by decide⟩
    · rw [hother e' heq]
      exact h.held e' (he'.resolve_right heq) hids
  · intro hpc m rest e' hqueue hm hids
    change (p'.enqueue (entryOf d e)).queue = m :: rest at hqueue
    have hpc' : s.pc ≠ .waiting := by
      rw [show s.pc = .cleared from hpc]
      simp
    obtain ⟨rest', hcons⟩ := queue_of_enqueue h.wellFormed hring hroom hpc' hqueue
    -- the front was held before, so it is not the new element
    have hin : e' ∈ s.held := mem_held_of_cleared hpc hcons hm
    show (p'.header e').flags = .nothing
    rw [hother e' fun heq => hnot (heq ▸ hin)]
    exact h.cleared hpc m rest' e' hcons hm hids
  · intro e' he' hids
    show p'.header e' = .reserved ∧
      e' ∉ PumpState.held { s with pump := p'.enqueue (entryOf d e) }
    rw [hheld, hother e' he'.2, List.mem_append, List.mem_singleton]
    obtain ⟨hheader', hnot'⟩ := h.owned e' he'.1 hids
    refine ⟨hheader', ?_⟩
    rintro (hin | heq)
    · exact hnot' hin
    · exact he'.2 heq
  · intro e' hids hnot' he'
    change e' ∉ PumpState.held { s with pump := p'.enqueue (entryOf d e) } at hnot'
    rw [hheld, List.mem_append, List.mem_singleton, not_or] at hnot'
    show p'.header e' = .free
    rw [hother e' hnot'.2]
    exact h.others e' hids hnot'.1 fun howner => he' ⟨howner, hnot'.2⟩

/-- A post of an owned element takes it from its owner, or finds the queue full. -/
lemma Account.postOwned {r : Bool × Pump} (h : Account t ids owners s) (hid : ids e.id)
    (he : owners e) (hd : t.messageBuffers e.id = some d) (hptr : d.PointsTo ptr e.index)
    (hr : PostOutcome d s.pump e.id ptr r) :
    (r = (true, (s.pump.setHeader e .posted).enqueue (entryOf d e)) ∧ ¬ s.pump.Full ∧
        Account t ids (fun e' => owners e' ∧ e' ≠ e) { s with pump := r.2 }) ∨
      (r = (false, s.pump) ∧ s.pump.Full) := by
  -- the element has the header that it got when its owner reserved it
  rcases hr.of_reserved hptr (h.owned e he hid).1 with ⟨rfl, hroom⟩ | hfull
  · exact Or.inl ⟨rfl, hroom, h.enqueueOwned hid he hd hptr.1 hroom⟩
  · exact Or.inr hfull

/-! ## Dispatching -/

lemma setBufferFlag_header (p : Pump) (buffer : Option Elem) (f : Flag) (e : Elem) :
    (setBufferFlag p buffer f).header e =
      if buffer = some e then { p.header e with flags := f } else p.header e := by
  cases buffer with
  | none => simp [setBufferFlag]
  | some e' =>
    by_cases heq : e' = e
    · subst heq
      simp [setBufferFlag]
    · simp [setBufferFlag, heq, Function.update_of_ne (Ne.symm heq)]

/-- The loop sets the flag of the message at the front. -/
lemma Account.setBufferFlag {m : QueueEntry} {rest : List QueueEntry} {f : Flag} {pc' : DispatchPc}
    (h : Account t ids owners s) (hqueue : s.pump.queue = m :: rest) (hpc : s.pc ≠ .unlocked)
    (hpc' : pc' ≠ .unlocked) (hf : f ≠ .bufferNotUsable) (hcleared : pc' = .cleared → f = .nothing)
    (hwf : WellFormed t ⟨MsgPump.setBufferFlag s.pump m.buffer f, pc'⟩) :
    Account t ids owners ⟨MsgPump.setBufferFlag s.pump m.buffer f, pc'⟩ := by
  have hring := sameRing_setBufferFlag (p := s.pump) m.buffer f
  have hheldIn := held_of_queue hqueue hpc
  have hheld : PumpState.held ⟨MsgPump.setBufferFlag s.pump m.buffer f, pc'⟩ = s.held := by
    rw [hheldIn]
    exact held_of_queue (hring.queue.trans hqueue) hpc'
  have hfront : ∀ e, m.buffer = some e → e ∈ s.held := by
    intro e hm
    rw [hheldIn, hm]
    simp
  have hother : ∀ e, e ∉ s.held →
      (MsgPump.setBufferFlag s.pump m.buffer f).header e = s.pump.header e := by
    intro e hnot
    rw [setBufferFlag_header, if_neg fun hm => hnot (hfront e hm)]
  refine ⟨hwf, ?_, ?_, ?_, ?_, ?_⟩
  · rw [hheld]
    exact h.once
  · intro e he hids
    rw [hheld] at he
    obtain ⟨hmagic, hcount, hflag⟩ := h.held e he hids
    rw [setBufferFlag_header]
    split
    · exact ⟨hmagic, hcount, hf⟩
    · exact ⟨hmagic, hcount, hflag⟩
  · intro hpc'' m' rest' e hqueue' hm hids
    rw [hring.queue, hqueue, List.cons.injEq] at hqueue'
    rw [setBufferFlag_header, if_pos (hqueue'.1 ▸ hm)]
    exact hcleared hpc''
  · intro e he hids
    rw [hheld]
    obtain ⟨hheader, hnot⟩ := h.owned e he hids
    exact ⟨(hother e hnot).trans hheader, hnot⟩
  · intro e hids hnot he
    rw [hheld] at hnot
    exact (hother e hnot).trans (h.others e hids hnot he)

/-- The loop gives the lock of the message at the front back: the element is free. -/
lemma Account.unlockFront {m : QueueEntry} {rest : List QueueEntry} (h : Account t ids owners s)
    (hqueue : s.pump.queue = m :: rest) (hpc : s.pc = .cleared)
    (hwf : WellFormed t ⟨(unlockMessage s.pump m.buffer).2, .unlocked⟩) :
    Account t ids owners ⟨(unlockMessage s.pump m.buffer).2, .unlocked⟩ := by
  set s' : PumpState := ⟨(unlockMessage s.pump m.buffer).2, .unlocked⟩ with hs'
  have hheldIn : s.held = m.buffer.toList ++ s'.held := by
    rw [held_of_queue hqueue (by rw [hpc]; simp), hs', held_unlock hqueue]
  have hother : ∀ e, m.buffer ≠ some e → s'.pump.header e = s.pump.header e := by
    intro e hm
    show (unlockMessage s.pump m.buffer).2.header e = s.pump.header e
    unfold unlockMessage
    cases hbuf : m.buffer with
    | none => rfl
    | some e' =>
      have hne : e ≠ e' := fun heq => hm (heq ▸ hbuf)
      dsimp only
      split
      · exact Function.update_of_ne hne _ _
      · rfl
  have hfront : ∀ e, m.buffer = some e → ids e.id → s'.pump.header e = .free ∧ e ∉ s'.held := by
    intro e hm hids
    obtain ⟨hmagic, hcount, -⟩ := h.held e (mem_held_of_cleared hpc hqueue hm) hids
    have hflag := h.cleared hpc m rest e hqueue hm hids
    constructor
    · show (unlockMessage s.pump m.buffer).2.header e = .free
      rw [hm]
      simp [unlockMessage, hmagic, hcount, hflag, MsgHeader.free]
    · -- it was held once
      have honce := h.once e hids
      rw [hheldIn, hm, Option.toList_some, List.count_append, List.count_singleton_self] at honce
      exact List.count_eq_zero.mp (by omega)
  have hback : ∀ e ∈ s'.held, e ∈ s.held := by
    intro e he
    rw [hheldIn]
    exact List.mem_append_right _ he
  refine ⟨hwf, ?_, ?_, ?_, ?_, ?_⟩
  · intro e hids
    have honce := h.once e hids
    rw [hheldIn, List.count_append] at honce
    omega
  · intro e he hids
    rw [hother e fun hm => (hfront e hm hids).2 he]
    exact h.held e (hback e he) hids
  · intro hpc'
    cases hpc'
  · intro e he hids
    obtain ⟨hheader, hnot⟩ := h.owned e he hids
    have hne : m.buffer ≠ some e := fun hm => hnot (mem_held_of_cleared hpc hqueue hm)
    exact ⟨(hother e hne).trans hheader, fun hin => hnot (hback e hin)⟩
  · intro e hids hnot he
    -- the element at the front has just become free, and the others were free before
    by_cases hm : m.buffer = some e
    · exact (hfront e hm hids).1
    · rw [hother e hm]
      apply h.others e hids _ he
      rw [hheldIn, List.mem_append, Option.mem_toList]
      rintro (hin | hin)
      · exact hm hin
      · exact hnot hin

/-- The loop goes on without touching a header or what is held. -/
lemma Account.of_held {s' : PumpState} (h : Account t ids owners s) (hwf : WellFormed t s')
    (hheld : s'.held = s.held) (hheader : s'.pump.header = s.pump.header) (hpc : s'.pc ≠ .cleared) :
    Account t ids owners s' := by
  refine ⟨hwf, ?_, ?_, fun hcleared => absurd hcleared hpc, ?_, ?_⟩ <;> rw [hheld]
  · exact h.once
  · rw [hheader]
    exact h.held
  · rw [hheader]
    exact h.owned
  · rw [hheader]
    exact h.others

/-- A step of the loop leaves the books. -/
lemma Account.dispatch {r : PumpState × Option Call} (h : Account t ids owners s)
    (hr : DispatchOutcome t s r) : Account t ids owners r.1 := by
  have hwf := h.wellFormed.dispatch hr
  cases hr with
  | idle => exact h
  | start m rest hpc hqueue =>
    exact h.setBufferFlag hqueue (by rw [hpc]; simp) (by simp) (by simp) (by simp) hwf
  | returned m rest hpc hqueue =>
    exact h.setBufferFlag hqueue (by rw [hpc]; simp) (by simp) (by simp) (by simp) hwf
  | unlock m rest hpc hqueue => exact h.unlockFront hqueue hpc hwf
  | call m rest i hpc hi hqueue =>
    have hheld : PumpState.held { s with pc := .calling (i + 1) } = s.held :=
      held_of_queue_eq rfl (by rw [hpc]; simp) (by simp)
    exact h.of_held hwf hheld rfl (by simp)
  | finish m rest hpc hqueue =>
    exact h.of_held hwf (held_advance hpc (Pump.size_ne_zero hqueue)) rfl (by simp)

end Powerboard.MsgPump
