import Powerboard.MsgPump.Accounting
import Powerboard.MsgPump.Clients
import Powerboard.MsgPump.Firmware

/-!
# Every message is delivered once, in order and unchanged

`DeliveryInv` is what holds in every state that clients keeping the rules can reach. It balances the
reference count of every element against its owners (the queue, a reservation, the locks of
clients), and the histories against the queue: what was posted is what was delivered, followed by
what is queued.
-/

namespace Powerboard.MsgPump

open Machine

/-- The message in an element. -/
def Pump.message (p : Pump) (e : Elem) : MsgId × List UInt8 := (e.id, p.data e)

/-- The calls that have been made for the message at the front. -/
def PumpState.callsOfFront (callbackVector : MsgId → ℕ → Option Callback) (s : PumpState) :
    List Call :=
  match s.pc, s.held with
  | .calling i, e :: _ => callsFor callbackVector i (s.pump.message e)
  | .cleared, e :: _ => callsFor callbackVector maxReceivers (s.pump.message e)
  | _, _ => []

/-- The invariant. -/
structure DeliveryInv (t : BufTable) (callbackVector : MsgId → ℕ → Option Callback) (c : Clients) :
    Prop where
  wellFormed : WellFormed t c.state
  callbacks : c.state.pump.callbackVector = callbackVector
  buffers : ∀ m ∈ c.state.pump.queue, m.buffer ≠ none
  nodup : c.state.held.Nodup
  /-- every reference has an owner -/
  refCnt : ∀ e, (c.state.pump.header e).refCnt =
    c.locks e + (if e ∈ c.state.held then 1 else 0) + (if c.reserved e then 1 else 0)
  magic : ∀ e, (c.state.pump.header e).headerMagic = MsgPump.magic
  usable : ∀ e, (c.state.pump.header e).flags ≠ .bufferNotUsable
  reserved : ∀ e, c.reserved e → e ∉ c.state.held ∧ (c.state.pump.header e).flags = .inUse ∧
    ∃ d, t.messageBuffers e.id = some d ∧ e.index < d.msgAmount
  history : ∃ delivered,
    c.posted = delivered ++ c.state.held.map c.state.pump.message ∧
    c.calls = delivered.flatMap (callsFor callbackVector maxReceivers) ++
      c.state.callsOfFront callbackVector

variable {t : BufTable} {callbackVector : MsgId → ℕ → Option Callback} {c c' : Clients}
  {d : BufDescription} {id : MsgId} {ptr : Pointer}

lemma callsFor_succ (i : ℕ) (message : MsgId × List UInt8) :
    callsFor callbackVector (i + 1) message = callsFor callbackVector i message ++
      ((callbackVector message.1 i).map fun callback =>
        ({ callback := callback, id := message.1, content := some message.2 } : Call)).toList := by
  unfold callsFor
  rw [List.range_succ, List.filterMap_append]
  congr 1

/-! ## The calls for the front -/

section Front
variable {s : PumpState}

lemma callsOfFront_calling {i : ℕ} {e : Elem} {rest : List Elem} (hpc : s.pc = .calling i)
    (hheld : s.held = e :: rest) :
    s.callsOfFront callbackVector = callsFor callbackVector i (s.pump.message e) := by
  unfold PumpState.callsOfFront
  rw [hpc, hheld]

lemma callsOfFront_cleared {e : Elem} {rest : List Elem} (hpc : s.pc = .cleared)
    (hheld : s.held = e :: rest) :
    s.callsOfFront callbackVector = callsFor callbackVector maxReceivers (s.pump.message e) := by
  unfold PumpState.callsOfFront
  rw [hpc, hheld]

lemma callsOfFront_idle (hpc : s.pc = .waiting ∨ s.pc = .unlocked) :
    s.callsOfFront callbackVector = [] := by
  unfold PumpState.callsOfFront
  rcases hpc with hpc | hpc <;> rw [hpc]

/-- The calls for the front depend on the loop, on what is held and on the data of what is held. -/
lemma callsOfFront_congr (s s' : PumpState) (hpc : s'.pc = s.pc)
    (hbusy : s.held = [] → s.pc = .waiting ∨ s.pc = .unlocked)
    (hheld : s.held <+: s'.held) (hdata : ∀ e ∈ s.held, s'.pump.data e = s.pump.data e) :
    s'.callsOfFront callbackVector = s.callsOfFront callbackVector := by
  unfold PumpState.callsOfFront
  rw [hpc]
  cases hcons : s.held with
  | nil =>
    rcases hbusy hcons with h | h <;> rw [h]
  | cons e rest =>
    rw [hcons] at hheld hdata
    obtain ⟨more, hmore⟩ := hheld
    rw [← hmore, List.cons_append]
    have he := hdata e List.mem_cons_self
    cases s.pc <;> simp [Pump.message, he]

end Front

/-! ## Steps that leave the queue as it is -/

/-- While a message is being dispatched something is held. -/
lemma DeliveryInv.idle_of_held_nil (h : DeliveryInv t callbackVector c) (hnil : c.state.held = []) :
    c.state.pc = .waiting ∨ c.state.pc = .unlocked := by
  by_contra hpc
  push Not at hpc
  have hcons := h.wellFormed.ring.queue_eq_cons (h.wellFormed.busy hpc.1)
  have hbuffer := h.buffers _ (hcons ▸ List.mem_cons_self)
  obtain ⟨e, he⟩ := Option.ne_none_iff_exists'.mp hbuffer
  rw [held_of_queue hcons hpc.2, he] at hnil
  cases hnil

/-- A step that changes neither the ring nor the data that is held, and keeps the books. -/
lemma DeliveryInv.of_sameRing (h : DeliveryInv t callbackVector c) (c' : Clients)
    (hpc : c'.state.pc = c.state.pc) (hring : SameRing c.state.pump c'.state.pump)
    (hcallbacks : c'.state.pump.callbackVector = c.state.pump.callbackVector)
    (hdata : ∀ e ∈ c.state.held, c'.state.pump.data e = c.state.pump.data e)
    (hposted : c'.posted = c.posted) (hcalls : c'.calls = c.calls)
    (hrefCnt : ∀ e, (c'.state.pump.header e).refCnt =
      c'.locks e + (if e ∈ c.state.held then 1 else 0) + (if c'.reserved e then 1 else 0))
    (hmagic : ∀ e, (c'.state.pump.header e).headerMagic = MsgPump.magic)
    (husable : ∀ e, (c'.state.pump.header e).flags ≠ .bufferNotUsable)
    (hreserved : ∀ e, c'.reserved e →
      e ∉ c.state.held ∧ (c'.state.pump.header e).flags = .inUse ∧
        ∃ d, t.messageBuffers e.id = some d ∧ e.index < d.msgAmount) :
    DeliveryInv t callbackVector c' := by
  have hstate : c'.state = { c.state with pump := c'.state.pump } := by
    cases hs : c'.state
    rw [hs] at hpc
    simp [← hpc]
  have hheld : c'.state.held = c.state.held := by
    rw [hstate]
    exact held_of_sameRing hring
  refine ⟨?_, hcallbacks.trans h.callbacks, ?_, ?_, ?_, hmagic, husable, ?_, ?_⟩
  · rw [hstate]
    exact h.wellFormed.of_sameRing hring
  · rw [hring.queue]
    exact h.buffers
  · rw [hheld]
    exact h.nodup
  · rw [hheld]
    exact hrefCnt
  · rw [hheld]
    exact hreserved
  · obtain ⟨delivered, hp, hc⟩ := h.history
    refine ⟨delivered, ?_, ?_⟩
    · rw [hposted, hp, hheld]
      congr 1
      apply List.map_congr_left
      intro e he
      simp [Pump.message, hdata e he]
    · rw [hcalls, hc, callsOfFront_congr c.state c'.state hpc h.idle_of_held_nil (by rw [hheld]) hdata]

/-- One header changes, and its magic number is right again; -/
lemma DeliveryInv.magic_update (h : DeliveryInv t callbackVector c) {header : MsgHeader} (e : Elem)
    (hmagic : header.headerMagic = MsgPump.magic) :
    ∀ e', (Function.update c.state.pump.header e header e').headerMagic = MsgPump.magic :=
  (Function.forall_update_iff c.state.pump.header fun _ header =>
    header.headerMagic = MsgPump.magic).mpr ⟨hmagic, fun e' _ => h.magic e'⟩

/-- and its element can be used. -/
lemma DeliveryInv.usable_update (h : DeliveryInv t callbackVector c) {header : MsgHeader} (e : Elem)
    (husable : header.flags ≠ .bufferNotUsable) :
    ∀ e', (Function.update c.state.pump.header e header e').flags ≠ .bufferNotUsable :=
  (Function.forall_update_iff c.state.pump.header fun _ header =>
    header.flags ≠ .bufferNotUsable).mpr ⟨husable, fun e' _ => h.usable e'⟩

/-- A step that changes one header, and the owners of that element with it. -/
lemma DeliveryInv.setHeader (h : DeliveryInv t callbackVector c) {e : Elem} {header : MsgHeader}
    {reserved' : Elem → Bool} {locks' : Elem → ℕ}
    (hres' : ∀ e', e' ≠ e → reserved' e' = c.reserved e')
    (hlocks' : ∀ e', e' ≠ e → locks' e' = c.locks e')
    (hcount : header.refCnt =
      locks' e + (if e ∈ c.state.held then 1 else 0) + (if reserved' e then 1 else 0))
    (hmagic : header.headerMagic = MsgPump.magic) (husable : header.flags ≠ .bufferNotUsable)
    (hreserved : reserved' e → e ∉ c.state.held ∧ header.flags = .inUse ∧
      ∃ d, t.messageBuffers e.id = some d ∧ e.index < d.msgAmount) :
    DeliveryInv t callbackVector
      { c.setPump (c.state.pump.setHeader e header) with reserved := reserved', locks := locks' } := by
  apply h.of_sameRing { c.setPump (c.state.pump.setHeader e header) with
    reserved := reserved', locks := locks' } rfl (sameRing_setHeader _ _) rfl (fun _ _ => rfl) rfl rfl
  -- each of the four conditions on the headers: at the element, and at the others as before
  · refine (Function.forall_update_iff c.state.pump.header fun e' header => header.refCnt =
      locks' e' + (if e' ∈ c.state.held then 1 else 0) + (if reserved' e' then 1 else 0)).mpr
      ⟨hcount, fun e' hne => ?_⟩
    rw [hlocks' e' hne, hres' e' hne]
    exact h.refCnt e'
  · exact h.magic_update e hmagic
  · exact h.usable_update e husable
  · refine (Function.forall_update_iff c.state.pump.header fun e' header => reserved' e' = true →
      e' ∉ c.state.held ∧ header.flags = .inUse ∧
        ∃ d, t.messageBuffers e'.id = some d ∧ e'.index < d.msgAmount).mpr
      ⟨hreserved, fun e' hne hr => ?_⟩
    rw [hres' e' hne] at hr
    exact h.reserved e' hr

/-! ## Posts -/

/-- A free element has no owner. -/
lemma DeliveryInv.no_owner_of_free (h : DeliveryInv t callbackVector c) {e : Elem}
    (he : c.state.pump.header e = .free) :
    c.locks e = 0 ∧ e ∉ c.state.held ∧ c.reserved e = false := by
  have hcount := h.refCnt e
  rw [he] at hcount
  simp only [MsgHeader.free] at hcount
  refine ⟨by omega, ?_, ?_⟩
  · intro hmem
    rw [if_pos hmem] at hcount
    omega
  · by_contra hres
    rw [Bool.not_eq_false] at hres
    simp [hres] at hcount

/-- A successful post: an element that is not held and that no client holds from now on is queued
with the content `p'` has for it. -/
lemma DeliveryInv.enqueue (h : DeliveryInv t callbackVector c) {p' : Pump} {e : Elem}
    {reserved' : Elem → Bool} (hring : SameRing c.state.pump p') (hroom : ¬ c.state.pump.Full)
    (hd : t.messageBuffers e.id = some d) (hi : e.index < d.msgAmount)
    (hcallbacks : p'.callbackVector = c.state.pump.callbackVector)
    (hnew : e ∉ c.state.held) (hlocks : c.locks e = 0)
    (hheader : p'.header = Function.update c.state.pump.header e .posted)
    (hdata : ∀ e' ∈ c.state.held, p'.data e' = c.state.pump.data e')
    (hres : reserved' e = false) (hres' : ∀ e', e' ≠ e → reserved' e' = c.reserved e') :
    DeliveryInv t callbackVector
      { state := { c.state with pump := p'.enqueue (entryOf d e) }
        reserved := reserved'
        locks := c.locks
        posted := c.posted ++ [p'.message e]
        calls := c.calls } := by
  have hheld : PumpState.held { c.state with pump := p'.enqueue (entryOf d e) } =
      c.state.held ++ [e] := held_enqueue h.wellFormed hring hroom
  have hroom' : ¬ p'.Full := by
    unfold Pump.Full at hroom ⊢
    rwa [hring.front, hring.tail, hring.size]
  refine ⟨?_, hcallbacks.trans h.callbacks, ?_, ?_, ?_, ?_, ?_, ?_, ?_⟩
  · exact h.wellFormed.enqueue hring hroom (entryOk_entryOf hd hi)
  · intro m hm
    change m ∈ (p'.enqueue (entryOf d e)).queue at hm
    rw [(hring.ringOk h.wellFormed.ring).queue_enqueue _ hroom', hring.queue, List.mem_append,
      List.mem_singleton] at hm
    rcases hm with hm | rfl
    · exact h.buffers m hm
    · simp
  · rw [hheld]
    -- the element is not queued a second time: it had no owner before
    apply List.Nodup.append h.nodup (List.nodup_singleton e)
    intro e' he' hmem
    rw [List.mem_singleton] at hmem
    exact hnew (hmem ▸ he')
  · -- the count of the element goes from no owner to the queue
    show ∀ e', ((p'.enqueue _).header e').refCnt = _
    rw [Pump.enqueue_header, hheader, hheld]
    refine (Function.forall_update_iff c.state.pump.header fun e' header => header.refCnt =
      c.locks e' + (if e' ∈ c.state.held ++ [e] then 1 else 0) +
        (if reserved' e' then 1 else 0)).mpr ⟨?_, fun e' hne => ?_⟩
    · simp [MsgHeader.posted, hlocks, hres]
    · rw [h.refCnt e', hres' e' hne]
      simp [hne]
  · show ∀ e', ((p'.enqueue _).header e').headerMagic = _
    rw [Pump.enqueue_header, hheader]
    exact h.magic_update e rfl
  · show ∀ e', ((p'.enqueue _).header e').flags ≠ _
    rw [Pump.enqueue_header, hheader]
    exact h.usable_update e (by simp [MsgHeader.posted])
  · intro e' he'
    have hne : e' ≠ e := by
      rintro rfl
      simp [hres] at he'
    change reserved' e' = true at he'
    rw [hres' e' hne] at he'
    rw [hheld]
    show _ ∧ ((p'.enqueue _).header e').flags = _ ∧ _
    rw [Pump.enqueue_header, hheader, Function.update_of_ne hne]
    refine ⟨?_, (h.reserved e' he').2⟩
    simp [hne, (h.reserved e' he').1]
  · obtain ⟨delivered, hp, hc⟩ := h.history
    refine ⟨delivered, ?_, ?_⟩
    · -- the post comes last, and the contents of what was queued are not touched
      rw [hheld, List.map_append, ← List.append_assoc]
      show c.posted ++ [p'.message e] = delivered ++ c.state.held.map p'.message ++ [p'.message e]
      rw [hp]
      congr 2
      apply List.map_congr_left
      intro e' he'
      simp [Pump.message, hdata e' he']
    · show c.calls = _
      rw [hc, callsOfFront_congr c.state { c.state with pump := p'.enqueue (entryOf d e) } rfl
        h.idle_of_held_nil ⟨[e], hheld.symm⟩ hdata]

/-- An element that is reserved and carries no lock passes the test of the post. -/
lemma DeliveryInv.header_of_reserved (h : DeliveryInv t callbackVector c) {e : Elem}
    (hres : c.reserved e) (hlocks : c.locks e = 0) :
    c.state.pump.header e = .reserved := by
  obtain ⟨hheld, hflags, -⟩ := h.reserved e hres
  have hcount := h.refCnt e
  have hmagic := h.magic e
  rw [hlocks, if_neg hheld, if_pos hres] at hcount
  cases hh : c.state.pump.header e
  rw [hh] at hcount hflags hmagic
  simp only at hcount hflags hmagic
  rw [MsgHeader.reserved, hcount, hflags, hmagic]

/-- Unlocking an element that is owned succeeds. -/
lemma DeliveryInv.unlockMessage_eq (h : DeliveryInv t callbackVector c) {e : Elem}
    (hpos : 0 < (c.state.pump.header e).refCnt) :
    unlockMessage c.state.pump (some e) = (true, c.state.pump.setHeader e
      { c.state.pump.header e with refCnt := (c.state.pump.header e).refCnt - 1 }) :=
  if_pos ⟨hpos, h.usable e, h.magic e⟩

lemma DeliveryInv.postOwn {r : Bool × Pump} (h : DeliveryInv t callbackVector c)
    (hd : t.messageBuffers id = some d) (hout : ¬ d.InPool ptr)
    (hr : PostOutcome d c.state.pump id ptr r) :
    DeliveryInv t callbackVector (c.post (id, copied d ptr) r) := by
  cases hr with
  | full => exact h
  | misaligned _ hin => exact absurd hin hout
  | noneFree => exact h
  | reserved _ _ hptr => exact absurd hptr.tests.1 hout
  | recovered _ _ hptr => exact absurd hptr.tests.1 hout
  | copied i hroom _ hi hheader =>
    obtain ⟨hlocks, hheld, hres⟩ := h.no_owner_of_free hheader
    have hring := (sameRing_setHeader (p := c.state.pump) ⟨id, i⟩ .posted).trans
      (sameRing_setData ⟨id, i⟩ (copied d ptr))
    have hpost := h.enqueue hring hroom hd hi rfl hheld hlocks rfl ?_ hres fun _ _ => rfl
    · have hmessage : ((c.state.pump.setHeader ⟨id, i⟩ .posted).setData ⟨id, i⟩
          (copied d ptr)).message ⟨id, i⟩ = (id, copied d ptr) := by
        simp [Pump.message]
      rw [hmessage] at hpost
      exact hpost
    · -- the data of what is held is not touched, since a free element is not held
      intro e' he'
      have hne : e' ≠ ⟨id, i⟩ := fun heq => hheld (heq ▸ he')
      simp [hne]

lemma DeliveryInv.postReserved {e : Elem} {r : Bool × Pump} (h : DeliveryInv t callbackVector c)
    (hd : t.messageBuffers e.id = some d) (hres : c.reserved e) (hlocks : c.locks e = 0)
    (hptr : d.PointsTo ptr e.index) (hr : PostOutcome d c.state.pump e.id ptr r) :
    DeliveryInv t callbackVector { c.post (e.id, c.state.pump.data e) r with
      reserved := if r.1 then Function.update c.reserved e false else c.reserved } := by
  obtain ⟨hheld, -, -⟩ := h.reserved e hres
  rcases hr.of_reserved hptr (h.header_of_reserved hres hlocks) with ⟨rfl, hroom⟩ | ⟨rfl, -⟩
  · exact h.enqueue (sameRing_setHeader _ _) hroom hd hptr.1 rfl hheld hlocks rfl
      (fun _ _ => rfl) (Function.update_self _ _ _) fun _ hne => Function.update_of_ne hne _ _
  · exact h

lemma DeliveryInv.getFreeBuffer {r : Option Elem × Pump} (h : DeliveryInv t callbackVector c)
    (hd : t.messageBuffers id = some d) (hr : GetFreeOutcome d c.state.pump id r) :
    DeliveryInv t callbackVector
      (match r with
      | (some e, p) => { c.setPump p with reserved := Function.update c.reserved e true }
      | (none, p) => c.setPump p) := by
  cases hr with
  | noneFree => exact h
  | reserved i hi hheader =>
    obtain ⟨hlocks, hheld, -⟩ := h.no_owner_of_free hheader
    refine h.setHeader (e := ⟨id, i⟩) (fun _ hne => Function.update_of_ne hne _ _) (fun _ _ => rfl)
      ?_ rfl (by decide) ?_
    · show 1 = c.locks ⟨id, i⟩ + _ + _
      rw [hlocks, if_neg hheld, Function.update_self]
      rfl
    · intro _
      exact ⟨hheld, rfl, d, hd, hi⟩

lemma DeliveryInv.lock (h : DeliveryInv t callbackVector c) (e : Elem) :
    DeliveryInv t callbackVector
      (match lockMessage c.state.pump (some e) with
      | (true, p) => { c.setPump p with locks := Function.update c.locks e (c.locks e + 1) }
      | (false, p) => c.setPump p) := by
  unfold lockMessage
  dsimp only
  split
  · rename_i heq
    -- the element is in use: its count and the locks of its client go up together
    split at heq
    · rw [Prod.mk.injEq] at heq
      rw [← heq.2]
      refine h.setHeader (e := e) (fun _ _ => rfl) (fun _ hne => Function.update_of_ne hne _ _)
        ?_ (h.magic e) (h.usable e) (h.reserved e)
      show (c.state.pump.header e).refCnt + 1 = Function.update c.locks e (c.locks e + 1) e +
        (if e ∈ c.state.held then 1 else 0) + (if c.reserved e then 1 else 0)
      rw [Function.update_self, h.refCnt e]
      omega
    · simp at heq
  · rename_i heq
    split at heq
    · simp at heq
    · rw [Prod.mk.injEq] at heq
      rw [← heq.2]
      exact h

lemma DeliveryInv.unlock (h : DeliveryInv t callbackVector c) {e : Elem} (hpos : 0 < c.locks e) :
    DeliveryInv t callbackVector { c.setPump (unlockMessage c.state.pump (some e)).2 with
      locks := Function.update c.locks e (c.locks e - 1) } := by
  have hcount := h.refCnt e
  -- a lock of the client keeps the count above zero
  rw [h.unlockMessage_eq (by omega)]
  refine h.setHeader (e := e) (fun _ _ => rfl) (fun _ hne => Function.update_of_ne hne _ _)
    ?_ (h.magic e) (h.usable e) (h.reserved e)
  show (c.state.pump.header e).refCnt - 1 = Function.update c.locks e (c.locks e - 1) e +
    (if e ∈ c.state.held then 1 else 0) + (if c.reserved e then 1 else 0)
  rw [Function.update_self]
  omega

lemma DeliveryInv.release (h : DeliveryInv t callbackVector c) {e : Elem} (hres : c.reserved e) :
    DeliveryInv t callbackVector { c.setPump (unlockMessage c.state.pump (some e)).2 with
      reserved := Function.update c.reserved e false } := by
  have hcount := h.refCnt e
  rw [if_pos hres] at hcount
  rw [h.unlockMessage_eq (by omega)]
  refine h.setHeader (e := e) (fun _ hne => Function.update_of_ne hne _ _) (fun _ _ => rfl)
    ?_ (h.magic e) (h.usable e) ?_
  · show (c.state.pump.header e).refCnt - 1 = c.locks e + (if e ∈ c.state.held then 1 else 0) +
      (if Function.update c.reserved e false e then 1 else 0)
    rw [Function.update_self, if_neg (by decide : ¬ false = true)]
    omega
  · simp

lemma DeliveryInv.write (h : DeliveryInv t callbackVector c) {e : Elem} (hres : c.reserved e)
    (content : List UInt8) :
    DeliveryInv t callbackVector (c.setPump (c.state.pump.setData e content)) := by
  refine h.of_sameRing _ rfl (sameRing_setData _ _) rfl ?_ rfl rfl h.refCnt h.magic h.usable h.reserved
  intro e' he'
  have hne : e' ≠ e := fun heq => (h.reserved e hres).1 (heq ▸ he')
  exact Function.update_of_ne hne _ _

/-! ## Steps of the loop -/

/-- The loop goes on without touching the pump. -/
lemma DeliveryInv.setPc (h : DeliveryInv t callbackVector c) {pc : DispatchPc} {calls' : List Call}
    (hwf : WellFormed t { c.state with pc := pc })
    (hheld : PumpState.held { c.state with pc := pc } = c.state.held)
    (hcalls : ∀ before, c.calls = before ++ c.state.callsOfFront callbackVector →
      calls' = before ++ PumpState.callsOfFront callbackVector { c.state with pc := pc }) :
    DeliveryInv t callbackVector { c with state := { c.state with pc := pc }, calls := calls' } := by
  obtain ⟨delivered, hp, hc⟩ := h.history
  exact ⟨hwf, h.callbacks, h.buffers, by rw [hheld]; exact h.nodup, by rw [hheld]; exact h.refCnt,
    h.magic, h.usable, by rw [hheld]; exact h.reserved,
    delivered, by rw [hheld]; exact hp, hcalls _ hc⟩

/-- The message at the front is in an element, and that element is held first. -/
lemma DeliveryInv.front (h : DeliveryInv t callbackVector c) {m : QueueEntry}
    {rest : List QueueEntry} (hqueue : c.state.pump.queue = m :: rest)
    (hpc : c.state.pc ≠ .unlocked) :
    ∃ e, m.buffer = some e ∧ m.id = e.id ∧
      c.state.held = e :: rest.filterMap (·.buffer) := by
  have hmem : m ∈ c.state.pump.queue := hqueue ▸ List.mem_cons_self
  obtain ⟨e, he⟩ := Option.ne_none_iff_exists'.mp (h.buffers m hmem)
  obtain ⟨d, -, -, hid⟩ := h.wellFormed.entries m hmem
  refine ⟨e, he, (hid e he).1.symm, ?_⟩
  rw [held_of_queue hqueue hpc, he]
  rfl

/-- Setting the flag of a held element changes nothing in the books. -/
lemma DeliveryInv.setBufferFlag (h : DeliveryInv t callbackVector c) {e : Elem}
    (he : e ∈ c.state.held) (flag : Flag) (hflag : flag ≠ .bufferNotUsable) :
    DeliveryInv t callbackVector (c.setPump (setBufferFlag c.state.pump (some e) flag)) := by
  refine h.setHeader (e := e) (fun _ _ => rfl) (fun _ _ => rfl) (h.refCnt e) (h.magic e) hflag ?_
  intro hres
  exact absurd he (h.reserved e hres).1

/-- The unlocking of the message at the front: it is delivered, and its reference goes. -/
lemma DeliveryInv.unlockFront (h : DeliveryInv t callbackVector c) {e : Elem} {rest : List Elem}
    (hpc : c.state.pc = .cleared) (hheld : c.state.held = e :: rest)
    (hwf : WellFormed t { pump := (unlockMessage c.state.pump (some e)).2, pc := .unlocked })
    (hheld' : PumpState.held { pump := (unlockMessage c.state.pump (some e)).2, pc := .unlocked } =
      rest) :
    DeliveryInv t callbackVector { c with
      state := { pump := (unlockMessage c.state.pump (some e)).2, pc := .unlocked } } := by
  have hmem : e ∈ c.state.held := hheld ▸ List.mem_cons_self
  have hnodup := h.nodup
  rw [hheld, List.nodup_cons] at hnodup
  have hcount := h.refCnt e
  rw [if_pos hmem] at hcount
  -- the only owners left are the locks of clients
  have hnotres : c.reserved e = false := by
    by_contra hres
    rw [Bool.not_eq_false] at hres
    exact (h.reserved e hres).1 hmem
  have hunlock := h.unlockMessage_eq (e := e) (by omega)
  -- only the reference count changes, and only that of the element
  have hheader : (unlockMessage c.state.pump (some e)).2.header = Function.update
      c.state.pump.header e
      { c.state.pump.header e with refCnt := (c.state.pump.header e).refCnt - 1 } := by
    rw [hunlock]
    rfl
  have hcallbacks : (unlockMessage c.state.pump (some e)).2.callbackVector = callbackVector := by
    rw [unlockMessage_callbackVector]
    exact h.callbacks
  refine ⟨hwf, hcallbacks, ?_, ?_, ?_, ?_, ?_, ?_, ?_⟩
  · show ∀ m ∈ (unlockMessage c.state.pump (some e)).2.queue, _
    rw [(sameRing_unlockMessage (some e)).queue]
    exact h.buffers
  · rw [hheld']
    exact hnodup.2
  · show ∀ e', ((unlockMessage c.state.pump (some e)).2.header e').refCnt = _
    rw [hheader, hheld']
    refine (Function.forall_update_iff c.state.pump.header fun e' header => header.refCnt =
      c.locks e' + (if e' ∈ rest then 1 else 0) + (if c.reserved e' then 1 else 0)).mpr
      ⟨?_, fun e' hne => ?_⟩
    · rw [if_neg hnodup.1]
      show (c.state.pump.header e).refCnt - 1 = _
      omega
    · rw [h.refCnt e', hheld]
      simp [hne]
  · show ∀ e', ((unlockMessage c.state.pump (some e)).2.header e').headerMagic = _
    rw [hheader]
    exact h.magic_update e (h.magic e)
  · show ∀ e', ((unlockMessage c.state.pump (some e)).2.header e').flags ≠ _
    rw [hheader]
    exact h.usable_update e (h.usable e)
  · intro e' hres
    have hold := h.reserved e' hres
    rw [hheld] at hold
    have hne : e' ≠ e := fun heq => hold.1 (heq ▸ List.mem_cons_self)
    rw [hheld']
    show _ ∧ ((unlockMessage c.state.pump (some e)).2.header e').flags = _ ∧ _
    rw [hheader, Function.update_of_ne hne]
    exact ⟨fun hin => hold.1 (List.mem_cons_of_mem e hin), hold.2⟩
  · -- the front goes from what is held to what is delivered
    obtain ⟨delivered, hp, hc⟩ := h.history
    refine ⟨delivered ++ [c.state.pump.message e], ?_, ?_⟩
    · have hmessage : (unlockMessage c.state.pump (some e)).2.message = c.state.pump.message := by
        funext e'
        simp [Pump.message]
      rw [hheld']
      show c.posted = _ ++ rest.map (unlockMessage c.state.pump (some e)).2.message
      rw [hmessage, hp, hheld]
      simp
    · rw [List.flatMap_append, List.flatMap_singleton]
      show c.calls = _ ++ []
      rw [hc, List.append_nil]
      rw [callsOfFront_cleared hpc hheld]

/-- The dispatch of the front begins. -/
lemma DeliveryInv.start (h : DeliveryInv t callbackVector c) {e : Elem} {rest : List Elem}
    (hpc : c.state.pc = .waiting) (hheld : c.state.held = e :: rest)
    (hwf : WellFormed t ⟨MsgPump.setBufferFlag c.state.pump (some e) .inUse, .calling 0⟩) :
    DeliveryInv t callbackVector { c with
      state := ⟨MsgPump.setBufferFlag c.state.pump (some e) .inUse, .calling 0⟩ } := by
  have hflag := h.setBufferFlag (e := e) (hheld ▸ List.mem_cons_self) .inUse (by decide)
  have hheld' : PumpState.held
      ⟨MsgPump.setBufferFlag c.state.pump (some e) .inUse, .calling 0⟩ = c.state.held :=
    held_of_queue_eq (sameRing_setBufferFlag _ _).queue (by simp [hpc]) (by simp)
  apply hflag.setPc hwf
  · exact hheld'.trans (held_of_sameRing (sameRing_setBufferFlag _ _)).symm
  · intro before hbefore
    have hpcFlag : (c.setPump (MsgPump.setBufferFlag c.state.pump (some e) .inUse)).state.pc =
        .waiting := hpc
    rw [callsOfFront_idle (Or.inl hpcFlag), List.append_nil] at hbefore
    show c.calls = before ++ PumpState.callsOfFront callbackVector
      ⟨MsgPump.setBufferFlag c.state.pump (some e) .inUse, .calling 0⟩
    rw [callsOfFront_calling rfl (hheld'.trans hheld), ← hbefore]
    exact (List.append_nil _).symm

/-- The loop comes to the next receiver of the front. -/
lemma DeliveryInv.call (h : DeliveryInv t callbackVector c) {e : Elem} {rest : List Elem} {i : ℕ}
    (hpc : c.state.pc = .calling i) (hheld : c.state.held = e :: rest)
    (hwf : WellFormed t { c.state with pc := .calling (i + 1) }) :
    DeliveryInv t callbackVector { c with
      state := { c.state with pc := .calling (i + 1) }
      calls := c.calls ++ ((c.state.pump.callbackVector e.id i).map fun callback =>
        { callback := callback, id := e.id, content := some (c.state.pump.data e) }).toList } := by
  have hheld' : PumpState.held { c.state with pc := .calling (i + 1) } = c.state.held := by
    apply held_of_queue_eq rfl _ (by simp)
    rw [hpc]
    simp
  apply h.setPc hwf hheld'
  intro before hbefore
  rw [callsOfFront_calling hpc hheld] at hbefore
  -- the calls up to receiver `i + 1` are those up to receiver `i` and this one
  rw [callsOfFront_calling rfl (hheld'.trans hheld), callsFor_succ, hbefore, List.append_assoc,
    h.callbacks]
  rfl

/-- All receivers have been called, and the flag is cleared. -/
lemma DeliveryInv.returned (h : DeliveryInv t callbackVector c) {e : Elem} {rest : List Elem}
    (hpc : c.state.pc = .calling maxReceivers) (hheld : c.state.held = e :: rest)
    (hwf : WellFormed t ⟨MsgPump.setBufferFlag c.state.pump (some e) .nothing, .cleared⟩) :
    DeliveryInv t callbackVector { c with
      state := ⟨MsgPump.setBufferFlag c.state.pump (some e) .nothing, .cleared⟩ } := by
  have hflag := h.setBufferFlag (e := e) (hheld ▸ List.mem_cons_self) .nothing (by decide)
  have hheld' : PumpState.held
      ⟨MsgPump.setBufferFlag c.state.pump (some e) .nothing, .cleared⟩ = c.state.held :=
    held_of_queue_eq (sameRing_setBufferFlag _ _).queue (by simp [hpc]) (by simp)
  have hheldFlag : (c.setPump (MsgPump.setBufferFlag c.state.pump (some e) .nothing)).state.held =
      c.state.held := held_of_sameRing (sameRing_setBufferFlag _ _)
  apply hflag.setPc hwf (hheld'.trans hheldFlag.symm)
  intro before hbefore
  have hpcFlag : (c.setPump (MsgPump.setBufferFlag c.state.pump (some e) .nothing)).state.pc =
      .calling maxReceivers := hpc
  rw [callsOfFront_calling hpcFlag (hheldFlag.trans hheld)] at hbefore
  show c.calls = before ++ PumpState.callsOfFront callbackVector
    ⟨MsgPump.setBufferFlag c.state.pump (some e) .nothing, .cleared⟩
  rw [callsOfFront_cleared rfl (hheld'.trans hheld)]
  exact hbefore

/-- The front index moves on. -/
lemma DeliveryInv.finish (h : DeliveryInv t callbackVector c) (hpc : c.state.pc = .unlocked)
    (hwf : WellFormed t { pump := c.state.pump.advance, pc := .waiting }) :
    DeliveryInv t callbackVector { c with
      state := { pump := c.state.pump.advance, pc := .waiting } } := by
  have hsize := h.wellFormed.busy (by rw [hpc]; simp)
  have hheld' : PumpState.held { pump := c.state.pump.advance, pc := .waiting } =
      c.state.held := held_advance hpc hsize
  obtain ⟨delivered, hp, hc⟩ := h.history
  refine ⟨hwf, h.callbacks, ?_, ?_, ?_, h.magic, h.usable, ?_, delivered, ?_, ?_⟩
  · intro m' hm'
    change m' ∈ c.state.pump.advance.queue at hm'
    rw [Pump.queue_advance hsize] at hm'
    exact h.buffers m' (List.mem_of_mem_tail hm')
  · rw [hheld']
    exact h.nodup
  · rw [hheld']
    exact h.refCnt
  · rw [hheld']
    exact h.reserved
  · rw [hheld']
    exact hp
  · rw [callsOfFront_idle (Or.inr hpc)] at hc
    rw [callsOfFront_idle (Or.inl rfl)]
    exact hc

lemma DeliveryInv.dispatch {r : PumpState × Option Call} (h : DeliveryInv t callbackVector c)
    (hr : DispatchOutcome t c.state r) :
    DeliveryInv t callbackVector { c with state := r.1, calls := c.calls ++ r.2.toList } := by
  have hwf := h.wellFormed.dispatch hr
  cases hr with
  | idle => simpa using h
  | start m rest hpc hqueue =>
    obtain ⟨e, hm, -, hheld⟩ := h.front hqueue (by rw [hpc]; simp)
    rw [hm] at hwf ⊢
    simpa using h.start hpc hheld hwf
  | call m rest i hpc hi hqueue =>
    obtain ⟨e, hm, hid, hheld⟩ := h.front hqueue (by rw [hpc]; simp)
    rw [hm, hid]
    exact h.call hpc hheld hwf
  | returned m rest hpc hqueue =>
    obtain ⟨e, hm, -, hheld⟩ := h.front hqueue (by rw [hpc]; simp)
    rw [hm] at hwf ⊢
    simpa using h.returned hpc hheld hwf
  | unlock m rest hpc hqueue =>
    obtain ⟨e, hm, -, hheld⟩ := h.front hqueue (by rw [hpc]; simp)
    rw [hm] at hwf ⊢
    have hheld' := held_unlock (s := c.state) hqueue
    rw [hm] at hheld'
    simpa using h.unlockFront hpc hheld hwf hheld'
  | finish m rest hpc hqueue => simpa using h.finish hpc hwf

/-! ## Every run -/

lemma deliveryInv_initial (t : BufTable) (callbackVector : MsgId → ℕ → Option Callback)
    (data : Elem → List UInt8) :
    DeliveryInv t callbackVector (Clients.initial callbackVector data) := by
  have hqueue : (Clients.initial callbackVector data).state.pump.queue = [] := rfl
  have hheld : (Clients.initial callbackVector data).state.held = [] := rfl
  refine ⟨wellFormed_initial _ _, rfl, ?_, ?_, ?_, fun _ => rfl, fun _ => by simp [Clients.initial,
    initial], ?_, [], ?_, ?_⟩
  · simp [hqueue]
  · simp [hheld]
  · intro e
    rw [hheld]
    rfl
  · intro e he
    simp [Clients.initial] at he
  · rw [hheld]
    rfl
  · rfl

/-- Everything that an action can do, with the rules it keeps. -/
inductive ClientMoves (t : BufTable) (c : Clients) : ClientAction → Clients → Prop
  | postOwn (id : MsgId) (ptr : Pointer) (d : BufDescription) (r : Bool × Pump)
      (hd : t.messageBuffers id = some d) (hout : ¬ d.InPool ptr)
      (hr : PostOutcome d c.state.pump id ptr r) :
      ClientMoves t c (.postOwn id ptr) (c.post (id, copied d ptr) r)
  | postReserved (e : Elem) (d : BufDescription) (r : Bool × Pump)
      (hd : t.messageBuffers e.id = some d) (hres : c.reserved e) (hlocks : c.locks e = 0)
      (hr : PostOutcome d c.state.pump e.id
        (d.pointerTo e.index fun k => (c.state.pump.data e).getD k 0) r) :
      ClientMoves t c (.postReserved e) { c.post (e.id, c.state.pump.data e) r with
        reserved := if r.1 then Function.update c.reserved e false else c.reserved }
  | reserves (id : MsgId) (d : BufDescription) (i : ℕ) (p : Pump)
      (hd : t.messageBuffers id = some d)
      (hr : GetFreeOutcome d c.state.pump id (some ⟨id, i⟩, p)) :
      ClientMoves t c (.getFreeBuffer id)
        { c.setPump p with reserved := Function.update c.reserved ⟨id, i⟩ true }
  | noneFree (id : MsgId) : ClientMoves t c (.getFreeBuffer id) c
  | write (e : Elem) (content : List UInt8) (hres : c.reserved e) :
      ClientMoves t c (.write e content) (c.setPump (c.state.pump.setData e content))
  | release (e : Elem) (hres : c.reserved e) :
      ClientMoves t c (.release e) { c.setPump (unlockMessage c.state.pump (some e)).2 with
        reserved := Function.update c.reserved e false }
  | locks (e : Elem) (p : Pump) (hlock : lockMessage c.state.pump (some e) = (true, p)) :
      ClientMoves t c (.lock e)
        { c.setPump p with locks := Function.update c.locks e (c.locks e + 1) }
  | notLocked (e : Elem) (p : Pump) (hlock : lockMessage c.state.pump (some e) = (false, p)) :
      ClientMoves t c (.lock e) (c.setPump p)
  | unlock (e : Elem) (hpos : 0 < c.locks e) :
      ClientMoves t c (.unlock e) { c.setPump (unlockMessage c.state.pump (some e)).2 with
        locks := Function.update c.locks e (c.locks e - 1) }
  | dispatch (r : PumpState × Option Call) (hdispatch : MsgPump.dispatch c.state = .ok r) :
      ClientMoves t c .dispatch { c with state := r.1, calls := c.calls ++ r.2.toList }

lemma clientMoves_of_step {a : ClientAction} (hstep : clientStep t c a = some c') :
    ClientMoves t c a c' := by
  cases a with
  | postOwn id ptr =>
    simp only [clientStep] at hstep
    cases hd : t.messageBuffers id with
    | none => simp [hd] at hstep
    | some d =>
      simp only [hd] at hstep
      split at hstep
      · cases hstep
      · rename_i hout
        obtain ⟨r, hpost, hr⟩ := postMessage_outcome c.state.pump ptr hd
        rw [hpost] at hstep
        exact Option.some.inj hstep ▸ .postOwn id ptr d r hd hout hr
  | postReserved e =>
    simp only [clientStep] at hstep
    cases hd : t.messageBuffers e.id with
    | none => simp [hd] at hstep
    | some d =>
      simp only [hd] at hstep
      split at hstep
      · rename_i hrules
        obtain ⟨r, hpost, hr⟩ := postMessage_outcome c.state.pump
          (d.pointerTo e.index fun k => (c.state.pump.data e).getD k 0) hd
        rw [hpost] at hstep
        exact Option.some.inj hstep ▸ .postReserved e d r hd hrules.1 hrules.2 hr
      · cases hstep
  | getFreeBuffer id =>
    simp only [clientStep] at hstep
    cases hget : MsgPump.getFreeBuffer t c.state.pump id with
    | error fault => simp [hget] at hstep
    | ok r =>
      rw [hget] at hstep
      rcases getFreeBuffer_cases hget with ⟨d, hd, hr⟩ | rfl
      · cases hr with
        | reserved i hi hheader =>
          exact Option.some.inj hstep ▸ .reserves id d i _ hd (.reserved i hi hheader)
        | noneFree => exact Option.some.inj hstep ▸ .noneFree id
      · exact Option.some.inj hstep ▸ .noneFree id
  | write e content =>
    simp only [clientStep] at hstep
    split_ifs at hstep with hres
    exact Option.some.inj hstep ▸ .write e content hres
  | release e =>
    simp only [clientStep] at hstep
    split_ifs at hstep with hres
    exact Option.some.inj hstep ▸ .release e hres
  | lock e =>
    simp only [clientStep] at hstep
    rcases hlock : lockMessage c.state.pump (some e) with ⟨_ | _, p⟩
    · rw [hlock] at hstep
      exact Option.some.inj hstep ▸ .notLocked e p hlock
    · rw [hlock] at hstep
      exact Option.some.inj hstep ▸ .locks e p hlock
  | unlock e =>
    simp only [clientStep] at hstep
    split_ifs at hstep with hpos
    exact Option.some.inj hstep ▸ .unlock e hpos
  | dispatch =>
    simp only [clientStep] at hstep
    cases hdispatch : MsgPump.dispatch c.state with
    | error fault => simp [hdispatch] at hstep
    | ok r =>
      rw [hdispatch] at hstep
      exact Option.some.inj hstep ▸ .dispatch r hdispatch

/-- Every action that keeps the rules keeps the invariant. -/
lemma DeliveryInv.step {a : ClientAction} (h : DeliveryInv t callbackVector c)
    (hstep : clientStep t c a = some c') : DeliveryInv t callbackVector c' := by
  cases clientMoves_of_step hstep with
  | postOwn id ptr d r hd hout hr => exact h.postOwn hd hout hr
  | postReserved e d r hd hres hlocks hr =>
    obtain ⟨d', hd', hi⟩ := (h.reserved e hres).2.2
    rw [hd, Option.some.injEq] at hd'
    subst hd'
    exact h.postReserved hd hres hlocks (d.pointsTo_pointerTo hi _) hr
  | reserves id d i p hd hr => exact h.getFreeBuffer hd hr
  | noneFree => exact h
  | write e content hres => exact h.write hres content
  | release e hres => exact h.release hres
  | locks e p hlock | notLocked e p hlock =>
    have hresult := h.lock e
    rw [hlock] at hresult
    exact hresult
  | unlock e hpos => exact h.unlock hpos
  | dispatch r hdispatch =>
    obtain ⟨r', hdispatch', hr⟩ := dispatch_outcome h.wellFormed
    rw [hdispatch, Except.ok.injEq] at hdispatch'
    subst hdispatch'
    exact h.dispatch hr

lemma deliveryInv_of_run {actions : List ClientAction} {data : Elem → List UInt8}
    (hrun : exec (clientStep t) (Clients.initial callbackVector data) actions = some c) :
    DeliveryInv t callbackVector c :=
  exec_induction (clientStep t) (fun _ _ _ h hstep => h.step hstep)
    (deliveryInv_initial t callbackVector data) hrun

lemma callsFor_prefix_of_le {i n : ℕ} (hle : i ≤ n) (message : MsgId × List UInt8) :
    callsFor callbackVector i message <+: callsFor callbackVector n message := by
  induction n, hle using Nat.le_induction with
  | base => exact List.prefix_refl _
  | succ n _ ih =>
    rw [callsFor_succ]
    exact ih.trans (List.prefix_append _ _)

/-- The calls for the front are the first ones of those for what is held. -/
lemma DeliveryInv.callsOfFront_prefix (h : DeliveryInv t callbackVector c) :
    c.state.callsOfFront callbackVector <+:
      (c.state.held.map c.state.pump.message).flatMap (callsFor callbackVector maxReceivers) := by
  cases hheld : c.state.held with
  | nil =>
    rw [callsOfFront_idle (h.idle_of_held_nil hheld)]
    exact List.nil_prefix
  | cons e rest =>
    rw [List.map_cons, List.flatMap_cons]
    cases hpc : c.state.pc with
    | waiting =>
      rw [callsOfFront_idle (Or.inl hpc)]
      exact List.nil_prefix
    | unlocked =>
      rw [callsOfFront_idle (Or.inr hpc)]
      exact List.nil_prefix
    | calling i =>
      rw [callsOfFront_calling hpc hheld]
      exact (callsFor_prefix_of_le (h.wellFormed.calling i hpc) _).trans (List.prefix_append _ _)
    | cleared =>
      rw [callsOfFront_cleared hpc hheld]
      exact List.prefix_append _ _

/-- All but the last messages posted, as many as are queued, have been given to every callback; and
what was given to callbacks is what was posted, from the start. -/
lemma DeliveryInv.calls_between (h : DeliveryInv t callbackVector c) :
    (c.posted.take (c.posted.length - c.state.pump.msgQueueSize)).flatMap
        (callsFor callbackVector maxReceivers) <+: c.calls ∧
      c.calls <+: c.posted.flatMap (callsFor callbackVector maxReceivers) := by
  obtain ⟨delivered, hp, hc⟩ := h.history
  constructor
  · have hlen : c.posted.length - c.state.pump.msgQueueSize ≤ delivered.length := by
      have hle := length_held_le c.state
      rw [hp, List.length_append, List.length_map]
      omega
    rw [hp] at hlen ⊢
    rw [List.take_append_of_le_length hlen, hc]
    refine List.IsPrefix.trans ?_ (List.prefix_append _ _)
    exact (List.take_prefix _ _).flatMap _
  · rw [hp, hc, List.flatMap_append]
    exact List.prefix_append_right_inj _ |>.mpr h.callsOfFront_prefix

/-- A post of an own object fails only for want of room or of a free element. -/
lemma DeliveryInv.postOwn_fails (h : DeliveryInv t callbackVector c) {p' : Pump}
    (hd : t.messageBuffers id = some d) (hout : ¬ d.InPool ptr)
    (hfail : postMessage t c.state.pump id (some ptr) = .ok (false, p')) :
    c.state.pump.msgQueueSize = msgQueueMaxSize ∨
      ∀ i < d.msgAmount, ¬ (c.state.pump.header ⟨id, i⟩).IsFree := by
  obtain ⟨r, hpost, hr⟩ := postMessage_outcome c.state.pump ptr hd
  rw [hfail, Except.ok.injEq] at hpost
  subst hpost
  -- an own object is outside of the pool, so the header of no element is tested
  cases hr with
  | full hfull => exact Or.inl (h.wellFormed.ring.full_iff.mp hfull)
  | misaligned _ hin => exact absurd hin hout
  | recovered _ _ hptr => exact absurd hptr.tests.1 hout
  | noneFree _ _ hnone =>
    right
    intro i hi hfree
    exact hnone i hi (MsgHeader.isFree_iff.mp hfree)

/-- A post of a reserved element fails only for want of room. -/
lemma DeliveryInv.postReserved_fails (h : DeliveryInv t callbackVector c) {e : Elem} {p' : Pump}
    (hd : t.messageBuffers e.id = some d) (hres : c.reserved e) (hlocks : c.locks e = 0)
    {bytes : ℕ → UInt8}
    (hfail : postMessage t c.state.pump e.id (some (d.pointerTo e.index bytes)) = .ok (false, p')) :
    c.state.pump.msgQueueSize = msgQueueMaxSize := by
  obtain ⟨d', hd', hi⟩ := (h.reserved e hres).2.2
  rw [hd, Option.some.injEq] at hd'
  subst hd'
  have hptr := d.pointsTo_pointerTo hi bytes
  obtain ⟨r, hpost, hr⟩ := postMessage_outcome c.state.pump (d.pointerTo e.index bytes) hd
  rw [hfail, Except.ok.injEq] at hpost
  subst hpost
  rcases hr.of_reserved hptr (h.header_of_reserved hres hlocks) with ⟨heq, -⟩ | ⟨-, hfull⟩
  · cases congrArg Prod.fst heq
  · exact h.wellFormed.ring.full_iff.mp hfull

/-- The message pump delivers exactly once, in order and unchanged. For every interleaving of the
steps of the loop with clients that keep the rules: the callbacks of a message are called with its
id and with its content at the time of the post, once each, message after message in the order of
the posts, up to the messages still queued; the indices of the ring fit together; and a post fails
only when the queue is full or no element of the pool is free. -/
theorem delivered_once_in_order (t : BufTable) (callbackVector : MsgId → ℕ → Option Callback)
    (data : Elem → List UInt8) (actions : List ClientAction) (c : Clients)
    (hrun : exec (clientStep t) (Clients.initial callbackVector data) actions = some c) :
    (c.posted.take (c.posted.length - c.state.pump.msgQueueSize)).flatMap
        (callsFor callbackVector maxReceivers) <+: c.calls ∧
    c.calls <+: c.posted.flatMap (callsFor callbackVector maxReceivers) ∧
    (c.state.pump.msgQueueSize = 0 →
      c.calls = c.posted.flatMap (callsFor callbackVector maxReceivers)) ∧
    c.state.pump.msgQueueTail =
      (c.state.pump.msgQueueFront + c.state.pump.msgQueueSize) % msgQueueMaxSize ∧
    c.state.pump.msgQueueSize ≤ msgQueueMaxSize ∧
    (∀ id d ptr p', t.messageBuffers id = some d → ¬ d.InPool ptr →
      postMessage t c.state.pump id (some ptr) = .ok (false, p') →
      c.state.pump.msgQueueSize = msgQueueMaxSize ∨
        ∀ i < d.msgAmount, ¬ (c.state.pump.header ⟨id, i⟩).IsFree) ∧
    (∀ e d bytes p', t.messageBuffers e.id = some d → c.reserved e → c.locks e = 0 →
      postMessage t c.state.pump e.id (some (d.pointerTo e.index bytes)) = .ok (false, p') →
      c.state.pump.msgQueueSize = msgQueueMaxSize) := by
  have h := deliveryInv_of_run hrun
  obtain ⟨hlower, hupper⟩ := h.calls_between
  refine ⟨hlower, hupper, ?_, h.wellFormed.ring.tail_eq, h.wellFormed.ring.size_le, ?_, ?_⟩
  · intro hsize
    rw [hsize, Nat.sub_zero, List.take_length] at hlower
    exact hupper.eq_of_length_le hlower.length_le
  · intro id d ptr p' hd hout hfail
    exact h.postOwn_fails hd hout hfail
  · intro e d bytes p' hd hres hlocks hfail
    exact h.postReserved_fails hd hres hlocks hfail

/-- One power state is reserved, filled, posted and dispatched, and a second one is posted by value
while the first is being dispatched. -/
def postAndDispatch : List ClientAction :=
  let e : Elem := ⟨msgIdSystemPowerState, 0⟩
  [.getFreeBuffer msgIdSystemPowerState, .write e [1, 2, 3], .postReserved e, .dispatch, .dispatch,
    .postOwn msgIdRelativeBatteryVoltage { ptrOffset := -100, bytes := fun _ => 5 }] ++
    List.replicate 14 .dispatch

/-- One callback for power states and one for battery levels. -/
def twoCallbacks (id : MsgId) (i : ℕ) : Option Callback :=
  if i = 0 ∧ id = msgIdSystemPowerState then some 10
  else if i = 2 ∧ id = msgIdRelativeBatteryVoltage then some 20 else none

theorem delivered_once_in_order_powerState :
    ∃ c, exec (clientStep firmware) (Clients.initial twoCallbacks fun _ => []) postAndDispatch =
        some c ∧
      c.calls = [⟨10, msgIdSystemPowerState, some [1, 2, 3]⟩,
        ⟨20, msgIdRelativeBatteryVoltage, some [5, 5, 5, 5]⟩] ∧
      c.calls = c.posted.flatMap (callsFor twoCallbacks maxReceivers) :=
  ⟨_, rfl, by decide +kernel,
    (delivered_once_in_order firmware twoCallbacks (fun _ => []) postAndDispatch _ rfl).2.2.1
      (by decide +kernel)⟩

/-! ## Progress -/

/-- The steps that the loop has made for the message at the front. -/
def DispatchPc.stepsMade : DispatchPc → ℕ
  | .waiting => 0
  | .calling i => i + 1
  | .cleared => maxReceivers + 2
  | .unlocked => maxReceivers + 3

/-- The steps that the loop needs for what is queued. -/
def PumpState.stepsLeft (s : PumpState) : ℕ :=
  s.pump.msgQueueSize * (maxReceivers + 4) - s.pc.stepsMade

/-- Every step of the loop is one of those it needs, as long as a message is queued. -/
lemma DispatchOutcome.stepsLeft {s : PumpState} {r : PumpState × Option Call}
    (h : DispatchOutcome t s r) (hsize : s.pump.msgQueueSize ≠ 0) :
    r.1.stepsLeft + 1 = s.stepsLeft := by
  have hpos : maxReceivers + 4 ≤ s.pump.msgQueueSize * (maxReceivers + 4) :=
    Nat.le_mul_of_pos_left _ (Nat.pos_of_ne_zero hsize)
  unfold PumpState.stepsLeft
  cases h with
  | idle _ hempty => exact absurd hempty hsize
  | start m rest hpc =>
    simp only [hpc, (sameRing_setBufferFlag (p := s.pump) m.buffer .inUse).size,
      DispatchPc.stepsMade]
    omega
  | call m rest i hpc hi =>
    simp only [hpc, DispatchPc.stepsMade]
    omega
  | returned m rest hpc =>
    simp only [hpc, (sameRing_setBufferFlag (p := s.pump) m.buffer .nothing).size,
      DispatchPc.stepsMade]
    omega
  | unlock m rest hpc =>
    simp only [hpc, (sameRing_unlockMessage (p := s.pump) m.buffer).size, DispatchPc.stepsMade]
    omega
  | finish m rest hpc =>
    obtain ⟨n, hn⟩ := Nat.exists_eq_succ_of_ne_zero hsize
    simp only [hpc, Pump.advance, hn, DispatchPc.stepsMade, Nat.succ_sub_one, Nat.succ_mul]
    omega

/-- The loop on its own empties the queue. -/
lemma DeliveryInv.drains (h : DeliveryInv t callbackVector c) :
    ∃ c', exec (clientStep t) c (List.replicate c.state.stepsLeft .dispatch) = some c' ∧
      c'.state.pump.msgQueueSize = 0 ∧ c'.posted = c.posted := by
  generalize hn : c.state.stepsLeft = n
  induction n generalizing c with
  | zero =>
    refine ⟨c, rfl, ?_, rfl⟩
    by_contra hsize
    obtain ⟨r, -, hr⟩ := dispatch_outcome h.wellFormed
    have hstep := hr.stepsLeft hsize
    omega
  | succ n ih =>
    have hsize : c.state.pump.msgQueueSize ≠ 0 := by
      intro hzero
      rw [PumpState.stepsLeft, hzero, Nat.zero_mul, Nat.zero_sub] at hn
      cases hn
    obtain ⟨r, hdispatch, hr⟩ := dispatch_outcome h.wellFormed
    have hstep := hr.stepsLeft hsize
    obtain ⟨c', hc', hempty, hposted⟩ := ih (h.dispatch hr) (by dsimp only; omega)
    refine ⟨c', ?_, hempty, hposted⟩
    rw [List.replicate_succ, exec_cons_eq_some]
    exact ⟨_, by simp only [clientStep, hdispatch], hc'⟩

/-- Nothing that was posted stays behind: from whatever the clients have done, the loop on its own
comes to a state in which every message was given to every callback of its id. -/
theorem every_post_is_delivered {data : Elem → List UInt8} {actions : List ClientAction}
    (hrun : exec (clientStep t) (Clients.initial callbackVector data) actions = some c) :
    ∃ c', exec (clientStep t) c (List.replicate c.state.stepsLeft .dispatch) = some c' ∧
      c'.posted = c.posted ∧ c'.calls = c.posted.flatMap (callsFor callbackVector maxReceivers) := by
  have h := deliveryInv_of_run hrun
  obtain ⟨c', hc', hempty, hposted⟩ := h.drains
  have h' : DeliveryInv t callbackVector c' :=
    exec_induction (clientStep t) (fun _ _ _ h hstep => h.step hstep) h hc'
  obtain ⟨hlower, hupper⟩ := h'.calls_between
  rw [hempty, Nat.sub_zero, List.take_length] at hlower
  refine ⟨c', hc', hposted, ?_⟩
  rw [← hposted]
  exact hupper.eq_of_length_le hlower.length_le

end Powerboard.MsgPump
