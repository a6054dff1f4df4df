import Powerboard.Protocol.PacketBuffers
import Powerboard.Protocol.ReceiveTheorems

/-!
# Packet buffers are accounted for

What a received byte does to the buffer of the receiver (`ByteOutcome`), and the books of the
packet pool over all runs: no element is lost exactly when no frame ends while the queue is full and
an element is free.
-/

namespace Powerboard.GenericProtocol

open Bytes Machine MsgPump

/-! ## Packets in memory -/

/-- A packet is read back from its bytes. -/
lemma Packet.decode_encode (p : Packet) : Packet.decode p.encode = p := by
  have hpacket : (Vector.ofFn fun i : Fin maxPacketLen => p.encode.getD (4 + i) 0) = p.packet := by
    ext i hi
    simp only [Vector.getElem_ofFn, Packet.encode]
    rw [Nat.add_comm 4 i]
    simp [hi]
  have hlen : readHalfWord p.encode 0 = p.payloadLen := readHalfWord_ofHalfWord p.payloadLen _
  unfold Packet.decode
  rw [hpacket, hlen]
  rfl

/-- The elements of the pump keep what the receiver stores in them. -/
theorem pumpPool_lawful (t : BufTable) : (pumpPool t).Lawful := by
  intro buf packet p
  show Packet.decode ((p.setData buf packet.encode).data buf) = packet
  rw [Pump.setData_data, Function.update_self, Packet.decode_encode]

/-! ## What a byte does to the buffer -/

section ByteOutcome
variable {σ Ref : Type} {pool : PacketPool σ Ref} {i_interface : UInt8} {s : Receiving σ Ref}
  {buf : Ref} {b : UInt8}

/-- The world after stores through a pointer. -/
inductive Stored (pool : PacketPool σ Ref) (buf : Ref) (w : σ) : σ → Prop
  | refl : Stored pool buf w w
  | write (p : Packet) (w' : σ) : Stored pool buf w w' → Stored pool buf w (pool.write buf p w')

/-- A reset takes a free element, or leaves the pointer as it is. -/
def ResetOutcome (pool : PacketPool σ Ref) (buffer : Option Ref) (w : σ) (r : Receiving σ Ref) :
    Prop :=
  (∃ buf w', pool.getFreeBuffer w = (some buf, w') ∧ Stored pool buf w' r.world ∧
      r.buffer = some buf) ∨
    pool.getFreeBuffer w = (none, r.world) ∧ r.buffer = buffer

lemma Stored.trans {w w' w'' : σ} (h : Stored pool buf w w') (h' : Stored pool buf w' w'') :
    Stored pool buf w w'' := by
  induction h' with
  | refl => exact h
  | write p w'' _ ih => exact .write p w'' ih

lemma resetBuffer_outcome (pool : PacketPool σ Ref) (i_interface : UInt8) (s : Receiving σ Ref) :
    ResetOutcome pool s.buffer s.world (resetBuffer pool i_interface s).2 := by
  unfold resetBuffer ResetOutcome
  cases hget : pool.getFreeBuffer s.world with
  | mk result w =>
    cases result with
    | some buf => exact Or.inl ⟨buf, w, rfl, .write _ _ .refl, rfl⟩
    | none => exact Or.inr ⟨rfl, rfl⟩

/-- Everything that a received byte can do to the buffer of the receiver, and what it posts. -/
inductive ByteOutcome (pool : PacketPool σ Ref) (s : Receiving σ Ref) (b : UInt8)
    (r : Receiving σ Ref × List Effect) : Prop
  | kept (buf : Ref) (hbuf : s.buffer = some buf) (hend : ¬ EndsFrame s b)
      (hr : r.1.buffer = some buf) (hw : Stored pool buf s.world r.1.world)
      (hquiet : handedOver r.2 = [])
  | acquired (hbuf : s.buffer = none) (hreset : ResetOutcome pool none s.world r.1)
      (hquiet : handedOver r.2 = [])
  | ended (buf : Ref) (w : σ) (result : Bool × σ) (hbuf : s.buffer = some buf)
      (hend : EndsFrame s b) (hw : Stored pool buf s.world w)
      (hpost : pool.postMessage buf w = result)
      (hreset : ResetOutcome pool (if result.1 then none else some buf) result.2 r.1)
      (heffects : r.2 = [.post (pool.read buf w) result.1])

lemma storeReceived_stored {w : σ} (hw : s.world = w) :
    Stored pool buf w (storeReceived pool buf b s).1.world := by
  subst hw
  unfold storeReceived
  dsimp only
  split <;> exact .write _ _ .refl

lemma postReceived_outcome (hp : pool.Lawful) (i_interface : UInt8) {s : Receiving σ Ref}
    (hbuf : s.buffer = some buf) :
    ∃ w, Stored pool buf s.world w ∧
      ResetOutcome pool (if (pool.postMessage buf w).1 then none else some buf)
        (pool.postMessage buf w).2 (postReceived pool i_interface buf s).1 ∧
      (postReceived pool i_interface buf s).2 =
        [.post (pool.read buf w) (pool.postMessage buf w).1] := by
  set w := pool.write buf ((pool.read buf s.world).withPayloadLen s.receivedPayloadBytes) s.world
    with hw
  refine ⟨w, .write _ _ .refl, ?_, ?_⟩
  · rw [← hbuf]
    exact resetBuffer_outcome pool i_interface
      { s with buffer := if (pool.postMessage buf w).1 then none else s.buffer,
               world := (pool.postMessage buf w).2 }
  · rw [hw, hp]
    rfl

/-- The end of a packet with the right checksum and enough bytes is a post, then a reset. -/
lemma packetEnd_posts (hp : pool.Lawful) (i_interface : UInt8) {s : Receiving σ Ref}
    (hbuf : s.buffer = some buf) (hsum : s.checkSum - packetCharEnd = 0)
    (hcount : sizeofChecksum + sizeofSubProtocolIdentifier ≤ s.receivedPayloadBytes) :
    ∃ w, Stored pool buf s.world w ∧
      ResetOutcome pool (if (pool.postMessage buf w).1 then none else some buf)
        (pool.postMessage buf w).2 (packetEnd pool i_interface buf s).1 ∧
      (packetEnd pool i_interface buf s).2 =
        [.post (pool.read buf w) (pool.postMessage buf w).1] := by
  unfold packetEnd
  dsimp only
  rw [if_pos hsum, if_pos hcount]
  set world := pool.write buf { pool.read buf s.world with interface := i_interface } s.world
    with hworld
  obtain ⟨w, hw, hreset, heffects⟩ := postReceived_outcome hp i_interface
    (s := { s with checkSum := s.checkSum - packetCharEnd, world := world }) hbuf
  exact ⟨w, Stored.trans (.write _ _ .refl) hw, hreset, heffects⟩

/-- Any other end of a packet keeps the buffer. -/
lemma packetEnd_keeps (pool : PacketPool σ Ref) (i_interface : UInt8) {s : Receiving σ Ref}
    (hbuf : s.buffer = some buf) (hnot : ¬ (s.checkSum - packetCharEnd = 0 ∧
      sizeofChecksum + sizeofSubProtocolIdentifier ≤ s.receivedPayloadBytes)) :
    (packetEnd pool i_interface buf s).1.buffer = some buf ∧
      Stored pool buf s.world (packetEnd pool i_interface buf s).1.world ∧
      handedOver (packetEnd pool i_interface buf s).2 = [] := by
  unfold packetEnd
  dsimp only
  split
  · rename_i hsum
    rw [if_neg fun hcount => hnot ⟨hsum, hcount⟩]
    exact ⟨hbuf, .write _ _ .refl, rfl⟩
  · exact ⟨hbuf, .refl, rfl⟩

lemma receiveInto_outcome (hp : pool.Lawful) (i_interface : UInt8) (hbuf : s.buffer = some buf) :
    ByteOutcome pool s b (receiveInto pool i_interface buf s b) := by
  unfold receiveInto
  dsimp only
  by_cases hbegin : s.mode ≠ .receivedEscapeChar ∧ b = packetCharBeginning
  · rw [if_pos hbegin]
    exact .kept buf hbuf (fun hend => hend.1 hbegin) hbuf .refl rfl
  rw [if_neg hbegin]
  by_cases hfull : maxPacketLen ≤ s.receivedPayloadBytes
  · rw [if_pos hfull]
    exact .kept buf hbuf (fun hend => absurd hend.2.2.1 (Nat.not_lt.mpr hfull)) hbuf .refl rfl
  rw [if_neg hfull]
  -- the end mark changes the mode before the switch over it
  generalize hmode : (if s.mode ≠ .receivedEscapeChar ∧ b = packetCharEnd then .receivingPacketEnd
    else s.mode) = mode
  have hends : mode = .receivingPacketEnd ↔
      s.mode ≠ .receivedEscapeChar ∧ b = packetCharEnd ∨ s.mode = .receivingPacketEnd := by
    rw [← hmode]
    split <;> simp_all
  have hother : mode ≠ .receivingPacketEnd → ¬ EndsFrame s b :=
    fun hne hend => hne (hends.mpr hend.2.1)
  cases mode with
  | receivingUnknown => exact .kept buf hbuf (hother (by decide)) hbuf .refl rfl
  | receivedEscapeChar =>
    obtain ⟨hr, -, -, hquiet⟩ := storeReceived_frame pool buf b
      { s with mode := .receivingPayload, checkSum := s.checkSum + b }
    exact .kept buf hbuf (hother (by decide)) (hr.trans hbuf) (storeReceived_stored rfl) hquiet
  | receivingPayload =>
    dsimp only
    split
    · exact .kept buf hbuf (hother (by decide)) hbuf .refl rfl
    · obtain ⟨hr, -, -, hquiet⟩ := storeReceived_frame pool buf b
        { s with mode := .receivingPayload, checkSum := s.checkSum + b }
      exact .kept buf hbuf (hother (by decide)) (hr.trans hbuf) (storeReceived_stored rfl) hquiet
  | receivingPacketEnd =>
    set s' : Receiving σ Ref :=
      { s with mode := .receivingPacketEnd, checkSum := s.checkSum + b } with hs'
    have hbuf' : s'.buffer = some buf := hbuf
    -- the checks of `packetEnd` are those of `EndsFrame`
    by_cases hend : EndsFrame s b
    · obtain ⟨w, hw, hreset, heffects⟩ :=
        packetEnd_posts hp i_interface hbuf' hend.2.2.2.1 hend.2.2.2.2
      exact .ended buf w _ hbuf hend hw rfl hreset heffects
    · obtain ⟨hr, hw, hquiet⟩ := packetEnd_keeps pool i_interface hbuf'
        fun hboth => hend ⟨hbegin, hends.mp rfl, Nat.lt_of_not_le hfull, hboth.1, hboth.2⟩
      exact .kept buf hbuf hend hr hw hquiet

/-- A received byte does one of these things. -/
theorem receiveByte_outcome (hp : pool.Lawful) (i_interface : UInt8) (s : Receiving σ Ref)
    (b : UInt8) : ByteOutcome pool s b (receiveByte pool i_interface s b) := by
  cases hbuf : s.buffer with
  | some buf =>
    rw [receiveByte_of_buffer i_interface hbuf]
    exact receiveInto_outcome hp i_interface hbuf
  | none =>
    have hreset := resetBuffer_outcome pool i_interface s
    have hcount : (resetBuffer pool i_interface s).2.receivedPayloadBytes = 0 := by
      unfold resetBuffer
      split <;> rfl
    unfold receiveByte
    rw [hbuf] at hreset
    simp only [hbuf, Option.isNone_none, if_true]
    rcases hreset with ⟨buf, w, hget, hw, hr⟩ | ⟨hget, hr⟩
    · rw [hr]
      dsimp only
      -- a fresh buffer has received nothing, so that the byte does not end a frame
      have hinto := receiveInto_outcome hp i_interface (b := b) hr
      cases hinto with
      | kept buf' hbuf' hend hr' hw' hquiet =>
        obtain rfl := Option.some.inj (hr.symm.trans hbuf')
        exact .acquired hbuf (Or.inl ⟨buf, w, hget, hw.trans hw', hr'⟩) hquiet
      | acquired hnone =>
        rw [hr] at hnone
        cases hnone
      | ended buf' w' result hbuf' hend =>
        have hmin := hend.2.2.2.2
        rw [hcount] at hmin
        exact absurd hmin (by decide)
    · rw [hr]
      exact .acquired hbuf (Or.inr ⟨hget, hr⟩) rfl

end ByteOutcome

/-! ## On the message pump -/

section Pump
variable {t : BufTable} {d : BufDescription} {i_interface : UInt8} {p p' : Pump} {e : Elem}
  {pc : DispatchPc} {owners : Elem → Prop}

/-- The id of the pool that the books are about. -/
abbrev PacketId : MsgId → Prop := (· = msgIdGenericProtocolPacketReady)

/-- The pool of the packets. -/
lemma lookup_packetReady : firmware.messageBuffers msgIdGenericProtocolPacketReady =
    some (MessageType.genericProtocollPacket.pool 20 msgIdGenericProtocolPacketReady) := by
  decide +kernel

/-- Stores into packets leave the queue and the headers. -/
lemma Stored.pump (h : Stored (pumpPool t) e p p') :
    SameRing p p' ∧ ∀ e', p'.header e' = p.header e' := by
  induction h with
  | refl => exact ⟨⟨rfl, rfl, rfl, rfl⟩, fun _ => rfl⟩
  | write packet w' _ ih => exact ⟨ih.1.trans (sameRing_setData _ _), ih.2⟩

lemma Stored.account (h : Stored (pumpPool t) e p p') (hp : Account t PacketId owners ⟨p, pc⟩) :
    Account t PacketId owners ⟨p', pc⟩ :=
  hp.of_sameRing h.pump.1 fun e _ => h.pump.2 e

lemma pumpPool_getFreeBuffer (hd : t.messageBuffers msgIdGenericProtocolPacketReady = some d) :
    GetFreeOutcome d p msgIdGenericProtocolPacketReady ((pumpPool t).getFreeBuffer p) := by
  obtain ⟨r, hr, houtcome⟩ := getFreeBuffer_outcome (p := p) hd (by decide)
  unfold pumpPool
  simp only [hr]
  exact houtcome

lemma pumpPool_postMessage (hd : t.messageBuffers msgIdGenericProtocolPacketReady = some d)
    (e : Elem) (p : Pump) :
    ∃ bytes, PostOutcome d p msgIdGenericProtocolPacketReady (d.pointerTo e.index bytes)
      ((pumpPool t).postMessage e p) := by
  obtain ⟨r, hr, houtcome⟩ := postMessage_outcome p
    (d.pointerTo e.index fun k => (p.data e).getD k 0) hd
  refine ⟨fun k => (p.data e).getD k 0, ?_⟩
  unfold pumpPool
  simp only [hd, hr]
  exact houtcome

lemma Stored.callbackVector (h : Stored (pumpPool t) e p p') :
    p'.callbackVector = p.callbackVector := by
  induction h with
  | refl => rfl
  | write packet w _ ih => exact ih

lemma ResetOutcome.callbackVector {buffer : Option Elem} {r : Receiving Pump Elem}
    (h : ResetOutcome (pumpPool t) buffer p r)
    (hd : t.messageBuffers msgIdGenericProtocolPacketReady = some d) :
    r.world.callbackVector = p.callbackVector := by
  have hget := (pumpPool_getFreeBuffer (p := p) hd).callbackVector
  rcases h with ⟨buf, w, heq, hw, -⟩ | ⟨heq, -⟩
  · rw [heq] at hget
    exact hw.callbackVector.trans hget
  · rw [heq] at hget
    exact hget

/-- A reset queues nothing. -/
lemma ResetOutcome.sameRing {buffer : Option Elem} {r : Receiving Pump Elem}
    (h : ResetOutcome (pumpPool t) buffer p r)
    (hd : t.messageBuffers msgIdGenericProtocolPacketReady = some d) : SameRing p r.world := by
  have hget := (pumpPool_getFreeBuffer (p := p) hd).sameRing
  rcases h with ⟨buf, w, heq, hw, -⟩ | ⟨heq, -⟩
  · rw [heq] at hget
    exact hget.trans hw.pump.1
  · rw [heq] at hget
    exact hget

/-- A reset makes the receiver the owner of what it takes. -/
lemma ResetOutcome.account {buffer : Option Elem} {r : Receiving Pump Elem}
    (hd : t.messageBuffers msgIdGenericProtocolPacketReady = some d)
    (h : ResetOutcome (pumpPool t) buffer p r) (hp : Account t PacketId owners ⟨p, pc⟩) :
    (∃ i < d.msgAmount, p.header ⟨msgIdGenericProtocolPacketReady, i⟩ = .free ∧
        r.buffer = some ⟨msgIdGenericProtocolPacketReady, i⟩ ∧
        Account t PacketId (fun e => owners e ∨ r.buffer = some e) ⟨r.world, pc⟩) ∨
      (∀ i < d.msgAmount, p.header ⟨msgIdGenericProtocolPacketReady, i⟩ ≠ .free) ∧
        r.buffer = buffer ∧ Account t PacketId owners ⟨r.world, pc⟩ := by
  have hget := pumpPool_getFreeBuffer (p := p) hd
  have haccount := hp.getFree rfl hget
  rcases h with ⟨buf, w, heq, hw, hr⟩ | ⟨heq, hr⟩
  · rw [heq] at hget haccount
    cases hget with
    | reserved i hi hfree =>
      refine Or.inl ⟨i, hi, hfree, hr, ?_⟩
      rw [hr]
      exact hw.account haccount
  · rw [heq] at hget haccount
    right
    refine ⟨?_, hr, ?_⟩
    · generalize hworld : r.world = w at hget
      cases hget with
      | noneFree hnone => exact hnone
    · exact haccount.congr (by simp)

/-! ## The books over a run -/

variable {s s' : Reception} {b : UInt8} {callbackVector : MsgId → ℕ → Option Callback}
  {data : Elem → List UInt8}

/-- The invariant: the books of the packet pool, with the buffer of the receiver as the only element
that has an owner. -/
structure ReceptionInv (t : BufTable) (d : BufDescription) (s : Reception) : Prop where
  account : Account t PacketId (fun e => s.receiving.buffer = some e) s.pumpState
  buffer : ∀ e, s.receiving.buffer = some e →
    e.id = msgIdGenericProtocolPacketReady ∧ e.index < d.msgAmount

lemma ReceptionInv.pumpStep {q : PumpState} (h : ReceptionInv t d s)
    (hq : Account t PacketId (fun e => s.receiving.buffer = some e) q) :
    ReceptionInv t d (s.setPump q) :=
  ⟨hq, h.buffer⟩

/-- Forgetting all owners but the receiver, when it has the only owned element. -/
lemma ReceptionInv.of_reset {buffer : Option Elem} {r : Receiving Pump Elem}
    (hd : t.messageBuffers msgIdGenericProtocolPacketReady = some d)
    (hreset : ResetOutcome (pumpPool t) buffer p r)
    (hp : Account t PacketId (fun e => buffer = some e) ⟨p, pc⟩)
    (hbuffer : ∀ e, buffer = some e →
      e.id = msgIdGenericProtocolPacketReady ∧ e.index < d.msgAmount)
    (hsafe : buffer = none ∨
      ∀ i < d.msgAmount, p.header ⟨msgIdGenericProtocolPacketReady, i⟩ ≠ .free) :
    ReceptionInv t d ⟨r, pc⟩ := by
  rcases hreset.account hd hp with ⟨i, hi, hfree, hr, haccount⟩ | ⟨-, hr, haccount⟩
  · -- a free element was taken, so the receiver had no buffer
    have hnone : buffer = none := hsafe.resolve_right fun hno => hno i hi hfree
    refine ⟨haccount.congr (by simp [hnone]), ?_⟩
    intro e he
    rw [hr, Option.some.injEq] at he
    rw [← he]
    exact ⟨rfl, hi⟩
  · refine ⟨haccount.congr (by rw [hr]; simp), ?_⟩
    intro e he
    exact hbuffer e (hr ▸ he)

/-- The post of the receiver's buffer succeeds, and the queue is the owner; or the queue is full. -/
lemma ReceptionInv.post (h : ReceptionInv t d s)
    (hd : t.messageBuffers msgIdGenericProtocolPacketReady = some d)
    (hbuf : s.receiving.buffer = some e) (hp : Stored (pumpPool t) e s.receiving.world p) :
    (((pumpPool t).postMessage e p).1 = true ∧ ¬ s.receiving.world.Full ∧
        Account t PacketId (fun _ => False) ⟨((pumpPool t).postMessage e p).2, s.pc⟩) ∨
      ((pumpPool t).postMessage e p = (false, p) ∧ s.receiving.world.Full) := by
  obtain ⟨hid, hindex⟩ := h.buffer e hbuf
  have haccount := hp.account h.account
  have hfull : p.Full ↔ s.receiving.world.Full := by
    obtain ⟨hring, -⟩ := hp.pump
    unfold Pump.Full
    rw [hring.front, hring.tail, hring.size]
  obtain ⟨bytes, houtcome⟩ := pumpPool_postMessage hd e p
  rw [← hid] at houtcome hd
  rcases haccount.postOwned hid hbuf hd (BufDescription.pointsTo_pointerTo hindex bytes) houtcome
    with ⟨hok, hroom, hposted⟩ | ⟨heq, hfull'⟩
  · refine Or.inl ⟨by rw [hok], mt hfull.mpr hroom, hposted.congr ?_⟩
    intro e' _
    rw [hbuf, Option.some.injEq]
    tauto
  · exact Or.inr ⟨heq, hfull.mp hfull'⟩

/-- A received byte keeps the books, if it is safe. -/
lemma ReceptionInv.receive (h : ReceptionInv t d s)
    (hd : t.messageBuffers msgIdGenericProtocolPacketReady = some d)
    (hsafe : FrameEndSafe d s (.receive b)) :
    ReceptionInv t d
      { s with receiving := (receiveByte (pumpPool t) i_interface s.receiving b).1 } := by
  have hout := receiveByte_outcome (pumpPool_lawful t) i_interface s.receiving b
  generalize receiveByte (pumpPool t) i_interface s.receiving b = r at hout
  cases hout with
  | kept buf hbuf hend hr hw =>
    rw [← hbuf] at hr
    refine ⟨(hw.account h.account).congr (by rw [hr]; simp), ?_⟩
    intro e he
    exact h.buffer e (hr ▸ he)
  | acquired hbuf hreset =>
    have haccount := h.account
    rw [hbuf] at haccount
    exact .of_reset hd hreset haccount (by simp) (Or.inl rfl)
  | ended buf w result hbuf hend hw hpost hreset =>
    subst hpost
    -- posted: the receiver owns nothing and takes a buffer; refused: it must find none
    rcases h.post hd hbuf hw with ⟨hok, -, haccount⟩ | ⟨hrefused, hfull⟩
    · rw [hok] at hreset
      exact .of_reset hd hreset (haccount.congr (by simp)) (by simp) (Or.inl rfl)
    · rw [hrefused] at hreset
      have haccount := hw.account h.account
      rw [hbuf] at haccount
      refine .of_reset hd hreset haccount ?_ (Or.inr ?_)
      · intro e he
        exact h.buffer e (hbuf.trans he)
      · intro i hi hfree
        apply hsafe b rfl (by rw [hbuf]; rfl) hend hfull i hi
        rw [MsgHeader.isFree_iff, ← hfree, hw.pump.2]

/-- The buffer of a refused packet is lost, when the reset finds another one. -/
lemma ReceptionInv.lost (h : ReceptionInv t d s)
    (hd : t.messageBuffers msgIdGenericProtocolPacketReady = some d)
    (hleak : ¬ FrameEndSafe d s (.receive b)) :
    ¬ PacketsAccounted t
      { s with receiving := (receiveByte (pumpPool t) i_interface s.receiving b).1 } := by
  have hlost : ∃ b', ReceptionAction.receive b = .receive b' ∧ s.receiving.buffer.isSome ∧
      EndsFrame s.receiving b' ∧ s.receiving.world.Full ∧ ∃ i < d.msgAmount,
        (s.receiving.world.header ⟨msgIdGenericProtocolPacketReady, i⟩).IsFree := by
    by_contra hnot
    apply hleak
    intro b' hb hsome hend hfull i hi hfree
    exact hnot ⟨b', hb, hsome, hend, hfull, i, hi, hfree⟩
  obtain ⟨b', hb, hsome, hend, hfull, i, hi, hfree⟩ := hlost
  cases hb
  have hout := receiveByte_outcome (pumpPool_lawful t) i_interface s.receiving b
  generalize receiveByte (pumpPool t) i_interface s.receiving b = r at hout
  cases hout with
  | kept buf hbuf hend' => exact absurd hend hend'
  | acquired hbuf hreset =>
    rw [hbuf] at hsome
    cases hsome
  | ended buf w result hbuf hend hw hpost hreset =>
    subst hpost
    -- the queue is full, so the packet is refused
    rcases h.post hd hbuf hw with ⟨-, hroom, -⟩ | ⟨hrefused, -⟩
    · exact absurd hfull hroom
    · rw [hrefused] at hreset
      have haccount := hw.account h.account
      obtain ⟨hid, hindex⟩ := h.buffer buf hbuf
      have hreserved := (haccount.owned buf hbuf hid).1
      rcases hreset.account hd haccount with ⟨j, hj, hjfree, hr, hreset⟩ | ⟨hnone, -⟩
      · rw [← hid] at hd
        apply hreset.not_accounted (Or.inl hbuf) hid hd hindex
        -- the new buffer was free, the old one was reserved
        intro hsame
        rw [hr, Option.some.injEq] at hsame
        rw [hsame] at hjfree
        rw [hreserved] at hjfree
        exact absurd hjfree (by decide)
      · apply absurd _ (hnone i hi)
        rw [hw.pump.2]
        exact MsgHeader.isFree_iff.mp hfree

/-- Everything that an action can do. -/
inductive Moves (t : BufTable) (i_interface : UInt8) (s : Reception) :
    ReceptionAction → Reception → Prop
  | receive (b : UInt8) : Moves t i_interface s (.receive b)
      { s with receiving := (receiveByte (pumpPool t) i_interface s.receiving b).1 }
  | post (id : MsgId) (ptr : Pointer) (d : BufDescription) (r : Bool × Pump)
      (hid : id ≠ msgIdGenericProtocolPacketReady) (hd : t.messageBuffers id = some d)
      (hr : PostOutcome d s.receiving.world id ptr r) :
      Moves t i_interface s (.post id ptr) (s.setPump ⟨r.2, s.pc⟩)
  | getFreeBuffer (id : MsgId) (d : BufDescription) (r : Option Elem × Pump)
      (hid : id ≠ msgIdGenericProtocolPacketReady) (hr : GetFreeOutcome d s.receiving.world id r) :
      Moves t i_interface s (.getFreeBuffer id) (s.setPump ⟨r.2, s.pc⟩)
  | lock (e : Elem) (hid : e.id ≠ msgIdGenericProtocolPacketReady) :
      Moves t i_interface s (.lock e)
        (s.setPump ⟨(lockMessage s.receiving.world (some e)).2, s.pc⟩)
  | unlock (e : Elem) (hid : e.id ≠ msgIdGenericProtocolPacketReady) :
      Moves t i_interface s (.unlock e)
        (s.setPump ⟨(unlockMessage s.receiving.world (some e)).2, s.pc⟩)
  | dispatch (r : PumpState × Option Call) (hr : DispatchOutcome t s.pumpState r) :
      Moves t i_interface s .dispatch (s.setPump r.1)
  /-- there is no pool for the message -/
  | stay (a : ReceptionAction) : Moves t i_interface s a s

/-- Every step is in the list. -/
lemma moves_of_receptionStep {a : ReceptionAction} (hwf : WellFormed t s.pumpState)
    (hstep : receptionStep t i_interface s a = some s') : Moves t i_interface s a s' := by
  cases a with
  | receive b => exact Option.some.inj hstep ▸ .receive b
  | post id ptr =>
    simp only [receptionStep] at hstep
    split at hstep
    · cases hstep
    rename_i hid
    split at hstep
    · rename_i r hr
      obtain rfl := Option.some.inj hstep
      rcases postMessage_cases hr with ⟨d', hd', houtcome⟩ | rfl
      · exact .post id ptr d' r hid hd' houtcome
      · exact .stay _
    · cases hstep
  | getFreeBuffer id =>
    simp only [receptionStep] at hstep
    split at hstep
    · cases hstep
    rename_i hid
    split at hstep
    · rename_i r hr
      obtain rfl := Option.some.inj hstep
      rcases getFreeBuffer_cases hr with ⟨d', -, houtcome⟩ | rfl
      · exact .getFreeBuffer id d' r hid houtcome
      · exact .stay _
    · cases hstep
  | lock e =>
    simp only [receptionStep] at hstep
    split at hstep
    · cases hstep
    · rename_i hid
      exact Option.some.inj hstep ▸ .lock e hid
  | unlock e =>
    simp only [receptionStep] at hstep
    split at hstep
    · cases hstep
    · rename_i hid
      exact Option.some.inj hstep ▸ .unlock e hid
  | dispatch =>
    obtain ⟨r, hr, houtcome⟩ := dispatch_outcome hwf
    simp only [receptionStep, hr] at hstep
    exact Option.some.inj hstep ▸ .dispatch r houtcome

/-- A safe step keeps the books. -/
theorem ReceptionInv.step {a : ReceptionAction} (h : ReceptionInv t d s)
    (hd : t.messageBuffers msgIdGenericProtocolPacketReady = some d) (hsafe : FrameEndSafe d s a)
    (hstep : receptionStep t i_interface s a = some s') : ReceptionInv t d s' := by
  cases moves_of_receptionStep h.account.wellFormed hstep with
  | receive b => exact h.receive hd hsafe
  | post id ptr d' r hid hd' hr => exact h.pumpStep (h.account.post hid hd' hr)
  | getFreeBuffer id d' r hid hr => exact h.pumpStep (h.account.getFreeOther hid hr)
  | lock e hid => exact h.pumpStep (h.account.lockOther hid)
  | unlock e hid => exact h.pumpStep (h.account.unlockOther hid)
  | dispatch r hr => exact h.pumpStep (h.account.dispatch hr)
  | stay => exact h

lemma receptionInv_start (hd : t.messageBuffers msgIdGenericProtocolPacketReady = some d) :
    ReceptionInv t d (receptionStart t i_interface callbackVector data) := by
  have hreset := resetBuffer_outcome (pumpPool t) i_interface
    (zeroed (initial callbackVector data).pump)
  have hinitial : Account t PacketId (fun _ => False) (initial callbackVector data) :=
    account_initial callbackVector data
  exact .of_reset hd hreset (hinitial.congr (by simp [zeroed])) (by simp [zeroed]) (Or.inl rfl)

/-- The receiver loses no packet buffer, in any state of a run, exactly when in that run no frame
ends while the queue is full and a packet element is free. -/
theorem packetsAccounted_iff_frameEndSafe {as : List ReceptionAction}
    (hd : t.messageBuffers msgIdGenericProtocolPacketReady = some d)
    (h : exec (receptionStep t i_interface)
      (receptionStart t i_interface callbackVector data) as = some s) :
    StatesMeet (receptionStep t i_interface) (PacketsAccounted t)
        (receptionStart t i_interface callbackVector data) as ↔
      StepsMeet (receptionStep t i_interface) (FrameEndSafe d)
        (receptionStart t i_interface callbackVector data) as := by
  apply statesMeet_iff_stepsMeet _ (ReceptionInv t d) _ _ _ (receptionInv_start hd) h
  · intro s hs
    exact hs.account.accounted
  · intro s a s' hs hsafe hstep
    exact hs.step hd hsafe hstep
  · intro s a s' hs hleak hstep
    cases a with
    | receive b =>
      simp only [receptionStep, Option.some.injEq] at hstep
      subst hstep
      exact hs.lost hd hleak
    | _ => exact absurd (fun b hb => by cases hb) hleak

/-! ## The power board -/

/-- A frame with id 1, no payload, and the checksum 0xff. -/
def emptyFrame : List UInt8 := [packetCharBeginning, 0x01, 0xff, packetCharEnd]

/-- This many frames are received one after the other. -/
def receiveFrames (n : ℕ) : List ReceptionAction :=
  (List.replicate n emptyFrame).flatten.map .receive

/-- A received frame and its dispatch. -/
theorem packetsAccounted_iff_frameEndSafe_oneFrame :
    StepsMeet (receptionStep firmware 0)
        (FrameEndSafe (MessageType.genericProtocollPacket.pool 20 msgIdGenericProtocolPacketReady))
        (receptionStart firmware 0 (fun _ _ => none) fun _ => [])
        (receiveFrames 1 ++ [.dispatch, .dispatch]) ∧
      StatesMeet (receptionStep firmware 0) (PacketsAccounted firmware)
        (receptionStart firmware 0 (fun _ _ => none) fun _ => [])
        (receiveFrames 1 ++ [.dispatch, .dispatch]) := by
  have hrun : (exec (receptionStep firmware 0)
      (receptionStart firmware 0 (fun _ _ => none) fun _ => [])
      (receiveFrames 1 ++ [.dispatch, .dispatch])).isSome := by decide +kernel
  have hsafe : StepsMeet (receptionStep firmware 0)
      (FrameEndSafe (MessageType.genericProtocollPacket.pool 20 msgIdGenericProtocolPacketReady))
      (receptionStart firmware 0 (fun _ _ => none) fun _ => [])
      (receiveFrames 1 ++ [.dispatch, .dispatch]) := by decide +kernel
  exact ⟨hsafe, (packetsAccounted_iff_frameEndSafe lookup_packetReady
    (Option.some_get hrun).symm).mpr hsafe⟩

/-- Of 17 frames that no step of the pump comes between, the last finds the queue full, and its
buffer is lost. -/
theorem seventeenth_frame_loses_buffer :
    ∃ s, exec (receptionStep firmware 0)
        (receptionStart firmware 0 (fun _ _ => none) fun _ => []) (receiveFrames 17) = some s ∧
      ¬ PacketsAccounted firmware s := by
  have hrun : (exec (receptionStep firmware 0)
      (receptionStart firmware 0 (fun _ _ => none) fun _ => []) (receiveFrames 17)).map
        (fun s => (s.receiving.world.header ⟨msgIdGenericProtocolPacketReady, 16⟩,
          s.pumpState.held, s.receiving.buffer)) =
      some (.reserved, (List.range 16).map (⟨msgIdGenericProtocolPacketReady, ·⟩),
        some ⟨msgIdGenericProtocolPacketReady, 17⟩) := by decide +kernel
  obtain ⟨s, hs, hview⟩ := Option.map_eq_some_iff.mp hrun
  simp only [Prod.mk.injEq] at hview
  obtain ⟨hheader, hheld, hbuffer⟩ := hview
  refine ⟨s, hs, fun haccounted => ?_⟩
  rcases haccounted ⟨msgIdGenericProtocolPacketReady, 16⟩ _ rfl lookup_packetReady (by decide) with
    hfree | hin | howner
  · rw [MsgHeader.isFree_iff] at hfree
    rw [show s.pumpState.pump.header = s.receiving.world.header from rfl, hheader] at hfree
    exact absurd hfree (by decide)
  · rw [hheld] at hin
    exact absurd hin (by decide)
  · rw [hbuffer] at howner
    exact absurd howner (by decide)

end Pump

end Powerboard.GenericProtocol
