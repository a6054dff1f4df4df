import Powerboard.Communication.CommunicationTheorems
import Powerboard.Communication.ReceptionTheorems
import Powerboard.Link.FollowingTheorems
import Powerboard.Link.Link
import Powerboard.Protocol.CommandsTheorems

/-!
# Every message gets to its endpoint

Each stage of the way keeps its bytes, packets or commands in order, so that what has come through a
stage is the beginning of what went into it. At rest every stage is empty, and what came out at the end
is all that went in.
-/

namespace Powerboard.Link

open Machine Communication GenericProtocol MsgPump

variable {t : BufTable} {d : BufDescription} {slot : ℕ} {handles : List EndpointHandle}
  {i_interface : UInt8}

/-! ## The stages of the sender -/

section Sender
variable {s s' : Globals}

/-- The DMA reads more bytes, and none is given but in a call. -/
lemma commStep_other {a : CommAction} (ha : ∀ bytes, a ≠ .call bytes)
    (hstep : commStep s a = some s') : s'.given = s.given ∧ s.sent <+: s'.sent := by
  have htrigger (u : Globals) : (triggerTransmision u).given = u.given ∧
      (triggerTransmision u).sent = u.sent := by
    unfold triggerTransmision
    dsimp only
    split <;> exact ⟨rfl, rfl⟩
  cases moves_of_commStep hstep with
  | call bytes => exact absurd rfl (ha bytes)
  | dmaRead => exact ⟨rfl, List.prefix_append _ _⟩
  | trigger | triggerInIsr =>
    refine ⟨(htrigger s).1, ?_⟩
    rw [show s.sent = (triggerTransmision s).sent from (htrigger s).2.symm]
  | beginStore | endCall | copy | endStore | remove => exact ⟨rfl, List.prefix_refl _⟩

lemma commStep_call {byte : UInt8} (hstep : commStep s (.call [byte]) = some s') :
    s'.given = s.given ++ [byte] ∧ s'.sent = s.sent := by
  simp only [commStep] at hstep
  split at hstep
  · obtain rfl := Option.some.inj hstep
    exact ⟨rfl, rfl⟩
  · cases hstep

end Sender

/-! ## The stages of the receiver -/

section Receiver
variable {s s' : RxGlobals}

/-- The interrupt hands on at most one byte, and leaves the line alone. -/
lemma usart1Isr_outcome (s : RxGlobals) :
    s.usart1Isr.received = s.received ∧
      s.usart1Isr.handed = s.handed ++
        match s.isrPc with
        | .handing received => [received]
        | _ => [] := by
  unfold RxGlobals.usart1Isr
  cases s.isrPc with
  | handing received => exact ⟨rfl, rfl⟩
  | idle | reading | advancing received | behind => exact ⟨rfl, (List.append_nil _).symm⟩
  | loop =>
    dsimp only
    split <;> exact ⟨rfl, (List.append_nil _).symm⟩

end Receiver

section Commands
variable {s s' : Commands} {b : UInt8}

/-- Another client of the message pump leaves the packets. -/
lemma receptionStep_other {u u' : Reception} {a : ReceptionAction} (hwf : WellFormed t u.pumpState)
    (ha : ∀ b, a ≠ .receive b) (hstep : receptionStep t i_interface u a = some u') :
    ∃ w, u'.receiving = { u.receiving with world := w } ∧
      ∀ e, e.id = msgIdGenericProtocolPacketReady → w.data e = u.receiving.world.data e := by
  cases moves_of_receptionStep hwf hstep with
  | receive b => exact absurd rfl (ha b)
  | post id ptr d' r hid hd' hr =>
    exact ⟨r.2, rfl, fun e he => hr.data_of_ne fun heq => hid (heq ▸ he)⟩
  | getFreeBuffer id d' r hid hr => exact ⟨r.2, rfl, fun e _ => congrFun hr.data e⟩
  | lock e => exact ⟨_, rfl, fun e' _ => congrFun (lockMessage_data (some e)) e'⟩
  | unlock e => exact ⟨_, rfl, fun e' _ => congrFun (unlockMessage_data (some e)) e'⟩
  | dispatch r hr => exact ⟨r.1.pump, rfl, fun e _ => congrFun hr.data e⟩
  | stay => exact ⟨u.receiving.world, rfl, fun _ _ => rfl⟩

/-- What is not a received byte leaves the receiver and its buffer. -/
lemma commandStep_other {a : CommandAction} (h : CommandInv t d slot handles i_interface s)
    (ha : ∀ b, a ≠ .reception (.receive b))
    (hstep : commandStep t i_interface handles s a = some s') :
    s'.received = s.received ∧ s'.posted = s.posted ∧
      ∃ w, s'.reception.receiving = { s.reception.receiving with world := w } ∧
        ∀ e, e.id = msgIdGenericProtocolPacketReady → w.data e = s.pump.data e := by
  obtain ⟨owners, hown, -⟩ := h.handling
  cases a with
  | reception a =>
    cases a with
    | receive b => exact absurd rfl (ha b)
    | dispatch =>
      simp only [commandStep] at hstep
      split at hstep
      · cases hstep
      obtain ⟨r, hr, houtcome⟩ := dispatch_outcome hown.account.wellFormed
      rw [hr] at hstep
      obtain rfl := Option.some.inj hstep
      exact ⟨rfl, rfl, r.1.pump, rfl, fun e _ => congrFun houtcome.data e⟩
    | post | getFreeBuffer | lock | unlock =>
      obtain ⟨reception, hreception, rfl⟩ := Option.map_eq_some_iff.mp hstep
      exact ⟨rfl, rfl, receptionStep_other hown.account.wellFormed (by simp) hreception⟩
  | write e content =>
    simp only [commandStep] at hstep
    split at hstep
    · cases hstep
    · rename_i hid
      obtain rfl := Option.some.inj hstep
      refine ⟨rfl, rfl, s.pump.setData e content, rfl, fun e' he' => ?_⟩
      rw [Pump.setData_data, Function.update_of_ne]
      exact fun heq => hid (heq ▸ he')
  | runDispatcher =>
    obtain ⟨current, -, rfl⟩ := Option.map_eq_some_iff.mp hstep
    have hsame : (runDispatcher handles s current).received = s.received ∧
        (runDispatcher handles s current).posted = s.posted ∧
        (runDispatcher handles s current).reception = s.reception := by
      cases current with
      | entered | calling => exact ⟨rfl, rfl, rfl⟩
      | searching buffer targetID =>
        unfold runDispatcher
        dsimp only
        split <;> exact ⟨rfl, rfl, rfl⟩
    refine ⟨hsame.1, hsame.2.1, s.reception.receiving.world, ?_, fun _ _ => rfl⟩
    rw [hsame.2.2]

/-- A receiver that is served finds a buffer. -/
lemma Served.buffer {p : Receiving Pump Elem} (h : Served d p b)
    (hd : t.messageBuffers msgIdGenericProtocolPacketReady = some d) (hnone : p.buffer = none) :
    ((pumpPool t).getFreeBuffer p.world).1.isSome := by
  obtain ⟨i, hi, hfree⟩ := h.1 hnone
  have hget := pumpPool_getFreeBuffer (p := p.world) hd
  generalize (pumpPool t).getFreeBuffer p.world = r at hget
  cases hget with
  | reserved => rfl
  | noneFree hnot => exact absurd (MsgHeader.isFree_iff.mp hfree) (hnot i hi)

/-- A receiver that is served posts what it hands over. -/
lemma Served.posted (h : CommandInv t d slot handles i_interface s)
    (hd : t.messageBuffers msgIdGenericProtocolPacketReady = some d)
    (hserved : Served d s.reception.receiving b) :
    posted (receiveByte (pumpPool t) i_interface s.reception.receiving b).2 =
      handedOver (receiveByte (pumpPool t) i_interface s.reception.receiving b).2 := by
  have hout := receiveByte_outcome (pumpPool_lawful t) i_interface s.reception.receiving b
  generalize receiveByte (pumpPool t) i_interface s.reception.receiving b = r at hout
  cases hout with
  | kept _ _ _ _ _ hquiet => rw [hquiet, posted_eq_nil hquiet]
  | acquired _ _ hquiet => rw [hquiet, posted_eq_nil hquiet]
  | ended buf w result hbuf hend hw hpost _ heffects =>
    subst hpost
    obtain ⟨owners, hown, hbuffer⟩ := h.handling
    obtain ⟨howner, hid, hindex⟩ := hbuffer buf hbuf
    obtain ⟨bytes, houtcome⟩ := pumpPool_postMessage hd buf w
    rw [← hid] at houtcome hd
    rcases (hw.account hown.account).postOwned hid howner hd
        (BufDescription.pointsTo_pointerTo hindex bytes) houtcome with ⟨hok, -⟩ | ⟨-, hfull⟩
    · rw [heffects, hok]
      rfl
    · -- the queue is as it was before the packet was stored
      obtain ⟨hring, -⟩ := hw.pump
      unfold Pump.Full at hfull
      rw [hring.front, hring.tail, hring.size] at hfull
      exact absurd hfull (hserved.2 hend)

end Commands

/-! ## The invariant -/

/-- Where the bytes and the packets are. -/
structure LinkInv (t : BufTable) (d : BufDescription) (slot : ℕ) (handles : List EndpointHandle)
    (i_interface : UInt8) (s : Boards) : Prop where
  transmit : CommInv s.transmit
  given : s.transmit.given ++ s.unsent = s.messages.flatMap Message.wire
  receive : RxInv s.receive
  line : s.receive.received <+: s.transmit.sent
  commands : CommandInv t d slot handles i_interface s.commands
  handed : s.commands.received = s.receive.handed
  following : (∀ m ∈ s.messages, m.payload.length ≤ 125) →
    Following (pumpPool t) i_interface s.messages s.commands.received
      (s.commands.posted.map Prod.snd) s.commands.reception.receiving

variable {s s' : Boards}

/-- Whatever is handed on is the beginning of what is sent. -/
lemma handed_isPrefix {transmit : Globals} {receive : RxGlobals} {messages : List Message}
    {unsent : List UInt8} (htransmit : CommInv transmit)
    (hgiven : transmit.given ++ unsent = messages.flatMap Message.wire)
    (hreceive : RxInv receive) (hline : receive.received <+: transmit.sent) :
    receive.handed <+: messages.flatMap Message.wire := by
  rw [← hgiven]
  exact hreceive.handsOn.handed_isPrefix.trans
    (hline.trans (htransmit.sent_isPrefix.trans (List.prefix_append _ _)))

/-- A step of the transmit path. -/
lemma LinkInv.setTransmit (h : LinkInv t d slot handles i_interface s) {transmit : Globals}
    {unsent : List UInt8} (htransmit : CommInv transmit)
    (hgiven : transmit.given ++ unsent = s.transmit.given ++ s.unsent)
    (hsent : s.transmit.sent <+: transmit.sent) :
    LinkInv t d slot handles i_interface { s with transmit := transmit, unsent := unsent } :=
  ⟨htransmit, hgiven.trans h.given, h.receive, h.line.trans hsent, h.commands, h.handed, h.following⟩

/-- The next byte of the line. -/
lemma LinkInv.arrive (h : LinkInv t d slot handles i_interface s)
    (hunread : s.receive.unread < rxFifoSize) {byte : UInt8}
    (hbyte : s.transmit.sent[s.receive.received.length]? = some byte) :
    LinkInv t d slot handles i_interface { s with receive := s.receive.dmaWrite byte } := by
  refine ⟨h.transmit, h.given, h.receive.dmaWrite hunread byte, ?_, h.commands, h.handed, h.following⟩
  obtain ⟨hlt, hget⟩ := List.getElem?_eq_some_iff.mp hbyte
  have htake : s.transmit.sent.take (s.receive.received.length + 1) =
      s.receive.received ++ [byte] := by
    rw [List.take_succ_eq_append_getElem hlt, hget, ← List.prefix_iff_eq_take.mp h.line]
  show s.receive.received ++ [byte] <+: s.transmit.sent
  rw [← htake]
  exact List.take_prefix _ _

/-- The interrupt hands a byte on to the receiver. -/
lemma LinkInv.hand (h : LinkInv t d slot handles i_interface s)
    (hd : t.messageBuffers msgIdGenericProtocolPacketReady = some d)
    (hunread : s.receive.unread < rxFifoSize) {received : UInt8} {commands : Commands}
    (hpc : s.receive.isrPc = .handing received) (hserved : Served d s.commands.reception.receiving received)
    (hstep : commandStep t i_interface handles s.commands (.reception (.receive received)) =
      some commands) :
    LinkInv t d slot handles i_interface
      { s with receive := s.receive.usart1Isr, commands := commands } := by
  have hreceive := h.receive.usart1Isr hunread
  obtain ⟨hline, hhanded⟩ := usart1Isr_outcome s.receive
  rw [hpc] at hhanded
  have hline' : s.receive.usart1Isr.received <+: s.transmit.sent := hline ▸ h.line
  have hnext := handed_isPrefix h.transmit h.given hreceive hline'
  have hcommands := h.commands.step hd hstep
  obtain rfl := Option.some.inj hstep
  refine ⟨h.transmit, h.given, hreceive, hline', hcommands, ?_, fun hlen => ?_⟩
  · rw [hhanded, ← h.handed]
  · rw [hhanded, ← h.handed] at hnext
    have hfollowing := (h.following hlen).step i_interface (pumpPool_lawful t) hlen hnext
      (hserved.buffer hd)
    rw [← hserved.posted h.commands hd] at hfollowing
    dsimp only
    rw [List.map_append, List.map_map, show Prod.snd ∘
      (fun packet => (s.commands.received.length, packet)) = (id : Packet → Packet) from rfl, List.map_id]
    exact hfollowing

/-- This board goes on, and more messages are to come. -/
lemma LinkInv.board (h : LinkInv t d slot handles i_interface s)
    (hd : t.messageBuffers msgIdGenericProtocolPacketReady = some d) {a : CommandAction}
    {commands : Commands} (ha : ∀ b, a ≠ .reception (.receive b))
    (hstep : commandStep t i_interface handles s.commands a = some commands) :
    LinkInv t d slot handles i_interface { s with commands := commands } := by
  obtain ⟨hreceived, hposted, w, hworld, hdata⟩ := commandStep_other h.commands ha hstep
  refine ⟨h.transmit, h.given, h.receive, h.line, h.commands.step hd hstep, hreceived.trans h.handed,
    fun hlen => ?_⟩
  obtain ⟨owners, -, hbuffer⟩ := h.commands.handling
  have hfollowing := (h.following hlen).congr i_interface (w := w)
    (fun e he => congrArg Packet.decode (hdata e (hbuffer e he).2.1)) []
  rw [List.append_nil] at hfollowing
  dsimp only
  rw [hreceived, hposted, hworld]
  exact hfollowing

/-- Every step that keeps up keeps the invariant. -/
theorem LinkInv.step {a : LinkAction} (h : LinkInv t d slot handles i_interface s)
    (hd : t.messageBuffers msgIdGenericProtocolPacketReady = some d) (hkeeps : KeepsUp d s a)
    (hstep : linkStep t i_interface handles s a = some s') :
    LinkInv t d slot handles i_interface s' := by
  cases a with
  | sendMessage m =>
    simp only [linkStep] at hstep
    split at hstep
    · rename_i hidle
      obtain rfl := Option.some.inj hstep
      have hgiven := h.given
      rw [hidle.1, List.append_nil] at hgiven
      refine ⟨h.transmit, ?_, h.receive, h.line, h.commands, h.handed, fun hlen => ?_⟩
      · dsimp only
        rw [hgiven, List.flatMap_append, List.flatMap_singleton]
      · exact (h.following fun m' hm' => hlen m' (List.mem_append_left _ hm')).congr i_interface
          (fun _ _ => rfl) [m]
    · cases hstep
  | send =>
    simp only [linkStep] at hstep
    split at hstep
    · cases hstep
    · rename_i byte rest hunsent
      obtain ⟨transmit, htransmit, rfl⟩ := Option.map_eq_some_iff.mp hstep
      obtain ⟨hgiven, hsent⟩ := commStep_call htransmit
      refine h.setTransmit (h.transmit.step htransmit) ?_ (hsent ▸ List.prefix_refl _)
      rw [hgiven, hunsent, List.append_assoc, List.singleton_append]
  | transmit a =>
    cases a with
    | call bytes => cases hstep
    | phySendFunction0 | dmaRead | dma1Ch23Isr =>
      obtain ⟨transmit, htransmit, rfl⟩ := Option.map_eq_some_iff.mp hstep
      obtain ⟨hgiven, hsent⟩ := commStep_other (by simp) htransmit
      exact h.setTransmit (h.transmit.step htransmit) (by rw [hgiven]) hsent
  | receive =>
    obtain ⟨byte, hbyte, rfl⟩ := Option.map_eq_some_iff.mp hstep
    exact h.arrive hkeeps.1 hbyte
  | usart1Isr =>
    simp only [linkStep] at hstep
    split at hstep
    · rename_i received hpc
      obtain ⟨commands, hcommands, rfl⟩ := Option.map_eq_some_iff.mp hstep
      have hhanded : handedByte s .usart1Isr = some received := by
        simp only [handedByte, hpc]
      exact h.hand hd hkeeps.1 hpc (hkeeps.2 received hhanded) hcommands
    · rename_i hpc
      obtain rfl := Option.some.inj hstep
      obtain ⟨hline, hhanded⟩ := usart1Isr_outcome s.receive
      have hnone : s.receive.usart1Isr.handed = s.receive.handed := by
        rw [hhanded]
        split
        · rename_i received hhanding
          exact absurd hhanding (hpc received)
        · exact List.append_nil _
      exact ⟨h.transmit, h.given, h.receive.usart1Isr hkeeps.1, hline ▸ h.line, h.commands,
        h.handed.trans hnone.symm, h.following⟩
  | board a =>
    cases a with
    | reception a =>
      cases a with
      | receive b => cases hstep
      | post | getFreeBuffer | lock | unlock | dispatch =>
        obtain ⟨commands, hcommands, rfl⟩ := Option.map_eq_some_iff.mp hstep
        exact h.board hd (by simp) hcommands
    | write | runDispatcher =>
      obtain ⟨commands, hcommands, rfl⟩ := Option.map_eq_some_iff.mp hstep
      exact h.board hd (by simp) hcommands

lemma linkInv_start {callbackVector : MsgId → ℕ → Option Callback} {data : Elem → List UInt8}
    {memory : ℕ → UInt8} (hd : t.messageBuffers msgIdGenericProtocolPacketReady = some d)
    (hregistered : DispatcherRegistered callbackVector slot) :
    LinkInv t d slot handles i_interface (linkStart t i_interface callbackVector data memory) :=
  ⟨commInv_start, rfl, rxInv_start, List.nil_prefix, commandInv_start hd hregistered, rfl, fun _ =>
    .between [] [] rfl rfl .nil (resetBuffer_outOfFrame i_interface)⟩

/-! ## What is read off the invariant -/

/-- The command in a packet is that of the message that it carries. -/
lemma command_of_carries {packet : Packet} {m : Message} (h : Packet.Carries i_interface packet m) :
    packet.command handles = commandOf handles i_interface m := by
  obtain ⟨hid, hpayload⟩ := Prod.mk.inj h.content
  have hlen : packet.payloadLen = UInt16.ofNat m.payload.length := by
    rw [← h.payloadLen, UInt16.ofNat_toNat]
  unfold Packet.command commandOf
  rw [hid, hpayload, hlen, h.interface]

lemma commands_of_carries {packets : List Packet} {done : List Message}
    (h : List.Forall₂ (Packet.Carries i_interface) packets done) :
    packets.filterMap (Packet.command handles) = done.filterMap (commandOf handles i_interface) := by
  induction h with
  | nil => rfl
  | cons hcarries _ ih => rw [List.filterMap_cons, List.filterMap_cons, ih, command_of_carries hcarries]

/-- At rest all that was sent was received. -/
lemma LinkInv.received_of_atRest (h : LinkInv t d slot handles i_interface s) (hrest : s.AtRest) :
    s.commands.received = s.messages.flatMap Message.wire := by
  have hstored := h.transmit.given
  simp only [Globals.rest, hrest.sendPc, List.append_nil] at hstored
  have hgiven := h.given
  rw [hrest.unsent, List.append_nil] at hgiven
  rw [h.handed, h.receive.handsOn.handed_eq_of_ended hrest.ended, h.line.eq_of_length hrest.line,
    h.transmit.sent_eq hrest.count, ← hstored, hgiven]

lemma LinkInv.delivered (h : LinkInv t d slot handles i_interface s)
    (hlen : ∀ m ∈ s.messages, m.payload.length ≤ 125) : Delivered handles i_interface s := by
  obtain ⟨done, more, hmessages, hcarries, hall⟩ := (h.following hlen).carries
  obtain ⟨owners, hown, -⟩ := h.commands.handling
  obtain ⟨handled, hpackets, hcommands⟩ := hown.history
  have hdone := @commands_of_carries handles _ _ _ hcarries
  have hhandled : handled <+: s.commands.posted.map Prod.snd := ⟨_, hpackets.symm⟩
  refine ⟨?_, fun hrest => ?_⟩
  · rw [hcommands, hmessages, List.filterMap_append, ← hdone]
    exact (hhandled.filterMap _).trans (List.prefix_append _ _)
  · have hmore := hall (h.received_of_atRest hrest)
    -- the queue is empty, and no packet is with the dispatcher
    have hqueue : s.commands.pump.queue = [] :=
      List.eq_nil_of_length_eq_zero (by rw [Pump.length_queue, hrest.msgQueueSize])
    have hahead : s.commands.reception.pumpState.ahead slot = [] := by
      unfold PumpState.ahead
      rw [show s.commands.reception.pumpState.pump.queue = [] from hqueue]
      split
      · rfl
      · split <;> rfl
      · rfl
      · rfl
    rw [hahead, hrest.running] at hpackets
    simp only [taken, packetElems, List.filterMap_nil, List.append_nil, List.map_nil] at hpackets
    rw [hcommands, ← hpackets, hdone, hmessages, hmore, List.append_nil]

/-- From board to board: as long as the interrupt keeps up with the line and the receiver finds a buffer
and room in the queue, every message that the other board sends makes its endpoint called once, with
its payload and in its turn. -/
theorem messages_reach_endpoints {callbackVector : MsgId → ℕ → Option Callback}
    {data : Elem → List UInt8} {memory : ℕ → UInt8} {as : List LinkAction}
    (hd : t.messageBuffers msgIdGenericProtocolPacketReady = some d)
    (hregistered : ∃ slot, DispatcherRegistered callbackVector slot)
    (h : exec (linkStep t i_interface handles) (linkStart t i_interface callbackVector data memory) as =
      some s)
    (hkeeps : StepsMeet (linkStep t i_interface handles) (KeepsUp d)
      (linkStart t i_interface callbackVector data memory) as)
    (hlen : ∀ m ∈ s.messages, m.payload.length ≤ 125) : Delivered handles i_interface s := by
  obtain ⟨slot, hregistered⟩ := hregistered
  have hstep (u : Boards) (a : LinkAction) (u' : Boards)
      (hu : LinkInv t d slot handles i_interface u) (hC : KeepsUp d u a)
      (hstep : linkStep t i_interface handles u a = some u') :
      LinkInv t d slot handles i_interface u' := hu.step hd hC hstep
  have hinv := exec_induction_of_steps _ hstep (linkInv_start hd hregistered) hkeeps as [] s
    (List.append_nil as).symm h
  exact hinv.delivered hlen

/-- A byte on its way -/
def byteSent : List LinkAction :=
  [.send] ++ List.replicate 5 (.transmit .phySendFunction0) ++
    [.transmit .dmaRead, .transmit .dma1Ch23Isr, .transmit .dma1Ch23Isr, .receive] ++
    List.replicate 7 .usart1Isr

/-- A message with id 1 and payload 5, and the call of its endpoint -/
def oneMessage : List LinkAction :=
  .sendMessage ⟨1, [5], by decide⟩ :: (List.replicate 5 byteSent).flatten ++
    [.board (.reception .dispatch), .board (.reception .dispatch), .board .runDispatcher,
      .board .runDispatcher]

theorem messages_reach_endpoints_oneMessage :
    ∃ s, exec (linkStep firmware 0 [⟨2, 8⟩, ⟨1, 7⟩])
        (linkStart firmware 0 onlyDispatcher (fun _ => []) fun _ => 0) oneMessage = some s ∧
      s.commands.commands = [⟨7, [5], 1, 0⟩] ∧ Delivered [⟨2, 8⟩, ⟨1, 7⟩] 0 s := by
  have hrun : (exec (linkStep firmware 0 [⟨2, 8⟩, ⟨1, 7⟩])
      (linkStart firmware 0 onlyDispatcher (fun _ => []) fun _ => 0) oneMessage).map
        (fun s => (s.commands.commands, s.messages.map (·.payload.length))) =
      some ([⟨7, [5], 1, 0⟩], [1]) := by decide +kernel
  obtain ⟨s, hs, hview⟩ := Option.map_eq_some_iff.mp hrun
  obtain ⟨hcommands, hlengths⟩ := Prod.mk.inj hview
  have hkeeps : StepsMeet (linkStep firmware 0 [⟨2, 8⟩, ⟨1, 7⟩])
      (KeepsUp (MessageType.genericProtocollPacket.pool 20 msgIdGenericProtocolPacketReady))
      (linkStart firmware 0 onlyDispatcher (fun _ => []) fun _ => 0) oneMessage := by decide +kernel
  have hlen : ∀ m ∈ s.messages, m.payload.length ≤ 125 := by
    intro m hm
    have hmem := List.mem_map_of_mem (f := fun m : Message => m.payload.length) hm
    rw [hlengths, List.mem_singleton] at hmem
    omega
  exact ⟨s, hs, hcommands, messages_reach_endpoints lookup_packetReady ⟨0, by decide +kernel⟩ hs hkeeps hlen⟩

end Powerboard.Link
