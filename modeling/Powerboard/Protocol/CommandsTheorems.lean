import Powerboard.MsgPump.SlotTheorems
import Powerboard.Protocol.Commands
import Powerboard.Protocol.FrameTheorems
import Powerboard.Protocol.PacketBuffersTheorems

/-!
# Commands reach the right endpoint intact

Between the post of a packet and the return of the endpoint the element of the packet is held by the
queue, and the receiver stores only into elements it owns, which the queue does not hold. So the
packets that were posted are those handed to the dispatcher, the one it is working on and those that
the queue still has ahead of it, with the contents they were posted with (`Handling`).
-/

namespace Powerboard.GenericProtocol

open Machine MsgPump

/-! ## Statement -/

/-- A frame of the grammar in a stream: the number of its last byte, its id and its payload. -/
structure FoundFrame where
  position : ℕ
  id : UInt8
  payload : List UInt8

/-- The grammar finds the frame in the stream. -/
def FoundFrame.In (f : FoundFrame) (stream : List UInt8) : Prop :=
  ∃ front w rest, stream = front ++ packetCharBeginning :: w ++ packetCharEnd :: rest ∧
    f.position = (front ++ packetCharBeginning :: w).length ∧ IsFrameBody w f.id f.payload

/-- The command is what the frame says, to the one endpoint with its id. -/
structure Command.IsFor (handles : List EndpointHandle) (i_interface : UInt8) (c : Command)
    (f : FoundFrame) : Prop where
  endpoint : ∃ handle ∈ handles, handle.endpointIdentifier = f.id ∧ handle.callback = c.callback ∧
    ∀ other ∈ handles, other.endpointIdentifier = f.id → other = handle
  payload : c.payload = f.payload
  packetLen : c.packetLen.toNat = f.payload.length
  length_le : f.payload.length ≤ 125
  interface : c.interface = i_interface

/-- A frame of a stream is one of the longer stream. -/
lemma FoundFrame.In.append {f : FoundFrame} {stream : List UInt8} (h : f.In stream)
    (more : List UInt8) : f.In (stream ++ more) := by
  obtain ⟨front, w, rest, rfl, hposition, hbody⟩ := h
  exact ⟨front, w, rest ++ more, by simp, hposition, hbody⟩

lemma FoundFrame.In.position_lt {f : FoundFrame} {stream : List UInt8} (h : f.In stream) :
    f.position < stream.length := by
  obtain ⟨front, w, rest, rfl, hposition, -⟩ := h
  simp only [hposition, List.length_append, List.length_cons]
  omega

lemma IsFrameBody.length_le {w payload : List UInt8} {id : UInt8}
    (h : IsFrameBody w id payload) : payload.length ≤ 125 := by
  obtain ⟨cs, -, hlen, -⟩ := h
  simp only [List.cons_append, List.length_cons, List.length_append, List.length_nil,
    maxPacketLen] at hlen
  omega

/-! ## Packets and their elements -/

/-- The packet in an element. -/
abbrev packetIn (p : Pump) (e : Elem) : Packet := Packet.decode (p.data e)

/-- The command in a packet, if there is an endpoint with its id. -/
def Packet.command (handles : List EndpointHandle) (packet : Packet) : Option Command :=
  (handles.find? fun iter => packet.subProtocolID = iter.endpointIdentifier).map fun iter =>
    { callback := iter.callback
      payload := packet.payload
      packetLen := packet.payloadLen
      interface := packet.interface }

/-- The endpoint that the dispatcher finds is called with the command in the packet. -/
lemma command_onReceivedPacket (handles : List EndpointHandle) (p : Pump) (e : Elem) :
    (onReceivedPacket handles msgIdGenericProtocolPacketReady e (packetIn p e)).map
        (·.command p) = (packetIn p e).command handles := by
  simp only [onReceivedPacket, if_true, Option.map_map, Packet.command]
  rfl

/-- The elements of the packets among these queue entries. -/
def packetElems (entries : List QueueEntry) : List Elem :=
  entries.filterMap fun m => if m.id = msgIdGenericProtocolPacketReady then m.buffer else none

lemma packetElems_append (entries entries' : List QueueEntry) :
    packetElems (entries ++ entries') = packetElems entries ++ packetElems entries' :=
  List.filterMap_append

lemma packetElems_singleton (m : QueueEntry) :
    packetElems [m] =
      (if m.id = msgIdGenericProtocolPacketReady then m.buffer else none).toList := by
  unfold packetElems
  rw [List.filterMap_cons]
  split <;> rename_i h <;> rw [h] <;> rfl

section Pump
variable {t : BufTable} {d : BufDescription} {slot : ℕ} {handles : List EndpointHandle}
  {i_interface : UInt8} {owners owners' : Elem → Prop} {state state' : PumpState}
  {running : Option DispatcherPc} {packets : List Packet} {commands : List Command} {p : Pump}
  {pc : DispatchPc} {e : Elem}

lemma mem_held_of_packetElems (h : WellFormed t state) (he : e ∈ packetElems (state.ahead slot)) :
    e ∈ state.held ∧ e.id = msgIdGenericProtocolPacketReady := by
  obtain ⟨m, hm, hbuffer⟩ := List.mem_filterMap.mp he
  split at hbuffer
  · rename_i hid
    have hheld : e ∈ state.held :=
      List.mem_filterMap.mpr ⟨m, mem_heldEntries_of_ahead hm, hbuffer⟩
    have hentry : m ∈ state.pump.queue := mem_queue_of_heldEntries (mem_heldEntries_of_ahead hm)
    obtain ⟨d, -, -, hbuf⟩ := h.entries m hentry
    exact ⟨hheld, (hbuf e hbuffer).1.trans hid⟩
  · cases hbuffer

/-- Stores through a pointer leave the other elements. -/
lemma Stored.data {p' : Pump} (h : Stored (pumpPool t) e p p') {e' : Elem} (he : e' ≠ e) :
    p'.data e' = p.data e' := by
  induction h with
  | refl => rfl
  | write packet w _ ih =>
    show (w.setData e packet.encode).data e' = _
    rw [Pump.setData_data, Function.update_of_ne he, ih]

/-! ## From the post to the endpoint -/

/-- The element the dispatcher works on. -/
def DispatcherPc.element : DispatcherPc → Elem
  | .entered buffer => buffer
  | .searching buffer _ => buffer
  | .calling call => call.ipacket

/-- The packet that the dispatcher was called for and has not yet called an endpoint for. -/
def taken : Option DispatcherPc → List Elem
  | some (.entered buffer) => [buffer]
  | some (.searching buffer _) => [buffer]
  | some (.calling _) => []
  | none => []

lemma mem_taken (h : e ∈ taken running) : ∃ current, running = some current ∧ current.element = e := by
  unfold taken at h
  split at h
  · exact ⟨_, rfl, (List.mem_singleton.mp h).symm⟩
  · exact ⟨_, rfl, (List.mem_singleton.mp h).symm⟩
  · cases h
  · cases h

/-- Of the posted packets, in order, some were handed to endpoints, at most one is with the dispatcher
and the others are ahead of it in the queue; and what the dispatcher works on does not change. -/
structure Handling (t : BufTable) (slot : ℕ) (handles : List EndpointHandle)
    (owners : Elem → Prop) (state : PumpState) (running : Option DispatcherPc)
    (packets : List Packet) (commands : List Command) : Prop where
  account : Account t PacketId owners state
  history : ∃ handled, packets = handled ++
      (taken running ++ packetElems (state.ahead slot)).map (packetIn state.pump) ∧
    commands = handled.filterMap (Packet.command handles)
  working : ∀ current, running = some current →
    current.element ∈ state.held ∧ current.element.id = msgIdGenericProtocolPacketReady
  target : ∀ buffer targetID, running = some (.searching buffer targetID) →
    targetID = (packetIn state.pump buffer).subProtocolID
  last : ∀ call, running = some (.calling call) →
    commands.getLast? = some (call.command state.pump)

/-- A step that leaves the queue as far as packets are concerned, and the packets it holds. -/
lemma Handling.congr (h : Handling t slot handles owners state running packets commands)
    (haccount : Account t PacketId owners' state')
    (hahead : packetElems (state'.ahead slot) = packetElems (state.ahead slot))
    (hheld : ∀ e ∈ state.held, e ∈ state'.held)
    (hdata : ∀ e ∈ state.held, e.id = msgIdGenericProtocolPacketReady →
      state'.pump.data e = state.pump.data e) :
    Handling t slot handles owners' state' running packets commands := by
  -- the packet that the dispatcher works on is held, so it is among those that are left
  have hrunning (current : DispatcherPc) (hat : running = some current) :
      state'.pump.data current.element = state.pump.data current.element :=
    hdata _ (h.working current hat).1 (h.working current hat).2
  obtain ⟨handled, hpackets, hcommands⟩ := h.history
  refine ⟨haccount, ⟨handled, ?_, hcommands⟩, ?_, ?_, ?_⟩
  · rw [hpackets, hahead]
    refine congrArg (handled ++ ·) (List.map_congr_left fun e he => ?_)
    have hsame : state'.pump.data e = state.pump.data e := by
      rcases List.mem_append.mp he with htaken | hqueued
      · obtain ⟨current, hat, rfl⟩ := mem_taken htaken
        exact hrunning current hat
      · obtain ⟨hin, hid⟩ := mem_held_of_packetElems h.account.wellFormed hqueued
        exact hdata e hin hid
    rw [packetIn, packetIn, hsame]
  · intro current hat
    exact ⟨hheld _ (h.working current hat).1, (h.working current hat).2⟩
  · intro buffer targetID hat
    rw [h.target buffer targetID hat, packetIn, packetIn]
    exact congrArg (fun content => (Packet.decode content).subProtocolID) (hrunning _ hat).symm
  · intro call hat
    rw [h.last call hat, EndpointCall.command, EndpointCall.command]
    have hsame : state'.pump.data call.ipacket = state.pump.data call.ipacket := hrunning _ hat
    rw [hsame]

/-- A step that leaves the queue and the packets it holds. -/
lemma Handling.of_sameRing {p' : Pump}
    (h : Handling t slot handles owners ⟨p, pc⟩ running packets commands)
    (haccount : Account t PacketId owners' ⟨p', pc⟩) (hring : SameRing p p')
    (hdata : ∀ e ∈ PumpState.held ⟨p, pc⟩, e.id = msgIdGenericProtocolPacketReady →
      p'.data e = p.data e) :
    Handling t slot handles owners' ⟨p', pc⟩ running packets commands := by
  refine h.congr haccount ?_ ?_ hdata
  · exact congrArg packetElems (ahead_of_sameRing (s := ⟨p, pc⟩) hring)
  · intro e he
    exact (held_of_sameRing (s := ⟨p, pc⟩) hring).symm ▸ he

/-- The receiver stores into an element that it owns. -/
lemma Handling.stored {p' : Pump}
    (h : Handling t slot handles owners ⟨p, pc⟩ running packets commands) (he : owners e)
    (hid : e.id = msgIdGenericProtocolPacketReady) (hstored : Stored (pumpPool t) e p p') :
    Handling t slot handles owners ⟨p', pc⟩ running packets commands := by
  -- what has an owner is not in the queue
  have hnot := (h.account.owned e he hid).2
  refine h.of_sameRing (hstored.account h.account) hstored.pump.1 fun e' he' _ => ?_
  exact hstored.data fun heq => hnot (heq ▸ he')

/-- A reset takes an element that the queue does not hold, or leaves the buffer. -/
lemma Handling.reset {buffer : Option Elem} {r : Receiving Pump Elem}
    (h : Handling t slot handles owners ⟨p, pc⟩ running packets commands)
    (hd : t.messageBuffers msgIdGenericProtocolPacketReady = some d)
    (hreset : ResetOutcome (pumpPool t) buffer p r)
    (hbuffer : ∀ e, buffer = some e →
      owners e ∧ e.id = msgIdGenericProtocolPacketReady ∧ e.index < d.msgAmount) :
    ∃ owners', Handling t slot handles owners' ⟨r.world, pc⟩ running packets commands ∧
      ∀ e, r.buffer = some e →
        owners' e ∧ e.id = msgIdGenericProtocolPacketReady ∧ e.index < d.msgAmount := by
  have hget := pumpPool_getFreeBuffer (p := p) hd
  rcases hreset with ⟨buf, w, heq, hstored, hr⟩ | ⟨heq, hr⟩
  · rw [heq] at hget
    have hreserved : Handling t slot handles (fun e => owners e ∨ some buf = some e) ⟨w, pc⟩ running
        packets commands :=
      h.of_sameRing (h.account.getFree rfl hget) hget.sameRing fun e _ _ => congrFun hget.data e
    cases hget with
    | reserved i hi hfree =>
      refine ⟨_, hreserved.stored (Or.inr rfl) rfl hstored, ?_⟩
      intro e he
      rw [hr] at he
      exact ⟨Or.inr he, Option.some.inj he ▸ ⟨rfl, hi⟩⟩
  · rw [heq] at hget
    refine ⟨owners, ?_, fun e he => hbuffer e (hr ▸ he)⟩
    generalize r.world = w at hget
    cases hget with
    | noneFree => exact h

/-- The receiver posts its buffer: the packet comes last, and the queue has the element. -/
lemma Handling.post (h : Handling t slot handles owners ⟨p, pc⟩ running packets commands)
    (hd : t.messageBuffers msgIdGenericProtocolPacketReady = some d) (he : owners e)
    (hid : e.id = msgIdGenericProtocolPacketReady) (hindex : e.index < d.msgAmount) :
    ((pumpPool t).postMessage e p).1 = true ∧
        Handling t slot handles (fun e' => owners e' ∧ e' ≠ e)
          ⟨((pumpPool t).postMessage e p).2, pc⟩ running (packets ++ [packetIn p e]) commands ∨
      (pumpPool t).postMessage e p = (false, p) := by
  obtain ⟨bytes, houtcome⟩ := pumpPool_postMessage hd e p
  have hd' : t.messageBuffers e.id = some d := by rw [hid]; exact hd
  rw [← hid] at houtcome
  rcases h.account.postOwned hid he hd' (BufDescription.pointsTo_pointerTo hindex bytes) houtcome
    with ⟨hok, hroom, haccount⟩ | ⟨heq, -⟩
  · left
    have hring : SameRing p (p.setHeader e .posted) := sameRing_setHeader _ _
    have hwf := h.account.wellFormed
    have hahead : PumpState.ahead slot
        { pump := (p.setHeader e .posted).enqueue (entryOf d e), pc := pc } =
          PumpState.ahead slot ⟨p, pc⟩ ++ [entryOf d e] := ahead_enqueue hwf hring hroom
    have hheld := held_enqueue (m := entryOf d e) hwf hring hroom
    -- the new packet is the last one that was posted and the last one in the queue
    have hnew : packetElems [entryOf d e] = [e] := by
      simp [packetElems, entryOf, hid]
    rw [hok]
    refine ⟨rfl, ?_⟩
    rw [hok] at haccount
    obtain ⟨handled, hpackets, hcommands⟩ := h.history
    refine ⟨haccount, ⟨handled, ?_, hcommands⟩, ?_, h.target, h.last⟩
    · have hmap (elems : List Elem) : (taken running ++ (elems ++ [e])).map (packetIn p) =
          (taken running ++ elems).map (packetIn p) ++ [packetIn p e] := by
        rw [← List.append_assoc, List.map_append]
        rfl
      rw [hahead, packetElems_append, hnew, hpackets, List.append_assoc]
      exact congrArg (handled ++ ·) (hmap _).symm
    · intro current hat
      refine ⟨?_, (h.working current hat).2⟩
      rw [hheld]
      exact List.mem_append_left _ (h.working current hat).1
  · exact Or.inr heq

/-- Another client posts a message: it is not about packets, and it does not touch them. -/
lemma Handling.postOther {id : MsgId} {ptr : Pointer} {d' : BufDescription} {r : Bool × Pump}
    (h : Handling t slot handles owners state running packets commands)
    (hid : id ≠ msgIdGenericProtocolPacketReady) (hd : t.messageBuffers id = some d')
    (hr : PostOutcome d' state.pump id ptr r) :
    Handling t slot handles owners { state with pump := r.2 } running packets commands := by
  have hnone (i : ℕ) : packetElems [entryOf d' ⟨id, i⟩] = [] := by
    rw [packetElems_singleton, if_neg (by exact hid)]
    rfl
  have hwf := h.account.wellFormed
  refine h.congr (h.account.post hid hd hr) ?_ ?_ ?_
  · cases hr with
    | full | misaligned | noneFree => rfl
    | recovered i =>
      exact congrArg packetElems (ahead_of_sameRing (sameRing_setHeader _ _))
    | reserved i hroom =>
      rw [ahead_enqueue hwf (sameRing_setHeader _ _) hroom, packetElems_append, hnone,
        List.append_nil]
    | copied i hroom =>
      rw [ahead_enqueue hwf ((sameRing_setHeader _ _).trans (sameRing_setData _ _)) hroom,
        packetElems_append, hnone, List.append_nil]
  · intro e he
    rcases held_post hwf hr with heq | ⟨i, heq⟩
    · exact heq ▸ he
    · rw [heq]
      exact List.mem_append_left _ he
  · intro e _ he
    exact hr.data_of_ne fun heq => hid (heq ▸ he)

/-- A step of the loop of the pump, when the dispatcher is not running. -/
lemma Handling.dispatch {r : PumpState × Option Call}
    (h : Handling t slot handles owners state none packets commands)
    (hregistered : DispatcherRegistered state.pump.callbackVector slot)
    (hr : DispatchOutcome t state r) :
    Handling t slot handles owners r.1 (r.2.bind (calledDispatcher state.pump)) packets
      commands := by
  have hdata : packetIn r.1.pump = packetIn state.pump := by
    funext e
    rw [packetIn, packetIn, hr.data]
  obtain ⟨handled, hpackets, hcommands⟩ := h.history
  rcases ahead_dispatch hregistered.1 hr with
    ⟨hpc, hahead⟩ | ⟨m, rest, hpc, hqueue, hahead, hstate, hrest, hcall⟩
  · -- the step does not come to the slot of the dispatcher
    have hnone : r.2.bind (calledDispatcher state.pump) = none := by
      rw [Option.bind_eq_none_iff]
      intro call hcall
      obtain ⟨i, m, rest, hpc', hi, -, hcallback, hid, -⟩ := hr.of_call hcall
      unfold calledDispatcher
      rw [if_neg]
      rintro ⟨hdispatcher, hpacket⟩
      rw [← hid, hpacket, hdispatcher] at hcallback
      exact hpc ((hregistered.2 i hi).mp hcallback ▸ hpc')
    rw [hnone]
    refine ⟨h.account.dispatch hr, ⟨handled, ?_, hcommands⟩, nofun, nofun, nofun⟩
    rw [hdata, hahead]
    exact hpackets
  · -- the step comes to it, and calls it if the message is a packet
    have hwf := h.account.wellFormed
    have hcalled : r.2.bind (calledDispatcher state.pump) =
        (if m.id = msgIdGenericProtocolPacketReady then m.buffer else none).map .entered := by
      rw [hcall]
      by_cases hid : m.id = msgIdGenericProtocolPacketReady
      · rw [hid, (hregistered.2 slot hregistered.1).mpr rfl, if_pos rfl]
        simp only [Option.map_some, Option.bind_some, calledDispatcher, and_self, if_true]
        rw [hwf.ring.front_eq hqueue]
      · rw [if_neg hid]
        cases state.pump.callbackVector m.id slot with
        | none => rfl
        | some callback => simp [calledDispatcher, hid]
    have hfront : packetElems (state.ahead slot) =
        (if m.id = msgIdGenericProtocolPacketReady then m.buffer else none).toList ++
          packetElems rest := by
      rw [hahead, ← packetElems_singleton, ← packetElems_append]
      rfl
    have hin (e : Elem)
        (he : (if m.id = msgIdGenericProtocolPacketReady then m.buffer else none) = some e) :
        e ∈ packetElems (state.ahead slot) := by
      rw [hfront, he]
      exact List.mem_cons_self
    have hheld : r.1.held = state.held := by
      rw [hstate]
      exact held_of_queue_eq rfl (by rw [hpc]; simp) (by simp)
    rw [hcalled]
    refine ⟨h.account.dispatch hr, ⟨handled, ?_, hcommands⟩, ?_, ?_, ?_⟩
    · rw [hdata, hrest, hpackets, hfront]
      generalize (if m.id = msgIdGenericProtocolPacketReady then m.buffer else none) = buffer
      cases buffer <;> rfl
    · intro current hcurrent
      obtain ⟨e, he, rfl⟩ := Option.map_eq_some_iff.mp hcurrent
      rw [hheld]
      exact mem_held_of_packetElems hwf (hin e he)
    · intro buffer targetID hcurrent
      obtain ⟨e, -, he⟩ := Option.map_eq_some_iff.mp hcurrent
      cases he
    · intro call hcurrent
      obtain ⟨e, -, he⟩ := Option.map_eq_some_iff.mp hcurrent
      cases he

/-- A step of the dispatcher: when it has found the endpoint, the packet has become a command. -/
lemma Handling.runDispatcher {s : Commands} {current : DispatcherPc}
    (h : Handling t slot handles owners s.reception.pumpState s.running packets s.commands)
    (hcurrent : s.running = some current) :
    Handling t slot handles owners s.reception.pumpState
      (GenericProtocol.runDispatcher handles s current).running packets
      (GenericProtocol.runDispatcher handles s current).commands := by
  obtain ⟨handled, hpackets, hcommands⟩ := h.history
  have hworking := h.working current hcurrent
  rw [hcurrent] at hpackets
  cases current with
  | entered buffer =>
    refine ⟨h.account, ⟨handled, hpackets, hcommands⟩, ?_, ?_, nofun⟩
    · intro current hsome
      obtain rfl := Option.some.inj hsome
      exact hworking
    · intro buffer' targetID hsome
      cases Option.some.inj hsome
      rfl
  -- here the packet leaves `taken`: it becomes a command if an endpoint has its id
  | searching buffer targetID =>
    have hpacket : { packetIn s.pump buffer with subProtocolID := targetID } =
        packetIn s.pump buffer := by
      rw [h.target buffer targetID hcurrent]
      rfl
    have hcommand := command_onReceivedPacket handles s.pump buffer
    have hpackets' : packets = (handled ++ [packetIn s.pump buffer]) ++
        (taken none ++ packetElems (s.reception.pumpState.ahead slot)).map
          (packetIn s.reception.pumpState.pump) := by
      rw [hpackets, List.append_assoc]
      rfl
    unfold GenericProtocol.runDispatcher
    dsimp only
    rw [hpacket]
    split
    · rename_i call hcall
      have hipacket : call.ipacket = buffer := by
        simp only [onReceivedPacket, if_true] at hcall
        obtain ⟨handle, -, rfl⟩ := Option.map_eq_some_iff.mp hcall
        rfl
      rw [hcall] at hcommand
      refine ⟨h.account, ⟨_, hpackets', ?_⟩, ?_, nofun, ?_⟩
      · rw [List.filterMap_append, hcommands, List.filterMap_cons, ← hcommand]
        rfl
      · intro current hsome
        obtain rfl := Option.some.inj hsome
        show call.ipacket ∈ _ ∧ call.ipacket.id = _
        rw [hipacket]
        exact hworking
      · intro call' hsome
        cases Option.some.inj hsome
        rw [List.getLast?_concat]
        rfl
    · rename_i hnone
      rw [hnone] at hcommand
      refine ⟨h.account, ⟨_, hpackets', ?_⟩, nofun, nofun, nofun⟩
      rw [List.filterMap_append, hcommands, List.filterMap_cons, ← hcommand]
      simp
  | calling call => exact ⟨h.account, ⟨handled, hpackets, hcommands⟩, nofun, nofun, nofun⟩

/-! ## A received byte -/

/-- A received byte adds what it posts to the packets, and touches nothing that the queue holds. -/
lemma Handling.receive {receiving : Receiving Pump Elem} {b : UInt8}
    {r : Receiving Pump Elem × List Effect}
    (h : Handling t slot handles owners ⟨receiving.world, pc⟩ running packets commands)
    (hd : t.messageBuffers msgIdGenericProtocolPacketReady = some d)
    (hbuffer : ∀ e, receiving.buffer = some e →
      owners e ∧ e.id = msgIdGenericProtocolPacketReady ∧ e.index < d.msgAmount)
    (hout : ByteOutcome (pumpPool t) receiving b r) :
    ∃ owners', Handling t slot handles owners' ⟨r.1.world, pc⟩ running (packets ++ posted r.2)
        commands ∧
      ∀ e, r.1.buffer = some e →
        owners' e ∧ e.id = msgIdGenericProtocolPacketReady ∧ e.index < d.msgAmount := by
  cases hout with
  | kept buf hbuf hend hr hw hquiet =>
    obtain ⟨howner, hid, -⟩ := hbuffer buf hbuf
    rw [posted_eq_nil hquiet, List.append_nil]
    refine ⟨owners, h.stored howner hid hw, fun e he => ?_⟩
    rw [hr, ← hbuf] at he
    exact hbuffer e he
  | acquired hbuf hreset hquiet =>
    rw [posted_eq_nil hquiet, List.append_nil]
    exact h.reset hd hreset nofun
  | ended buf w result hbuf hend hw hpost hreset heffects =>
    obtain ⟨howner, hid, hindex⟩ := hbuffer buf hbuf
    have hstored := h.stored howner hid hw
    subst hpost
    -- a packet that is refused stays with the receiver, which keeps its buffer
    rcases hstored.post hd howner hid hindex with ⟨hok, hposted⟩ | hrefused
    · rw [hok, if_pos rfl] at hreset
      have hpacket : posted r.2 = [packetIn w buf] := by
        rw [heffects, hok]
        rfl
      rw [hpacket]
      exact hposted.reset hd hreset nofun
    · rw [hrefused] at hreset
      have hnone : posted r.2 = [] := by
        rw [heffects, hrefused]
        rfl
      rw [hnone, List.append_nil]
      refine hstored.reset hd hreset fun e he => ?_
      obtain rfl := Option.some.inj he
      exact ⟨howner, hid, hindex⟩

/-- The receiver registers and unregisters nothing. -/
lemma ByteOutcome.callbackVector {receiving : Receiving Pump Elem} {b : UInt8}
    {r : Receiving Pump Elem × List Effect} (h : ByteOutcome (pumpPool t) receiving b r)
    (hd : t.messageBuffers msgIdGenericProtocolPacketReady = some d) :
    r.1.world.callbackVector = receiving.world.callbackVector := by
  cases h with
  | kept buf _ _ _ hw => exact hw.callbackVector
  | acquired _ hreset => exact hreset.callbackVector hd
  | ended buf w result _ _ hw hpost hreset =>
    obtain ⟨bytes, houtcome⟩ := pumpPool_postMessage hd buf w
    rw [hpost] at houtcome
    exact (hreset.callbackVector hd).trans (houtcome.callbackVector.trans hw.callbackVector)

/-- A byte ends at most one frame. -/
lemma ByteOutcome.length_posted {σ Ref : Type} {pool : PacketPool σ Ref} {receiving : Receiving σ Ref}
    {b : UInt8} {r : Receiving σ Ref × List Effect} (h : ByteOutcome pool receiving b r) :
    (posted r.2).length ≤ 1 := by
  cases h with
  | kept _ _ _ _ _ hquiet => simp [posted_eq_nil hquiet]
  | acquired _ _ hquiet => simp [posted_eq_nil hquiet]
  | ended buf w result _ _ _ _ _ heffects =>
    rw [heffects]
    exact List.length_filterMap_le _ _

/-- The receiver does not notice what happens outside its buffer. -/
lemma Tracking.setWorld {hist : List UInt8} {receiving : Receiving Pump Elem} {p' : Pump}
    (h : Tracking (pumpPool t) hist receiving)
    (hdata : ∀ e, receiving.buffer = some e → p'.data e = receiving.world.data e) :
    Tracking (pumpPool t) hist { receiving with world := p' } := by
  have hread (e : Elem) (he : receiving.buffer = some e) :
      (pumpPool t).read e p' = (pumpPool t).read e receiving.world :=
    congrArg Packet.decode (hdata e he)
  rcases h with h | ⟨front, w, hhist, hw, h⟩ | ⟨front, w, hhist, hw, hlen, h⟩
  · exact .outOfFrame ⟨h.mode, h.count⟩
  · exact .payload front w hhist hw
      ⟨h.buffer, h.mode, h.count, h.checkSum, hread _ h.buffer ▸ h.holds⟩
  · exact .escape front w hhist hw hlen
      ⟨h.buffer, h.mode, h.count, h.checkSum, hread _ h.buffer ▸ h.holds⟩

/-! ## All runs -/

/-- The frame that a packet was posted for. -/
def frameOf (post : ℕ × Packet) : FoundFrame :=
  { position := post.1, id := post.2.subProtocolID, payload := post.2.payload }

/-- The packet was posted for a frame of the stream, on this interface. -/
structure PostedFor (i_interface : UInt8) (stream : List UInt8) (post : ℕ × Packet) : Prop where
  found : (frameOf post).In stream
  length_le : post.2.payload.length ≤ 125
  payloadLen : post.2.payloadLen.toNat = post.2.payload.length
  interface : post.2.interface = i_interface

variable {s s' : Commands} {callbackVector : MsgId → ℕ → Option Callback}
  {data : Elem → List UInt8}

/-- The invariant: the posted packets are frames of the stream, in order, and they are on their way. -/
structure CommandInv (t : BufTable) (d : BufDescription) (slot : ℕ) (handles : List EndpointHandle)
    (i_interface : UInt8) (s : Commands) : Prop where
  handling : ∃ owners, Handling t slot handles owners s.reception.pumpState s.running
      (s.posted.map Prod.snd) s.commands ∧
    ∀ e, s.reception.receiving.buffer = some e →
      owners e ∧ e.id = msgIdGenericProtocolPacketReady ∧ e.index < d.msgAmount
  registered : DispatcherRegistered s.pump.callbackVector slot
  tracking : Tracking (pumpPool t) s.received s.reception.receiving
  frames : ∀ post ∈ s.posted, PostedFor i_interface s.received post
  order : s.posted.Pairwise fun post post' => post.1 < post'.1

/-- A step that receives nothing, and leaves the data of the packets. -/
lemma CommandInv.other {q : PumpState} {running' : Option DispatcherPc} {commands' : List Command}
    (h : CommandInv t d slot handles i_interface s)
    (hhandling : ∀ owners, Handling t slot handles owners s.reception.pumpState s.running
        (s.posted.map Prod.snd) s.commands →
      Handling t slot handles owners q running' (s.posted.map Prod.snd) commands')
    (hcallbacks : q.pump.callbackVector = s.pump.callbackVector)
    (hdata : ∀ e, e.id = msgIdGenericProtocolPacketReady → q.pump.data e = s.pump.data e) :
    CommandInv t d slot handles i_interface
      { s with reception := s.reception.setPump q, running := running', commands := commands' } := by
  obtain ⟨owners, hown, hbuffer⟩ := h.handling
  refine ⟨⟨owners, hhandling owners hown, hbuffer⟩, ?_, ?_, h.frames, h.order⟩
  · show DispatcherRegistered q.pump.callbackVector slot
    rw [hcallbacks]
    exact h.registered
  · exact h.tracking.setWorld fun e he => hdata e (hbuffer e he).2.1

/-- A received byte. -/
lemma CommandInv.receive (h : CommandInv t d slot handles i_interface s)
    (hd : t.messageBuffers msgIdGenericProtocolPacketReady = some d) (b : UInt8)
    (hstep : commandStep t i_interface handles s (.reception (.receive b)) = some s') :
    CommandInv t d slot handles i_interface s' := by
  obtain rfl := Option.some.inj hstep
  have hlawful := pumpPool_lawful t
  -- the frame, the stores and the callbacks of one byte
  have hout := receiveByte_outcome hlawful i_interface s.reception.receiving b
  obtain ⟨htracking, hframes⟩ := h.tracking.step i_interface hlawful b
  have hcallbacks := hout.callbackVector hd
  obtain ⟨owners, hown, hbuffer⟩ := h.handling
  obtain ⟨owners', hown', hbuffer'⟩ := hown.receive hd hbuffer hout
  -- what is posted now is the frame that this byte ends
  have hnew (packet : Packet)
      (hpacket : packet ∈ posted (receiveByte (pumpPool t) i_interface s.reception.receiving b).2) :
      PostedFor i_interface (s.received ++ [b]) (s.received.length, packet) := by
    obtain ⟨rfl, ⟨front, w, hhist, hbody⟩, hlen, hinterface⟩ :=
      hframes packet ((posted_sublist_handedOver _).subset hpacket)
    refine ⟨⟨front, w, [], by rw [hhist], ?_, hbody⟩, hbody.length_le, hlen, hinterface⟩
    show s.received.length = _
    rw [hhist]
  refine ⟨⟨owners', ?_, hbuffer'⟩, ?_, htracking, ?_, ?_⟩
  · dsimp only
    rw [List.map_append, List.map_map, show Prod.snd ∘ (fun packet => (s.received.length, packet)) =
      (id : Packet → Packet) from rfl, List.map_id]
    exact hown'
  · have hregistered := h.registered
    unfold Commands.pump at hregistered ⊢
    rw [hcallbacks]
    exact hregistered
  · intro post hpost
    rcases List.mem_append.mp hpost with hold | hpost
    · have hfor := h.frames post hold
      exact ⟨hfor.found.append [b], hfor.length_le, hfor.payloadLen, hfor.interface⟩
    · obtain ⟨packet, hpacket, rfl⟩ := List.mem_map.mp hpost
      exact hnew packet hpacket
  · dsimp only
    rw [List.pairwise_append]
    refine ⟨h.order, ?_, ?_⟩
    · have hone := hout.length_posted
      rw [List.pairwise_map]
      generalize posted (receiveByte (pumpPool t) i_interface s.reception.receiving b).2 = new at hone
      match new with
      | [] => exact .nil
      | [packet] => exact List.pairwise_singleton _ _
    · -- the frames of earlier posts end before this byte
      intro post hold post' hpost
      obtain ⟨packet, -, rfl⟩ := List.mem_map.mp hpost
      exact (h.frames post hold).found.position_lt

/-- What another client of the message pump does. -/
lemma CommandInv.client {a : ReceptionAction} {reception : Reception}
    (h : CommandInv t d slot handles i_interface s) (hreceive : ∀ b, a ≠ .receive b)
    (hdispatch : a ≠ .dispatch) (hstep : receptionStep t i_interface s.reception a = some reception) :
    CommandInv t d slot handles i_interface { s with reception := reception } := by
  obtain ⟨owners, hown, -⟩ := h.handling
  cases moves_of_receptionStep hown.account.wellFormed hstep with
  | receive b => exact absurd rfl (hreceive b)
  | dispatch => exact absurd rfl hdispatch
  | post id ptr d' r hid hd' hr =>
    exact h.other (fun _ hown => hown.postOther hid hd' hr) hr.callbackVector
      fun e he => hr.data_of_ne fun heq => hid (heq ▸ he)
  | getFreeBuffer id d' r hid hr =>
    exact h.other (fun _ hown => hown.of_sameRing (hown.account.getFreeOther hid hr)
        hr.sameRing fun e _ _ => congrFun hr.data e)
      hr.callbackVector fun e _ => congrFun hr.data e
  | lock e hid =>
    have hdata := lockMessage_data (p := s.reception.receiving.world) (some e)
    exact h.other (fun _ hown => hown.of_sameRing (hown.account.lockOther hid)
        (sameRing_lockMessage _) fun e _ _ => congrFun hdata e)
      (lockMessage_callbackVector _) fun e _ => congrFun hdata e
  | unlock e hid =>
    have hdata := unlockMessage_data (p := s.reception.receiving.world) (some e)
    exact h.other (fun _ hown => hown.of_sameRing (hown.account.unlockOther hid)
        (sameRing_unlockMessage _) fun e _ _ => congrFun hdata e)
      (unlockMessage_callbackVector _) fun e _ => congrFun hdata e
  | stay => exact h

/-- Every step keeps the invariant. -/
theorem CommandInv.step {a : CommandAction} (h : CommandInv t d slot handles i_interface s)
    (hd : t.messageBuffers msgIdGenericProtocolPacketReady = some d)
    (hstep : commandStep t i_interface handles s a = some s') :
    CommandInv t d slot handles i_interface s' := by
  cases a with
  | reception a =>
    cases a with
    | receive b => exact h.receive hd b hstep
    | dispatch =>
      simp only [commandStep] at hstep
      split at hstep
      · cases hstep
      rename_i hidle
      have hnone : s.running = none := by simpa using hidle
      obtain ⟨owners, hown, -⟩ := h.handling
      obtain ⟨r, hr, houtcome⟩ := dispatch_outcome hown.account.wellFormed
      rw [hr] at hstep
      obtain rfl := Option.some.inj hstep
      refine h.other (fun _ hown => ?_) houtcome.callbackVector fun e _ => congrFun houtcome.data e
      rw [hnone] at hown
      exact hown.dispatch h.registered houtcome
    | post | getFreeBuffer | lock | unlock =>
      obtain ⟨reception, hreception, rfl⟩ := Option.map_eq_some_iff.mp hstep
      exact h.client (by simp) (by simp) hreception
  | write e content =>
    simp only [commandStep] at hstep
    split at hstep
    · cases hstep
    · rename_i hid
      obtain rfl := Option.some.inj hstep
      -- the clients write into elements of other pools
      have hdata (e' : Elem) (he' : e'.id = msgIdGenericProtocolPacketReady) :
          (s.pump.setData e content).data e' = s.pump.data e' := by
        rw [Pump.setData_data, Function.update_of_ne]
        exact fun heq => hid (heq ▸ he')
      exact h.other (fun _ hown => hown.of_sameRing
          (hown.account.of_sameRing (sameRing_setData _ _) fun _ _ => rfl)
          (sameRing_setData _ _) fun e' _ he' => hdata e' he')
        rfl hdata
  | runDispatcher =>
    obtain ⟨current, hcurrent, rfl⟩ := Option.map_eq_some_iff.mp hstep
    have hother := h.other (fun _ hown => hown.runDispatcher hcurrent) rfl fun _ _ => rfl
    cases current with
    | entered | calling => exact hother
    | searching buffer targetID =>
      unfold runDispatcher at hother ⊢
      dsimp only at hother ⊢
      split at hother <;> exact hother

lemma commandInv_start (hd : t.messageBuffers msgIdGenericProtocolPacketReady = some d)
    (hregistered : DispatcherRegistered callbackVector slot) :
    CommandInv t d slot handles i_interface
      (commandStart t i_interface callbackVector data) := by
  have hreset := resetBuffer_outcome (pumpPool t) i_interface
    (zeroed (initial callbackVector data).pump)
  have hinitial : Handling t slot handles (fun _ => False)
      ⟨(initial callbackVector data).pump, .waiting⟩ none [] [] :=
    ⟨account_initial callbackVector data, ⟨[], rfl, rfl⟩, nofun, nofun, nofun⟩
  refine ⟨hinitial.reset hd hreset nofun, ?_, .outOfFrame (resetBuffer_outOfFrame i_interface), nofun,
    .nil⟩
  have hcallbacks := hreset.callbackVector hd
  unfold Commands.pump
  rw [show (commandStart t i_interface callbackVector data).reception.receiving.world.callbackVector =
    callbackVector from hcallbacks]
  exact hregistered

/-- The command in a posted packet is for the frame it was posted for. -/
lemma PostedFor.command {stream : List UInt8} {post : ℕ × Packet} {c : Command}
    (h : PostedFor i_interface stream post)
    (hdistinct : (handles.map EndpointHandle.endpointIdentifier).Nodup)
    (hc : post.2.command handles = some c) : c.IsFor handles i_interface (frameOf post) := by
  obtain ⟨handle, hfound, rfl⟩ := Option.map_eq_some_iff.mp hc
  have hmem := List.mem_of_find?_eq_some hfound
  have hid : post.2.subProtocolID = handle.endpointIdentifier := by
    simpa using List.find?_some hfound
  refine ⟨⟨handle, hmem, hid.symm, rfl, fun other hother heq => ?_⟩, rfl, h.payloadLen, h.length_le,
    h.interface⟩
  exact List.inj_on_of_nodup_map hdistinct hother hmem (heq.trans hid)

/-- The commands in posted packets are for some of their frames, in order. -/
lemma exists_frames {stream : List UInt8}
    (hdistinct : (handles.map EndpointHandle.endpointIdentifier).Nodup) {posts : List (ℕ × Packet)}
    (hposts : ∀ post ∈ posts, PostedFor i_interface stream post) :
    ∃ frames, frames.Sublist (posts.map frameOf) ∧
      List.Forall₂ (Command.IsFor handles i_interface)
        ((posts.map Prod.snd).filterMap (Packet.command handles)) frames := by
  induction posts with
  | nil => exact ⟨[], .slnil, .nil⟩
  | cons post posts ih =>
    obtain ⟨frames, hsublist, hfor⟩ := ih fun post' hpost' =>
      hposts post' (List.mem_cons_of_mem post hpost')
    rw [List.map_cons, List.map_cons]
    cases hc : post.2.command handles with
    -- no endpoint has the id of this packet, and its frame is left out
    | none =>
      rw [List.filterMap_cons_none hc]
      exact ⟨frames, hsublist.cons _, hfor⟩
    | some c =>
      rw [List.filterMap_cons_some hc]
      exact ⟨frameOf post :: frames, hsublist.cons_cons _,
        .cons ((hposts post List.mem_cons_self).command hdistinct hc) hfor⟩

/-- In every state of a run the endpoint calls so far are, one for one and in order, for frames that
the grammar finds in the bytes received so far: each is a call of the endpoint with the id of the
frame, with its payload, its length and the receiving interface. And as long as an endpoint runs, the
packet stays as it was at the call, whatever is received in the meantime. -/
theorem commands_reach_endpoints (as : List CommandAction)
    (hd : t.messageBuffers msgIdGenericProtocolPacketReady = some d)
    (hregistered : ∃ slot, DispatcherRegistered callbackVector slot)
    (hdistinct : (handles.map EndpointHandle.endpointIdentifier).Nodup)
    (h : exec (commandStep t i_interface handles)
      (commandStart t i_interface callbackVector data) as = some s) :
    (∃ frames : List FoundFrame, (frames.Pairwise fun f f' => f.position < f'.position) ∧
      (∀ f ∈ frames, f.In s.received) ∧
      List.Forall₂ (Command.IsFor handles i_interface) s.commands frames) ∧
    ∀ call, s.running = some (.calling call) → s.commands.getLast? = some (call.command s.pump) := by
  obtain ⟨slot, hregistered⟩ := hregistered
  have hinv : CommandInv t d slot handles i_interface s :=
    exec_induction _ (fun s a s' hs hstep => hs.step hd hstep) (commandInv_start hd hregistered) h
  obtain ⟨owners, hown, -⟩ := hinv.handling
  refine ⟨?_, hown.last⟩
  obtain ⟨handled, hpackets, hcommands⟩ := hown.history
  -- the packets that were handed to the dispatcher are the first that were posted
  have hhandled : (s.posted.take handled.length).map Prod.snd = handled := by
    rw [List.map_take, hpackets, List.take_left']
    rfl
  have hposts : ∀ post ∈ s.posted.take handled.length, PostedFor i_interface s.received post :=
    fun post hpost => hinv.frames post (List.mem_of_mem_take hpost)
  obtain ⟨frames, hsublist, hfor⟩ := exists_frames hdistinct hposts
  rw [hhandled, ← hcommands] at hfor
  have hsublist' : frames.Sublist (s.posted.map frameOf) :=
    hsublist.trans ((List.take_sublist _ _).map frameOf)
  have horder : (s.posted.map frameOf).Pairwise fun f f' => f.position < f'.position :=
    List.pairwise_map.mpr hinv.order
  refine ⟨frames, horder.sublist hsublist', fun f hf => ?_, hfor⟩
  obtain ⟨post, hpost, rfl⟩ := List.mem_map.mp (hsublist'.subset hf)
  exact (hinv.frames post hpost).found

/-- The dispatcher is the only callback. -/
def onlyDispatcher (id : MsgId) (i : ℕ) : Option Callback :=
  if id = msgIdGenericProtocolPacketReady ∧ i = 0 then some onReceivedPacketMsgPumpCallback else none

/-- A frame with id 1 and payload 5; while its endpoint runs another one is received. -/
def receiveWhileCalled : List CommandAction :=
  List.flatten
    [[packetCharBeginning, 1, 5, 0xfa, packetCharEnd].map fun b => .reception (.receive b),
      [.reception .dispatch, .reception .dispatch, .runDispatcher, .runDispatcher],
      emptyFrame.map fun b => .reception (.receive b)]

theorem commands_reach_endpoints_receiveWhileCalled :
    ∃ s, exec (commandStep firmware 0 [⟨2, 8⟩, ⟨1, 7⟩])
        (commandStart firmware 0 onlyDispatcher fun _ => []) receiveWhileCalled = some s ∧
      s.commands = [⟨7, [5], 1, 0⟩] ∧
      (∃ frames : List FoundFrame, (frames.Pairwise fun f f' => f.position < f'.position) ∧
        (∀ f ∈ frames, f.In s.received) ∧
        List.Forall₂ (Command.IsFor [⟨2, 8⟩, ⟨1, 7⟩] 0) s.commands frames) ∧
      ∀ call, s.running = some (.calling call) →
        s.commands.getLast? = some (call.command s.pump) := by
  have hrun : (exec (commandStep firmware 0 [⟨2, 8⟩, ⟨1, 7⟩])
      (commandStart firmware 0 onlyDispatcher fun _ => []) receiveWhileCalled).map
        (fun s => s.commands) = some [⟨7, [5], 1, 0⟩] := by decide +kernel
  obtain ⟨s, hs, hcommands⟩ := Option.map_eq_some_iff.mp hrun
  exact ⟨s, hs, hcommands, commands_reach_endpoints receiveWhileCalled lookup_packetReady
    ⟨0, by decide +kernel⟩ (by decide) hs⟩

end Pump

end Powerboard.GenericProtocol
