import Powerboard.Protocol.StreamTheorems

/-!
# Resynchronisation

Any bytes may have come before a stream of messages: the receiver may be inside a frame, and right
after an escape character, so that the first frame start is taken for data. From the next byte on it
takes the escape pairs of the sender for what they are (`InStep`), so the first frame end is a frame
end for it, and what comes after that is received like any stream of messages.
-/

namespace Powerboard.GenericProtocol

open Machine Stuffing

section InStep
variable {σ Ref : Type} {pool : PacketPool σ Ref} (i_interface : UInt8) {s : Receiving σ Ref}
  {hist : List UInt8}

/-- The receiver is not between the two bytes of an escape pair. -/
inductive InStep (pool : PacketPool σ Ref) (s : Receiving σ Ref) : Prop
  | outOfFrame (h : OutOfFrame s)
  | collecting {buf : Ref} {d : List UInt8} {sum : UInt8}
      (h : Collecting pool s buf .receivingPayload d sum)

lemma Behind.inStep {q : List UInt8} (h : Behind pool q s) : InStep pool s := by
  rcases h with h | h | ⟨_, _, _, h⟩
  · exact .outOfFrame h
  · exact .collecting h
  · exact .collecting h

/-- After a frame start, honoured or not, the receiver is in step. -/
lemma Tracking.beginning (hp : pool.Lawful) (h : Tracking pool hist s) :
    InStep pool (receiveByte pool i_interface s packetCharBeginning).1 := by
  rcases (h.step i_interface hp packetCharBeginning).1 with
      h | ⟨_, _, _, _, h⟩ | ⟨front, w, hhist, -⟩
  · exact .outOfFrame h
  · exact .collecting h
  · -- the last byte was not an escape character
    have hlast := congrArg List.getLast? hhist
    rw [← List.cons_append, ← List.append_assoc, List.getLast?_concat, List.getLast?_concat] at hlast
    exact absurd (Option.some.inj hlast) (by decide)

lemma InStep.stuffed_byte (hp : pool.Lawful) (h : InStep pool s) (b : UInt8) :
    InStep pool (receiveIndication pool i_interface s (stuffed [b])).1 := by
  rcases h with h | h
  · exact (h.stuffed_byte i_interface (q := []) b).1.inStep
  · rcases (h.stuffed_byte i_interface (q := []) hp b).1 with hc | hbehind
    · exact .collecting hc
    · exact hbehind.inStep

/-- In step, the receiver stays in step with the sender. -/
lemma InStep.stuffed (hp : pool.Lawful) (h : InStep pool s) (d : List UInt8) :
    InStep pool (receiveIndication pool i_interface s (stuffed d)).1 := by
  induction d generalizing s with
  | nil => exact h
  | cons b d ih =>
    rw [stuffed_cons, receiveIndication_append]
    exact ih (h.stuffed_byte i_interface hp b)

/-- In step, the end of a message is the end of the frame. -/
lemma InStep.tail (hp : pool.Lawful) (h : InStep pool s) (c : UInt8) :
    OutOfFrame (receiveIndication pool i_interface s (sendChecksum c ++ [packetCharEnd])).1 := by
  rcases h with h | h
  · rw [receiveIndication_append, receiveIndication_singleton]
    have hchecksum := (h.checksum i_interface pool c).1
    exact (hchecksum.other i_interface pool (by decide)).1
  · exact (h.tail i_interface hp c).1

/-- After a whole message the receiver is out of frame, wherever it was before. -/
lemma Tracking.message (hp : pool.Lawful) (h : Tracking pool hist s) (m : Message) :
    OutOfFrame (receiveIndication pool i_interface s m.wire).1 := by
  have hwire : m.wire = packetCharBeginning :: (stuffed (m.subProtocolID :: m.payload) ++
      (sendChecksum (stuffed (m.subProtocolID :: m.payload)).sum ++ [packetCharEnd])) := by
    rw [m.wire_eq, frameBody]
    simp
  rw [hwire, receiveIndication_cons, receiveIndication_append]
  have hbody := (h.beginning i_interface hp).stuffed i_interface hp (m.subProtocolID :: m.payload)
  exact hbody.tail i_interface hp _

end InStep

/-! ## Enough buffers and queue slots -/

section Plentiful
variable (i_interface : UInt8) {s t : Receiving Pattern ℕ}

/-- There is a buffer, and there will be a buffer and a queue slot whenever one is needed. -/
structure Plentiful (s : Receiving Pattern ℕ) : Prop where
  buffer : s.buffer.isSome
  available : ∀ n, (s.world.available n).isSome
  accepted : ∀ n, s.world.accepted n = true

lemma Plentiful.same (h : Plentiful s) (hst : SameSupply s t) : Plentiful t :=
  ⟨hst.buffer ▸ h.buffer, hst.available ▸ h.available, hst.accepted ▸ h.accepted⟩

lemma Plentiful.next {buf : ℕ} (h : Plentiful s) (hst : NextSupply buf s t) : Plentiful t where
  buffer := by
    rw [hst.buffer, Option.isSome_or, h.available]
    rfl
  available n := by
    rw [hst.available]
    exact h.available (n + 1)
  accepted n := by
    rw [hst.accepted]
    exact h.accepted (n + 1)

lemma Plentiful.run (h : Plentiful s) (bytes : List UInt8) :
    Plentiful (receiveIndication patternPool i_interface s bytes).1 := by
  induction bytes generalizing s with
  | nil => exact h
  | cons b bytes ih =>
    obtain ⟨buf, hbuf⟩ := Option.isSome_iff_exists.mp h.buffer
    rw [receiveIndication_cons]
    rcases receiveByte_supply i_interface (b := b) hbuf with ⟨hsame, -⟩ | ⟨hnext, -⟩
    · exact ih (h.same hsame)
    · exact ih (h.next hnext)

lemma plentiful_init {world : Pattern} (havailable : ∀ n, (world.available n).isSome)
    (haccepted : ∀ n, world.accepted n = true) :
    Plentiful (init patternPool i_interface world) := by
  obtain ⟨hbuffer, havail, haccept⟩ := resetBuffer_supply i_interface (zeroed world)
  refine ⟨?_, fun n => ?_, fun n => ?_⟩
  · rw [init, hbuffer, Option.isSome_or, Bool.or_eq_true]
    exact Or.inl (havailable 0)
  · rw [init, havail]
    exact havailable (n + 1)
  · rw [init, haccept]
    exact haccepted n

/-- The packet is what is sent as the message, received on this interface. -/
structure Packet.Carries (p : Packet) (m : Message) : Prop where
  content : p.message = m.content
  payloadLen : p.payloadLen.toNat = m.payload.length
  interface : p.interface = i_interface

/-- Out of frame and with buffers, the receiver posts the messages, and nothing else. -/
lemma OutOfFrame.posts_messages (ho : OutOfFrame s) (h : Plentiful s) (msgs : List Message)
    (hlen : ∀ m ∈ msgs, m.payload.length ≤ 125) :
    List.Forall₂ (Packet.Carries i_interface)
      (posted (receiveIndication patternPool i_interface s (msgs.flatMap Message.wire)).2) msgs := by
  induction msgs generalizing s with
  | nil => exact .nil
  | cons m msgs ih =>
    obtain ⟨buf, hbuf⟩ := Option.isSome_iff_exists.mp h.buffer
    obtain ⟨p, hp⟩ := exists_delivered i_interface hbuf ho.mode_ne
      (isFrameBody_frameBody m.subProtocolID m.payload (hlen m List.mem_cons_self))
    have hposted := hp.posted
    rw [← m.wire_eq, h.accepted, if_pos rfl] at hposted
    have ho' := (ho.message i_interface patternPool_lawful m).1
    rw [List.flatMap_cons, receiveIndication_append, posted_append, hposted]
    exact .cons ⟨hp.message, hp.payloadLen, hp.interface⟩
      (ih ho' (h.run i_interface m.wire) fun m' hm' => hlen m' (List.mem_cons_of_mem m hm'))

end Plentiful

/-- The receiver resynchronises after at most one frame. With a buffer and a queue slot whenever one
is needed, after any bytes and a first message the packets posted last are the other messages, in
order. -/
theorem resynchronises_after_one_frame (i_interface : UInt8) (world : Pattern)
    (havailable : ∀ n, (world.available n).isSome) (haccepted : ∀ n, world.accepted n = true)
    (garbage : List UInt8) (first : Message) (others : List Message)
    (hlen : ∀ m ∈ first :: others, m.payload.length ≤ 125) :
    ∃ before after, posted (receiveIndication patternPool i_interface
        (init patternPool i_interface world)
        (garbage ++ (first :: others).flatMap Message.wire)).2 = before ++ after ∧
      List.Forall₂ (Packet.Carries i_interface) after others := by
  have htracking := tracking_receiveIndication i_interface patternPool_lawful world garbage
  have hplenty := (plentiful_init i_interface havailable haccepted).run i_interface
    (garbage ++ first.wire)
  have ho : OutOfFrame (receiveIndication patternPool i_interface
      (init patternPool i_interface world) (garbage ++ first.wire)).1 := by
    rw [receiveIndication_append]
    exact htracking.message i_interface patternPool_lawful first
  rw [List.flatMap_cons, ← List.append_assoc, receiveIndication_append, posted_append]
  exact ⟨_, _, rfl, ho.posts_messages i_interface hplenty others fun m hm =>
    hlen m (List.mem_cons_of_mem first hm)⟩

/-- The start of the first message follows an escape character inside a frame. -/
theorem resynchronises_after_one_frame_swallowedStart :
    ∃ before after, posted (receiveIndication patternPool 0 (init patternPool 0 Pattern.unlimited)
        ([packetCharBeginning, 1, packetCharEscape] ++
          [Message.mk 2 [3] (by decide), ⟨4, [packetCharEnd], by decide⟩].flatMap Message.wire)).2 =
        before ++ after ∧
      List.Forall₂ (Packet.Carries 0) after [⟨4, [packetCharEnd], by decide⟩] :=
  resynchronises_after_one_frame 0 Pattern.unlimited (fun _ => rfl) (fun _ => rfl)
    [packetCharBeginning, 1, packetCharEscape] ⟨2, [3], by decide⟩ [⟨4, [packetCharEnd], by decide⟩]
    (by simp)

end Powerboard.GenericProtocol
