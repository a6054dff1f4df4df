import Powerboard.Protocol.ResyncTheorems

/-!
# The receiver follows the sender

A receiver that always finds a buffer and a queue slot is where the sender is: between two messages it
is out of frame, and inside of one it has collected what was sent of it. So it posts the messages and
nothing else, whatever happens to its world between two bytes.
-/

namespace Powerboard.Link

open GenericProtocol Stuffing

variable {σ Ref : Type} {pool : PacketPool σ Ref} (i_interface : UInt8) {s : Receiving σ Ref}
  {b id : UInt8} {payload hist rest : List UInt8} {messages : List Message} {packets : List Packet}

/-! ## Inside of a frame -/

/-- The receiver is inside of the frame with this id and payload, and the rest is to come. -/
inductive Inside (pool : PacketPool σ Ref) (id : UInt8) (payload rest : List UInt8)
    (s : Receiving σ Ref) : Prop
  | payload {buf : Ref} {d d' w : List UInt8} {sum cs : UInt8} (hrest : rest = w ++ [packetCharEnd])
      (hw : Unstuffs w d') (hd : d ++ d' = id :: payload ++ [cs]) (hsum : sum + w.sum = 0)
      (h : Collecting pool s buf .receivingPayload d sum)
  | escape {buf : Ref} {d d' w : List UInt8} {b sum cs : UInt8}
      (hrest : rest = b :: w ++ [packetCharEnd]) (hw : Unstuffs w d')
      (hd : d ++ b :: d' = id :: payload ++ [cs]) (hsum : sum + b + w.sum = 0)
      (h : Collecting pool s buf .receivedEscapeChar d sum)

lemma Inside.rest_ne_nil (h : Inside pool id payload rest s) : rest ≠ [] := by
  cases h with
  | payload hrest => simp [hrest]
  | escape hrest => simp [hrest]

/-- Every byte brings the receiver on in the frame, and the last one hands the packet over. -/
lemma Inside.step (hp : pool.Lawful) (hlen : payload.length ≤ 125)
    (h : Inside pool id payload (b :: rest) s) :
    Inside pool id payload rest (receiveByte pool i_interface s b).1 ∧
        handedOver (receiveByte pool i_interface s b).2 = [] ∨
      rest = [] ∧ OutOfFrame (receiveByte pool i_interface s b).1 ∧
        ∃ p : Packet, handedOver (receiveByte pool i_interface s b).2 = [p] ∧
          p.message = (id, payload) ∧ p.payloadLen.toNat = payload.length ∧
          p.interface = i_interface := by
  -- what is collected is a part of the frame, and there is room for it
  have hroom {d d' : List UInt8} {cs : UInt8} (hd : d ++ d' = id :: payload ++ [cs]) :
      d.length + d'.length < maxPacketLen := by
    have hlength := congrArg List.length hd
    simp only [List.length_append, List.length_cons, List.length_nil] at hlength
    unfold maxPacketLen
    omega
  cases h with
  | payload hrest hw hd hsum h =>
    rename_i buf d d' w sum cs
    have hlt := hroom hd
    cases hw with
    | nil =>
      -- the end of the frame
      obtain ⟨rfl, rfl⟩ := List.cons.inj hrest
      rw [List.append_nil] at hd
      rw [List.sum_nil, add_zero] at hsum
      subst hd hsum
      exact .inr ⟨rfl, h.packetEnd_outOfFrame i_interface hlt, h.packetEnd_good i_interface hp hlt⟩
    | plain hx hw' =>
      rename_i w' d'
      obtain ⟨rfl, rfl⟩ := List.cons.inj hrest
      rw [List.length_cons] at hlt
      obtain ⟨hc, hquiet⟩ := h.plain i_interface hp (by omega) hx
      have hd' : (d ++ [b]) ++ d' = id :: payload ++ [cs] := by
        rw [List.append_assoc, List.singleton_append]
        exact hd
      rw [List.sum_cons, ← add_assoc] at hsum
      exact .inl ⟨.payload rfl hw' hd' hsum hc, hquiet⟩
    | pair hw' =>
      rename_i x w' d'
      obtain ⟨rfl, rfl⟩ := List.cons.inj hrest
      rw [List.length_cons] at hlt
      obtain ⟨hc, hquiet⟩ := h.escape i_interface (by omega)
      refine .inl ⟨.escape rfl hw' hd ?_ hc, hquiet⟩
      rw [List.sum_cons, List.sum_cons, ← add_assoc, ← add_assoc] at hsum
      exact hsum
  | escape hrest hw hd hsum h =>
    rename_i buf d d' w x sum cs
    obtain ⟨rfl, rfl⟩ := List.cons.inj hrest
    have hlt := hroom hd
    rw [List.length_cons] at hlt
    obtain ⟨hc, hquiet⟩ := h.escaped i_interface (b := b) hp (by omega)
    have hd' : (d ++ [b]) ++ d' = id :: payload ++ [cs] := by
      rw [List.append_assoc, List.singleton_append]
      exact hd
    exact .inl ⟨.payload rfl hw hd' hsum hc, hquiet⟩

/-- With a buffer to be had, a frame start begins a frame. -/
lemma OutOfFrame.begins (pool : PacketPool σ Ref) (h : OutOfFrame s)
    (hbuffer : s.buffer = none → (pool.getFreeBuffer s.world).1.isSome) :
    (∃ buf, Collecting pool (receiveByte pool i_interface s packetCharBeginning).1 buf
        .receivingPayload [] 0) ∧
      handedOver (receiveByte pool i_interface s packetCharBeginning).2 = [] := by
  cases hbuf : s.buffer with
  | some buf =>
    obtain ⟨hc, hquiet⟩ := collecting_of_beginning i_interface pool hbuf h.mode_ne
    exact ⟨⟨buf, hc⟩, by rw [hquiet]; rfl⟩
  | none =>
    obtain ⟨buf, hget⟩ := Option.isSome_iff_exists.mp (hbuffer hbuf)
    have hacquired : (resetBuffer pool i_interface s).2.buffer = some buf := by
      unfold resetBuffer
      generalize pool.getFreeBuffer s.world = r at hget
      obtain ⟨result, w⟩ := r
      obtain rfl : result = some buf := hget
      rfl
    have hreset := @resetBuffer_outOfFrame _ _ pool i_interface s
    obtain ⟨hc, hquiet⟩ := collecting_of_beginning i_interface pool hacquired hreset.mode_ne
    have heq : receiveByte pool i_interface s packetCharBeginning =
        receiveByte pool i_interface (resetBuffer pool i_interface s).2 packetCharBeginning := by
      rw [receiveByte_of_buffer i_interface hacquired]
      simp only [receiveByte, hbuf, Option.isNone_none, if_true, hacquired]
    rw [heq]
    exact ⟨⟨buf, hc⟩, by rw [hquiet]; rfl⟩

/-! ## The stream -/

/-- After these bytes of the messages the receiver has posted the packets of those that are complete,
and is inside of the frame of the next one if it has begun. -/
inductive Following (pool : PacketPool σ Ref) (i_interface : UInt8) (messages : List Message)
    (hist : List UInt8) (packets : List Packet) (s : Receiving σ Ref) : Prop
  | between (done more : List Message) (hmessages : messages = done ++ more)
      (hhist : hist = done.flatMap Message.wire)
      (hpackets : List.Forall₂ (Packet.Carries i_interface) packets done) (h : OutOfFrame s)
  | inside (done more : List Message) (m : Message) (rest : List UInt8)
      (hmessages : messages = done ++ m :: more)
      (hhist : hist ++ rest = done.flatMap Message.wire ++ m.wire)
      (hpackets : List.Forall₂ (Packet.Carries i_interface) packets done)
      (h : Inside pool m.subProtocolID m.payload rest s)

/-- The receiver follows the stream by one byte. -/
theorem Following.step (hp : pool.Lawful) (hlen : ∀ m ∈ messages, m.payload.length ≤ 125)
    (h : Following pool i_interface messages hist packets s)
    (hnext : hist ++ [b] <+: messages.flatMap Message.wire)
    (hbuffer : s.buffer = none → (pool.getFreeBuffer s.world).1.isSome) :
    Following pool i_interface messages (hist ++ [b])
      (packets ++ handedOver (receiveByte pool i_interface s b).2)
      (receiveByte pool i_interface s b).1 := by
  obtain ⟨later, hlater⟩ := hnext
  cases h with
  | between done more hmessages hhist hpackets h =>
    rw [hmessages, List.flatMap_append, hhist, List.append_assoc,
      List.append_cancel_left_eq] at hlater
    -- the byte is the first one of the next message
    cases more with
    | nil => cases hlater
    | cons m more =>
      rw [List.flatMap_cons, m.wire_eq] at hlater
      obtain ⟨rfl, -⟩ := List.cons.inj hlater
      obtain ⟨⟨buf, hc⟩, hquiet⟩ := OutOfFrame.begins i_interface pool h hbuffer
      obtain ⟨cs, hw, -, hsum⟩ := isFrameBody_frameBody m.subProtocolID m.payload
        (hlen m (hmessages ▸ by simp))
      rw [hquiet, List.append_nil]
      refine .inside done more m (frameBody m.subProtocolID m.payload ++ [packetCharEnd]) hmessages ?_
        hpackets (.payload rfl hw rfl (by rw [hsum, add_zero]) hc)
      rw [hhist, m.wire_eq, List.append_assoc]
      rfl
  | inside done more m rest hmessages hhist hpackets h =>
    -- the byte is the next one of the message
    have hrest := h.rest_ne_nil
    obtain ⟨b', rest, rfl⟩ := List.exists_cons_of_ne_nil hrest
    have hb : b' = b := by
      have hstream : hist ++ [b] ++ later = hist ++ (b' :: rest) ++ more.flatMap Message.wire := by
        rw [hlater, hmessages, hhist, List.flatMap_append, List.flatMap_cons, List.append_assoc]
      rw [List.append_assoc, List.append_assoc, List.append_cancel_left_eq] at hstream
      exact (List.cons.inj hstream).1.symm
    subst hb
    have hhist' : hist ++ [b'] ++ rest = done.flatMap Message.wire ++ m.wire := by
      rw [← hhist, List.append_assoc, List.singleton_append]
    have hm : m ∈ messages := hmessages ▸ by simp
    rcases h.step i_interface hp (hlen m hm) with ⟨hinside, hquiet⟩ | ⟨rfl, hout, p, hpacket, hcarries⟩
    · rw [hquiet, List.append_nil]
      exact .inside done more m rest hmessages hhist' hpackets hinside
    · rw [hpacket]
      rw [List.append_nil] at hhist'
      refine .between (done ++ [m]) more (by rw [hmessages]; simp) ?_ ?_ hout
      · rw [hhist', List.flatMap_append, List.flatMap_singleton]
      · exact List.rel_append hpackets (.cons ⟨hcarries.1, hcarries.2.1, hcarries.2.2⟩ .nil)

/-- The receiver does not notice what happens outside of its buffer, nor the messages to come. -/
lemma Following.congr {w : σ} (h : Following pool i_interface messages hist packets s)
    (hread : ∀ buf, s.buffer = some buf → pool.read buf w = pool.read buf s.world)
    (more : List Message) :
    Following pool i_interface (messages ++ more) hist packets { s with world := w } := by
  have hcollecting {buf : Ref} {mode : ReceiveModus} {d : List UInt8} {sum : UInt8}
      (hc : Collecting pool s buf mode d sum) :
      Collecting pool { s with world := w } buf mode d sum :=
    ⟨hc.buffer, hc.mode, hc.count, hc.checkSum, hread buf hc.buffer ▸ hc.holds⟩
  cases h with
  | between done more' hmessages hhist hpackets h =>
    refine .between done (more' ++ more) ?_ hhist hpackets ⟨h.mode, h.count⟩
    rw [hmessages, List.append_assoc]
  | inside done more' m rest hmessages hhist hpackets h =>
    refine .inside done (more' ++ more) m rest ?_ hhist hpackets ?_
    · rw [hmessages, List.append_assoc, List.cons_append]
    · cases h with
      | payload hrest hw hd hsum h => exact .payload hrest hw hd hsum (hcollecting h)
      | escape hrest hw hd hsum h => exact .escape hrest hw hd hsum (hcollecting h)

/-- The packets are those of the first messages. -/
lemma Following.carries (h : Following pool i_interface messages hist packets s) :
    ∃ done more, messages = done ++ more ∧ List.Forall₂ (Packet.Carries i_interface) packets done ∧
      (hist = messages.flatMap Message.wire → more = []) := by
  cases h with
  | between done more hmessages hhist hpackets =>
    refine ⟨done, more, hmessages, hpackets, fun hall => ?_⟩
    rw [hhist, hmessages, List.flatMap_append, List.self_eq_append_right] at hall
    -- a message has at least a first byte
    cases more with
    | nil => rfl
    | cons m more =>
      rw [List.flatMap_cons, m.wire_eq] at hall
      cases hall
  | inside done more m rest hmessages hhist hpackets h =>
    refine ⟨done, m :: more, hmessages, hpackets, fun hall => ?_⟩
    have hlength := congrArg List.length hhist
    rw [hall, hmessages, List.flatMap_append, List.flatMap_cons] at hlength
    simp only [List.length_append] at hlength
    have hpos := List.length_pos_of_ne_nil h.rest_ne_nil
    omega

end Powerboard.Link
