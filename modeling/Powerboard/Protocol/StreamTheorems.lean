import Powerboard.Protocol.RoundTripTheorems

/-!
# Streams of messages

The sender escapes the three synchronization characters, but the receiver knows about escapes only
inside a frame. While it is out of frame (it got no buffer, or the frame was too long) an escaped
frame start is a frame start for it. What follows is taken for a frame if its bytes sum to 0 with
the checksum of the real frame: this is `Message.HasFalseStart`.

A stream in which no message has a false start is received as a subsequence of what was sent, under
every pattern of buffers and posts; a stream in which some message has one is not, under some
pattern.
-/

namespace Powerboard.GenericProtocol

open Machine Stuffing

/-- The payload has a frame start in it at which the wire bytes so far, the escapes included, sum to
0, and at most 126 more bytes after it, but at least one. -/
def Message.HasFalseStart (m : Message) : Prop :=
  ∃ before after, m.payload = before ++ packetCharBeginning :: after ∧
    1 ≤ after.length ∧ after.length ≤ 126 ∧
    (stuffed (m.subProtocolID :: before ++ [packetCharBeginning])).sum = 0

lemma stuffed_append (d d' : List UInt8) : stuffed (d ++ d') = stuffed d ++ stuffed d' :=
  stuff_append _ _ d d'

lemma stuffed_of_control {b : UInt8} (hb : IsControl b) : stuffed [b] = [packetCharEscape, b] := by
  rw [stuffed, stuff_singleton, stuffSymbol_of_ctl _ _ hb]

lemma stuffed_of_not_control {b : UInt8} (hb : ¬ IsControl b) : stuffed [b] = [b] := by
  rw [stuffed, stuff_singleton, stuffSymbol_of_not_ctl _ _ hb]

/-- The checksum on the wire has no frame start, escaped or not. -/
lemma sendChecksum_cases (sum : UInt8) :
    (∃ c, ¬ IsControl c ∧ sendChecksum sum = [c]) ∨
      ∃ c, c ≠ packetCharBeginning ∧ sendChecksum sum = [packetCharEscape, c] := by
  unfold sendChecksum
  rw [not_add_one, not_add_one]
  split
  · rename_i hctl
    refine Or.inr ⟨_, ?_, rfl⟩
    have hneg : -(sum + packetCharEscape) = -sum - packetCharEscape := by grind
    rw [hneg]
    rcases hctl with h | h | h <;> rw [h] <;> decide
  · rename_i hctl
    exact Or.inl ⟨_, hctl, rfl⟩

section Safety
variable {σ Ref : Type} {pool : PacketPool σ Ref} (i_interface : UInt8) {s : Receiving σ Ref}
  {q : List UInt8} {b : UInt8}

/-! ## One message -/

/-- The state inside a frame whose bytes so far unstuff to `q`: the receiver missed the frame start,
or it collects all of `q`, or it collects what follows a frame start inside `q`. -/
inductive Behind (pool : PacketPool σ Ref) (q : List UInt8) (s : Receiving σ Ref) : Prop
  | outOfFrame (h : OutOfFrame s)
  | whole {buf : Ref} (h : Collecting pool s buf .receivingPayload q (stuffed q).sum)
  | false {buf : Ref} (before after : List UInt8) (hq : q = before ++ packetCharBeginning :: after)
      (h : Collecting pool s buf .receivingPayload after (stuffed after).sum)

/-- Out of frame, the second byte of an escape pair is a frame start or nothing. -/
lemma OutOfFrame.second (pool : PacketPool σ Ref) (h : OutOfFrame s) (b : UInt8) :
    Behind pool (q ++ [b]) (receiveByte pool i_interface s b).1 ∧
      handedOver (receiveByte pool i_interface s b).2 = [] := by
  by_cases hb : b = packetCharBeginning
  · subst hb
    obtain ⟨hs | hs, hout⟩ := h.beginning i_interface pool
    · obtain ⟨buf, hc⟩ := hs
      exact ⟨.false q [] rfl hc, hout⟩
    · exact ⟨.outOfFrame hs, hout⟩
  · obtain ⟨hs, hout⟩ := h.other i_interface pool hb
    exact ⟨.outOfFrame hs, hout⟩

/-- Out of frame, a stuffed byte is nothing, or a false frame start. -/
lemma OutOfFrame.stuffed_byte (h : OutOfFrame s) (b : UInt8) :
    Behind pool (q ++ [b]) (receiveIndication pool i_interface s (stuffed [b])).1 ∧
      handedOver (receiveIndication pool i_interface s (stuffed [b])).2 = [] := by
  by_cases hb : IsControl b
  · rw [stuffed_of_control hb, receiveIndication_cons, receiveIndication_singleton]
    obtain ⟨hs, hout⟩ := h.other i_interface pool (show packetCharEscape ≠ _ by decide)
    obtain ⟨hs', hout'⟩ := hs.second i_interface pool (q := q) b
    exact ⟨hs', by rw [handedOver_append, hout, hout']; rfl⟩
  · rw [stuffed_of_not_control hb, receiveIndication_singleton]
    obtain ⟨hs, hout⟩ := h.other i_interface pool (IsControl.not_beginning hb)
    exact ⟨.outOfFrame hs, hout⟩

/-- Collecting, a stuffed byte is stored, or the frame is too long and is dropped. -/
lemma Collecting.stuffed_byte {buf : Ref} {d : List UInt8} {sum : UInt8} (hp : pool.Lawful)
    (h : Collecting pool s buf .receivingPayload d sum) (b : UInt8) :
    (Collecting pool (receiveIndication pool i_interface s (stuffed [b])).1 buf .receivingPayload
          (d ++ [b]) (sum + (stuffed [b]).sum) ∨
        Behind pool (q ++ [b]) (receiveIndication pool i_interface s (stuffed [b])).1) ∧
      handedOver (receiveIndication pool i_interface s (stuffed [b])).2 = [] := by
  by_cases hlen : d.length < maxPacketLen
  · obtain ⟨hc, hout⟩ := h.feed_stuffed i_interface hp (stuffed_stuff _ _ [b])
      (by simp only [List.length_append, List.length_singleton]; omega)
    exact ⟨Or.inl hc, hout⟩
  · have hfull : maxPacketLen ≤ s.receivedPayloadBytes := by rw [h.count]; omega
    by_cases hb : IsControl b
    · rw [stuffed_of_control hb, receiveIndication_cons, receiveIndication_singleton]
      obtain ⟨hs, -, hout⟩ := outOfFrame_of_full i_interface pool h.buffer hfull
        (show packetCharEscape ≠ _ by decide)
      obtain ⟨hs', hout'⟩ := hs.second i_interface pool (q := q) b
      exact ⟨Or.inr hs', by rw [handedOver_append, hout, hout']; rfl⟩
    · rw [stuffed_of_not_control hb, receiveIndication_singleton]
      obtain ⟨hs, -, hout⟩ := outOfFrame_of_full i_interface pool h.buffer hfull
        (IsControl.not_beginning hb)
      exact ⟨Or.inr (.outOfFrame hs), by rw [hout]; rfl⟩

lemma Behind.stuffed_byte (hp : pool.Lawful) (h : Behind pool q s) (b : UInt8) :
    Behind pool (q ++ [b]) (receiveIndication pool i_interface s (stuffed [b])).1 ∧
      handedOver (receiveIndication pool i_interface s (stuffed [b])).2 = [] := by
  have hsum (d : List UInt8) :
      (GenericProtocol.stuffed d).sum + (GenericProtocol.stuffed [b]).sum =
        (GenericProtocol.stuffed (d ++ [b])).sum := by
    rw [stuffed_append, List.sum_append]
  rcases h with h | h | ⟨before, after, hq, h⟩
  · exact h.stuffed_byte i_interface b
  · obtain ⟨hs | hs, hout⟩ := h.stuffed_byte i_interface (q := q) hp b
    · exact ⟨.whole (hsum q ▸ hs), hout⟩
    · exact ⟨hs, hout⟩
  · obtain ⟨hs | hs, hout⟩ := h.stuffed_byte i_interface (q := q) hp b
    · exact ⟨.false before (after ++ [b]) (by rw [hq]; simp) (hsum after ▸ hs), hout⟩
    · exact ⟨hs, hout⟩

/-- Nothing is handed over inside a frame. -/
lemma Behind.stuffed (hp : pool.Lawful) (h : Behind pool q s) (d : List UInt8) :
    Behind pool (q ++ d) (receiveIndication pool i_interface s (stuffed d)).1 ∧
      handedOver (receiveIndication pool i_interface s (GenericProtocol.stuffed d)).2 = [] := by
  induction d generalizing s q with
  | nil => exact ⟨by simpa using h, rfl⟩
  | cons b d ih =>
    obtain ⟨hb, hout⟩ := h.stuffed_byte i_interface hp b
    obtain ⟨hd, hout'⟩ := ih hb
    rw [stuffed_cons, receiveIndication_append]
    rw [List.append_assoc] at hd
    exact ⟨hd, by rw [handedOver_append, hout, hout']; rfl⟩

/-- The checksum keeps an out-of-frame receiver out of frame. -/
lemma OutOfFrame.checksum (pool : PacketPool σ Ref) (h : OutOfFrame s) (sum : UInt8) :
    OutOfFrame (receiveIndication pool i_interface s (sendChecksum sum)).1 ∧
      handedOver (receiveIndication pool i_interface s (sendChecksum sum)).2 = [] := by
  rcases sendChecksum_cases sum with ⟨c, hc, heq⟩ | ⟨c, hc, heq⟩
  · rw [heq, receiveIndication_singleton]
    exact h.other i_interface pool (IsControl.not_beginning hc)
  · rw [heq, receiveIndication_cons, receiveIndication_singleton]
    obtain ⟨hs, hout⟩ := h.other i_interface pool (show packetCharEscape ≠ _ by decide)
    obtain ⟨hs', hout'⟩ := hs.other i_interface pool hc
    exact ⟨hs', by rw [handedOver_append, hout, hout']; rfl⟩

/-- A frame that is full drops its checksum and its end. -/
lemma Collecting.checksum_of_full {buf : Ref} {d : List UInt8} {sum : UInt8}
    (h : Collecting pool s buf .receivingPayload d sum) (hfull : maxPacketLen ≤ d.length)
    (c : UInt8) :
    OutOfFrame (receiveIndication pool i_interface s (sendChecksum c)).1 ∧
      handedOver (receiveIndication pool i_interface s (sendChecksum c)).2 = [] := by
  rw [← h.count] at hfull
  rcases sendChecksum_cases c with ⟨c, hc, heq⟩ | ⟨c, hc, heq⟩
  · rw [heq, receiveIndication_singleton]
    obtain ⟨hs, -, hout⟩ := outOfFrame_of_full i_interface pool h.buffer hfull
      (IsControl.not_beginning hc)
    exact ⟨hs, by rw [hout]; rfl⟩
  · rw [heq, receiveIndication_cons, receiveIndication_singleton]
    obtain ⟨hs, -, hout⟩ := outOfFrame_of_full i_interface pool h.buffer hfull
      (show packetCharEscape ≠ _ by decide)
    obtain ⟨hs', hout'⟩ := hs.other i_interface pool hc
    exact ⟨hs', by rw [handedOver_append, hout, hout']; rfl⟩

/-- The end of a frame that was collected as `d`: what is handed over, if anything, is `d`. -/
lemma Collecting.tail {buf : Ref} {d : List UInt8} {sum : UInt8} (hp : pool.Lawful)
    (h : Collecting pool s buf .receivingPayload d sum) (c : UInt8) :
    OutOfFrame (receiveIndication pool i_interface s (sendChecksum c ++ [packetCharEnd])).1 ∧
      (handedOver (receiveIndication pool i_interface s (sendChecksum c ++ [packetCharEnd])).2 = [] ∨
        ∃ p, handedOver (receiveIndication pool i_interface s
            (sendChecksum c ++ [packetCharEnd])).2 = [p] ∧
          d = p.message.1 :: p.message.2 ∧ d.length ≤ 126 ∧
          sum + (sendChecksum c).sum = 0) := by
  obtain ⟨⟨cs, hcs⟩, -⟩ := sendChecksum_spec c
  have hend : packetCharEnd ≠ packetCharBeginning := by decide
  rw [receiveIndication_append, receiveIndication_singleton]
  by_cases hlen : d.length < maxPacketLen
  swap
  · obtain ⟨hs, hout⟩ := h.checksum_of_full i_interface (by omega) c
    obtain ⟨hs', hout'⟩ := hs.other i_interface pool hend
    exact ⟨hs', Or.inl (by rw [handedOver_append, hout, hout']; rfl)⟩
  obtain ⟨hc, hout⟩ := h.feed_stuffed i_interface hp hcs
    (by simp only [List.length_append, List.length_singleton]; omega)
  by_cases hfull : (d ++ [cs]).length < maxPacketLen
  swap
  · obtain ⟨hs, -, hout'⟩ := outOfFrame_of_full i_interface pool hc.buffer
      (by rw [hc.count]; omega) hend
    exact ⟨hs, Or.inl (by rw [handedOver_append, hout, hout']; rfl)⟩
  refine ⟨hc.packetEnd_outOfFrame i_interface hfull, ?_⟩
  rw [handedOver_append, hout, List.nil_append]
  rw [List.length_append, List.length_singleton] at hfull
  by_cases hsum : sum + (sendChecksum c).sum = 0
  swap
  · exact Or.inl (hc.packetEnd_bad i_interface (by simpa using hfull) (Or.inl hsum))
  cases d with
  | nil => exact Or.inl (hc.packetEnd_bad i_interface (by simpa using hfull) (Or.inr (by simp)))
  | cons id payload =>
    rw [hsum] at hc
    obtain ⟨p, hp', hm, -, -⟩ := hc.packetEnd_good i_interface hp (by simpa using hfull)
    refine Or.inr ⟨p, hp', by rw [hm], ?_, hsum⟩
    simp only [maxPacketLen] at hfull
    omega

/-- What was collected from a frame start inside the message, with the checksum of the whole
message, is a false start. -/
lemma hasFalseStart_of_collected {m : Message} {before after : List UInt8}
    (hq : m.subProtocolID :: m.payload = before ++ packetCharBeginning :: after)
    (hpos : 1 ≤ after.length) (hle : after.length ≤ 126)
    (hsum : (stuffed after).sum +
      (sendChecksum (stuffed (m.subProtocolID :: m.payload)).sum).sum = 0) :
    m.HasFalseStart := by
  have hwhole := (sendChecksum_spec (stuffed (m.subProtocolID :: m.payload)).sum).2
  have hsplit : stuffed (m.subProtocolID :: m.payload) =
      stuffed (before ++ [packetCharBeginning]) ++ stuffed after := by
    rw [hq, ← stuffed_append, List.append_assoc, List.singleton_append]
  have hzero : (stuffed (before ++ [packetCharBeginning])).sum = 0 := by
    have hsum' := congrArg List.sum hsplit
    rw [List.sum_append] at hsum'
    grind
  cases before with
  | nil =>
    -- an escaped frame start as the id does not sum to 0
    exact absurd hzero (by decide)
  | cons id before =>
    simp only [List.cons_append, List.cons.injEq] at hq
    refine ⟨before, after, hq.2, hpos, hle, ?_⟩
    rw [hq.1]
    exact hzero

/-- A message received out of frame leaves the receiver out of frame, and hands over the message
or nothing, unless it has a false start. -/
lemma OutOfFrame.message (hp : pool.Lawful) (h : OutOfFrame s) (m : Message) :
    OutOfFrame (receiveIndication pool i_interface s m.wire).1 ∧
      (handedOver (receiveIndication pool i_interface s m.wire).2 = [] ∨
        ∃ p, handedOver (receiveIndication pool i_interface s m.wire).2 = [p] ∧
          (p.message = m.content ∨ m.HasFalseStart)) := by
  obtain ⟨hstart, hout⟩ := h.beginning i_interface pool
  have hbehind : Behind pool [] (receiveByte pool i_interface s packetCharBeginning).1 := by
    rcases hstart with ⟨buf, hc⟩ | ho
    · exact .whole hc
    · exact .outOfFrame ho
  obtain ⟨hbody, hout'⟩ := hbehind.stuffed i_interface hp (m.subProtocolID :: m.payload)
  have hwire : m.wire = [packetCharBeginning] ++ GenericProtocol.stuffed
      (m.subProtocolID :: m.payload) ++ (sendChecksum (GenericProtocol.stuffed
        (m.subProtocolID :: m.payload)).sum ++ [packetCharEnd]) := by
    rw [m.wire_eq, frameBody]
    simp
  rw [hwire]
  simp only [receiveIndication_append _ _ s, receiveIndication_singleton, handedOver_append, hout,
    hout', List.nil_append]
  rw [List.nil_append] at hbody
  rcases hbody with hbody | hbody | ⟨before, after, hq, hbody⟩
  · obtain ⟨hs, hquiet⟩ := hbody.checksum i_interface pool (GenericProtocol.stuffed
      (m.subProtocolID :: m.payload)).sum
    obtain ⟨hs', hquiet'⟩ := hs.other i_interface pool (show packetCharEnd ≠ _ by decide)
    rw [receiveIndication_append, receiveIndication_singleton, handedOver_append, hquiet, hquiet']
    exact ⟨hs', Or.inl rfl⟩
  · obtain ⟨hs, hnone | ⟨p, hp', hm, -, -⟩⟩ := hbody.tail i_interface hp (GenericProtocol.stuffed
      (m.subProtocolID :: m.payload)).sum
    · exact ⟨hs, Or.inl hnone⟩
    · rw [List.cons.injEq] at hm
      exact ⟨hs, Or.inr ⟨p, hp', Or.inl (Prod.ext hm.1.symm hm.2.symm)⟩⟩
  · obtain ⟨hs, hnone | ⟨p, hp', hm, hlen, hsum⟩⟩ := hbody.tail i_interface hp
      (GenericProtocol.stuffed (m.subProtocolID :: m.payload)).sum
    · exact ⟨hs, Or.inl hnone⟩
    · have hpos : 1 ≤ after.length := by simp [hm]
      exact ⟨hs, Or.inr ⟨p, hp', Or.inr (hasFalseStart_of_collected hq hpos hlen hsum)⟩⟩

/-! ## All messages -/

/-- Messages without false starts are received as a subsequence. -/
lemma OutOfFrame.messages (hp : pool.Lawful) (h : OutOfFrame s) (msgs : List Message)
    (hgood : ∀ m ∈ msgs, ¬ m.HasFalseStart) :
    ((handedOver (receiveIndication pool i_interface s (msgs.flatMap Message.wire)).2).map
      Packet.message).Sublist (msgs.map Message.content) := by
  induction msgs generalizing s with
  | nil => exact List.Sublist.refl _
  | cons m msgs ih =>
    obtain ⟨hs, hout⟩ := h.message i_interface hp m
    have hrest := ih hs fun m' hm' => hgood m' (List.mem_cons_of_mem m hm')
    rw [List.flatMap_cons, receiveIndication_append, handedOver_append, List.map_append, List.map_cons]
    rcases hout with hnone | ⟨p, hp', hm | hbad⟩
    · rw [hnone]
      exact hrest.cons _
    · rw [hp', List.map_singleton, hm, List.singleton_append]
      exact hrest.cons_cons _
    · exact absurd hbad (hgood m List.mem_cons_self)

end Safety
end Powerboard.GenericProtocol
