import Powerboard.Protocol.FrameTheorems
import Powerboard.Protocol.Send

/-!
# Decoding undoes encoding

What `genericProtocol_sendMessage` puts on the wire is a frame start, the body of a frame with the
id and the payload, and a frame end; so the receiver hands over that id and that payload, when
there is room for it.
-/

namespace Powerboard.GenericProtocol

open Machine Stuffing

/-- The wire bytes of a payload without frame borders and checksum. -/
abbrev stuffed (d : List UInt8) : List UInt8 := stuff packetCharEscape IsControl d

/-! ## The bytes on the wire -/

lemma not_add_one (c : UInt8) : ~~~c + 1 = -c := (UInt8.neg_eq_not_add c).symm

lemma stuffed_cons (b : UInt8) (data : List UInt8) :
    stuffed (b :: data) = stuffed [b] ++ stuffed data := stuff_append _ _ [b] data

/-- `genericProtocol_send` with escaping puts one stuffed byte on the wire and returns its sum. -/
lemma send_escape (b : UInt8) : send b true = (stuffed [b], (stuffed [b]).sum) := by
  by_cases hb : IsControl b <;> simp [send, stuff, stuffSymbol, hb]

lemma send_plain (b : UInt8) : send b false = ([b], b) := by
  simp [send]

/-- The payload loop stuffs the payload and adds up the bytes. -/
lemma sendPayload_eq (checksum : UInt8) (data : List UInt8) :
    sendPayload checksum data = (stuffed data, checksum + (stuffed data).sum) := by
  induction data generalizing checksum with
  | nil => simp [sendPayload]
  | cons b data ih =>
    simp only [sendPayload, send_escape, ih, stuffed_cons b data, List.sum_append, add_assoc]

lemma sendPayload_append (checksum : UInt8) (data data' : List UInt8) :
    sendPayload checksum (data ++ data') =
      ((sendPayload checksum data).1 ++ (sendPayload (sendPayload checksum data).2 data').1,
        (sendPayload (sendPayload checksum data).2 data').2) := by
  simp only [sendPayload_eq, stuffed, stuff_append, List.sum_append, add_assoc]

/-- The inside of the frame of a message. -/
def frameBody (id : UInt8) (payload : List UInt8) : List UInt8 :=
  stuffed (id :: payload) ++ sendChecksum (stuffed (id :: payload)).sum

lemma sendMessage_eq (sendState : ℕ → SendState) (i_interface id : UInt8) (payload : List UInt8)
    (hinterface : i_interface.toNat < phyInterfacesCount)
    (hidle : (sendState i_interface.toNat).isSending = false) :
    sendMessage sendState i_interface id payload =
      packetCharBeginning :: frameBody id payload ++ [packetCharEnd] := by
  simp only [sendMessage, hinterface, hidle, if_true, send_escape, send_plain, sendPayload_eq,
    frameBody, stuffed_cons id payload, List.sum_append, zero_add, List.append_assoc, List.cons_append,
    List.nil_append]

lemma Message.wire_eq (m : Message) :
    m.wire = packetCharBeginning :: frameBody m.subProtocolID m.payload ++ [packetCharEnd] :=
  sendMessage_eq _ _ _ _ (by decide) rfl

/-- The checksum on the wire is one byte, escaped where needed, and makes the sum 0. -/
lemma sendChecksum_spec (sum : UInt8) :
    (∃ cs, Unstuffs (sendChecksum sum) [cs]) ∧ sum + (sendChecksum sum).sum = 0 := by
  unfold sendChecksum
  rw [not_add_one, not_add_one]
  split
  · refine ⟨⟨_, stuffed_pair _⟩, ?_⟩
    simp only [List.sum_cons, List.sum_nil]
    grind
  · rename_i hctl
    refine ⟨⟨_, stuffed_plain hctl⟩, ?_⟩
    simp

/-- What is sent between frame start and frame end is the body of a frame, if it is not too long. -/
lemma isFrameBody_frameBody (id : UInt8) (payload : List UInt8) (hlen : payload.length ≤ 125) :
    IsFrameBody (frameBody id payload) id payload := by
  obtain ⟨⟨cs, hcs⟩, hsum⟩ := sendChecksum_spec (stuffed (id :: payload)).sum
  refine ⟨cs, (stuffed_stuff _ _ _).append hcs, ?_, ?_⟩
  · simp only [List.cons_append, List.length_cons, List.length_append, List.length_nil,
      maxPacketLen]
    omega
  · rw [frameBody, List.sum_append, hsum]

/-! ## The length limit -/

section Limit
variable {σ Ref : Type} {pool : PacketPool σ Ref} {i_interface : UInt8} {s : Receiving σ Ref}

/-- Whatever its state, the receiver hands over at most 125 payload bytes. -/
lemma handedOver_payload_length {b : UInt8} {p : Packet}
    (h : p ∈ handedOver (receiveByte pool i_interface s b).2) : p.payload.length ≤ 125 := by
  obtain ⟨e, he, hp⟩ := List.mem_filterMap.mp h
  obtain ⟨buf, t, ht, hstore | hpost⟩ := mem_receiveByte i_interface he
  · have hmem : p ∈ handedOver (storeReceived pool buf b t).2 :=
      List.mem_filterMap.mpr ⟨e, hstore, hp⟩
    rw [(storeReceived_frame pool buf b t).2.2.2] at hmem
    cases hmem
  · have hmem : p ∈ handedOver (postReceived pool i_interface buf t).2 :=
      List.mem_filterMap.mpr ⟨e, hpost, hp⟩
    rw [(postReceived_spec i_interface t).1, List.mem_singleton] at hmem
    -- the payload is what was received without identifier and checksum
    have hlen : (UInt16.ofNat (t.receivedPayloadBytes - sizeofChecksum -
        sizeofSubProtocolIdentifier)).toNat ≤ 125 := by
      rw [UInt16.toNat_ofNat']
      refine (Nat.mod_le _ _).trans ?_
      simp only [maxPacketLen, sizeofChecksum, sizeofSubProtocolIdentifier] at ht ⊢
      omega
    rw [hmem]
    exact (List.length_take_le _ _).trans hlen

lemma handedOver_payload_length_of_run {bytes : List UInt8} {p : Packet}
    (h : p ∈ handedOver (receiveIndication pool i_interface s bytes).2) :
    p.payload.length ≤ 125 := by
  obtain ⟨e, he, hp⟩ := List.mem_filterMap.mp h
  obtain ⟨pre, b, post, -, hstep⟩ := mem_feed_outputs _ he
  exact handedOver_payload_length (List.mem_filterMap.mpr ⟨e, hstep, hp⟩)

end Limit

/-! ## Pools that follow a pattern -/

section Pattern
variable (i_interface : UInt8) {b : UInt8} {s : Receiving Pattern ℕ} {buf : ℕ}

/-- The part of the state that decides about buffers and posts is untouched. -/
structure SameSupply (s t : Receiving Pattern ℕ) : Prop where
  buffer : t.buffer = s.buffer
  available : t.world.available = s.world.available
  accepted : t.world.accepted = s.world.accepted

lemma SameSupply.trans {s t u : Receiving Pattern ℕ} (h : SameSupply s t) (h' : SameSupply t u) :
    SameSupply s u :=
  ⟨h'.buffer.trans h.buffer, h'.available.trans h.available, h'.accepted.trans h.accepted⟩

/-- The state after a packet was handed over, as far as buffers and posts are concerned: one post
and one acquisition have taken place. -/
structure NextSupply (buf : ℕ) (s t : Receiving Pattern ℕ) : Prop where
  buffer : t.buffer = (s.world.available 0).or (if s.world.accepted 0 then none else some buf)
  available : t.world.available = fun n => s.world.available (n + 1)
  accepted : t.world.accepted = fun n => s.world.accepted (n + 1)

/-- A reset takes the next acquisition of the pattern. -/
lemma resetBuffer_supply (s : Receiving Pattern ℕ) :
    (resetBuffer patternPool i_interface s).2.buffer = (s.world.available 0).or s.buffer ∧
      (resetBuffer patternPool i_interface s).2.world.available =
        (fun n => s.world.available (n + 1)) ∧
      (resetBuffer patternPool i_interface s).2.world.accepted = s.world.accepted := by
  simp only [resetBuffer, patternPool]
  cases s.world.available 0 <;> exact ⟨rfl, rfl, rfl⟩

lemma storeReceived_supply (buf : ℕ) (b : UInt8) (s : Receiving Pattern ℕ) :
    SameSupply s (storeReceived patternPool buf b s).1 ∧
      handedOver (storeReceived patternPool buf b s).2 = [] := by
  unfold storeReceived
  dsimp only
  split <;> exact ⟨⟨rfl, rfl, rfl⟩, rfl⟩

lemma postReceived_supply (s : Receiving Pattern ℕ) (hbuf : s.buffer = some buf) :
    NextSupply buf s (postReceived patternPool i_interface buf s).1 ∧
      ∃ p, handedOver (postReceived patternPool i_interface buf s).2 = [p] ∧
        posted (postReceived patternPool i_interface buf s).2 =
          if s.world.accepted 0 then [p] else [] := by
  unfold postReceived
  simp only [patternPool, resetBuffer, hbuf]
  refine ⟨?_, _, rfl, ?_⟩
  · cases h : s.world.available 0 <;> exact ⟨by simp [h], rfl, rfl⟩
  · cases s.world.accepted 0 <;> rfl

/-- A byte either touches neither buffers nor posts, or hands over one packet. -/
lemma receiveByte_supply (hbuf : s.buffer = some buf) :
    (SameSupply s (receiveByte patternPool i_interface s b).1 ∧
      handedOver (receiveByte patternPool i_interface s b).2 = []) ∨
    (NextSupply buf s (receiveByte patternPool i_interface s b).1 ∧
      ∃ p, handedOver (receiveByte patternPool i_interface s b).2 = [p] ∧
        posted (receiveByte patternPool i_interface s b).2 =
          if s.world.accepted 0 then [p] else []) := by
  have hstore := storeReceived_supply buf b
  have hpost := @postReceived_supply i_interface buf
  rw [receiveByte_of_buffer i_interface hbuf]
  unfold receiveInto
  split
  · exact Or.inl ⟨⟨rfl, rfl, rfl⟩, rfl⟩
  dsimp only
  split
  · exact Or.inl ⟨⟨rfl, rfl, rfl⟩, rfl⟩
  split
  · split
    · exact Or.inl ⟨⟨rfl, rfl, rfl⟩, rfl⟩
    · exact Or.inl ⟨⟨(hstore _).1.buffer, (hstore _).1.available, (hstore _).1.accepted⟩,
        (hstore _).2⟩
  · exact Or.inl ⟨⟨(hstore _).1.buffer, (hstore _).1.available, (hstore _).1.accepted⟩,
      (hstore _).2⟩
  · unfold packetEnd
    dsimp only
    split
    · split
      · exact Or.inr ⟨⟨(hpost _ (by exact hbuf)).1.buffer, (hpost _ (by exact hbuf)).1.available,
          (hpost _ (by exact hbuf)).1.accepted⟩, (hpost _ (by exact hbuf)).2⟩
      · exact Or.inl ⟨⟨rfl, rfl, rfl⟩, rfl⟩
    · exact Or.inl ⟨⟨rfl, rfl, rfl⟩, rfl⟩
  · exact Or.inl ⟨⟨rfl, rfl, rfl⟩, rfl⟩

/-- As long as nothing is handed over, neither buffers nor posts are touched. -/
lemma receiveIndication_quiet {bytes : List UInt8} (hbuf : s.buffer = some buf)
    (hquiet : handedOver (receiveIndication patternPool i_interface s bytes).2 = []) :
    SameSupply s (receiveIndication patternPool i_interface s bytes).1 := by
  induction bytes generalizing s with
  | nil => exact ⟨rfl, rfl, rfl⟩
  | cons b bytes ih =>
    rw [receiveIndication_cons, handedOver_append, List.append_eq_nil_iff] at hquiet
    rw [receiveIndication_cons]
    rcases receiveByte_supply i_interface (b := b) hbuf with ⟨hsame, -⟩ | ⟨-, p, hout, -⟩
    · exact hsame.trans (ih (hsame.buffer.trans hbuf) hquiet.2)
    · rw [hquiet.1] at hout
      simp at hout

/-- The frame with the body `w`, received from `s` with the buffer `buf`, delivers the packet `p`
with the message `m`, by its last byte. -/
structure Delivered (s : Receiving Pattern ℕ) (buf : ℕ) (w : List UInt8) (m : UInt8 × List UInt8)
    (p : Packet) : Prop where
  message : p.message = m
  payloadLen : p.payloadLen.toNat = m.2.length
  interface : p.interface = i_interface
  /-- all but the last byte -/
  quiet : handedOver (receiveIndication patternPool i_interface s (packetCharBeginning :: w)).2 = []
  handedOver : handedOver (receiveIndication patternPool i_interface s
    (packetCharBeginning :: w ++ [packetCharEnd])).2 = [p]
  posted : posted (receiveIndication patternPool i_interface s
    (packetCharBeginning :: w ++ [packetCharEnd])).2 = if s.world.accepted 0 then [p] else []
  supply : NextSupply buf s (receiveIndication patternPool i_interface s
    (packetCharBeginning :: w ++ [packetCharEnd])).1

/-- A frame is delivered in any state with a buffer outside the escape mode. -/
lemma exists_delivered (hbuf : s.buffer = some buf) (hmode : s.mode ≠ .receivedEscapeChar)
    {w payload : List UInt8} {id : UInt8} (hw : IsFrameBody w id payload) :
    ∃ p, Delivered i_interface s buf w (id, payload) p := by
  obtain ⟨hquiet, p, hlast, hm, hl, hi⟩ :=
    receive_frame i_interface patternPool_lawful hbuf hmode hw
  have hsame := receiveIndication_quiet i_interface hbuf hquiet
  refine ⟨p, hm, hl, hi, hquiet, ?_, ?_, ?_⟩ <;>
    simp only [receiveIndication_append, receiveIndication_singleton] at hquiet hlast hsame ⊢
  · rw [handedOver_append, hquiet, hlast]
    rfl
  all_goals
    rcases receiveByte_supply i_interface (b := packetCharEnd) (hsame.buffer.trans hbuf) with
      ⟨-, hnone⟩ | ⟨hnext, q, hq, hposted⟩
    · rw [hlast] at hnone
      simp at hnone
  · have hnil := posted_eq_nil hquiet
    rw [hlast] at hq
    rw [posted_append, hnil, hposted, hsame.accepted, ← List.singleton_inj.mp hq]
    rfl
  · exact ⟨by rw [hnext.buffer, hsame.available, hsame.accepted],
      by rw [hnext.available, hsame.available], by rw [hnext.accepted, hsame.accepted]⟩

end Pattern

/-- Decoding undoes encoding. A message of at most 125 bytes, received in any state that has a
buffer and a free queue slot and is not in the escape mode, is posted by its last byte with its id,
length and payload and the receiving interface; a longer payload is never handed over, whatever is
received in whatever state. -/
theorem decoding_undoes_encoding (sendState : ℕ → SendState) (sender i_interface id : UInt8)
    (payload : List UInt8) (s : Receiving Pattern ℕ) (hsender : sender.toNat < phyInterfacesCount)
    (hidle : (sendState sender.toNat).isSending = false) :
    (payload.length ≤ 125 → s.mode ≠ .receivedEscapeChar → s.buffer.isSome →
      s.world.accepted 0 = true →
      ∃ p : Packet, p.subProtocolID = id ∧ p.payloadLen.toNat = payload.length ∧
        p.packet.toList.take payload.length = payload ∧ p.interface = i_interface ∧
        posted (receiveIndication patternPool i_interface s
          (sendMessage sendState sender id payload).dropLast).2 = [] ∧
        posted (receiveIndication patternPool i_interface s
          (sendMessage sendState sender id payload)).2 = [p]) ∧
    (126 ≤ payload.length → ∀ bytes, ∀ p ∈ handedOver (receiveIndication patternPool i_interface s
      bytes).2, p.message ≠ (id, payload)) := by
  constructor
  · intro hlen hmode hbuf haccepted
    obtain ⟨buf, hbuf⟩ := Option.isSome_iff_exists.mp hbuf
    obtain ⟨p, hp⟩ := exists_delivered i_interface hbuf hmode
      (isFrameBody_frameBody id payload hlen)
    have hl : p.payloadLen.toNat = payload.length := hp.payloadLen
    have hmessage := hp.message
    simp only [Packet.message, Packet.payload, hl, Prod.mk.injEq] at hmessage
    have hwire := sendMessage_eq sendState sender id payload hsender hidle
    refine ⟨p, hmessage.1, hl, hmessage.2, hp.interface, ?_, ?_⟩
    · rw [hwire, List.dropLast_concat]
      exact posted_eq_nil hp.quiet
    · rw [hwire, hp.posted, haccepted]
      rfl
  · intro hlen bytes p hmem heq
    have hshort := handedOver_payload_length_of_run hmem
    have hpayload : p.payload = payload := congrArg Prod.snd heq
    rw [hpayload] at hshort
    omega

theorem decoding_undoes_encoding_control_bytes :
    ∃ p : Packet, p.subProtocolID = 0x3c ∧ p.payloadLen.toNat = 3 ∧
      p.packet.toList.take 3 = [0xf0, 0x0f, 0x3c] ∧ p.interface = 0 ∧
      posted (receiveIndication patternPool 0 (init patternPool 0 Pattern.unlimited)
        (sendMessage (fun _ => .zeroed) 0 0x3c [0xf0, 0x0f, 0x3c]).dropLast).2 = [] ∧
      posted (receiveIndication patternPool 0 (init patternPool 0 Pattern.unlimited)
        (sendMessage (fun _ => .zeroed) 0 0x3c [0xf0, 0x0f, 0x3c])).2 = [p] :=
  (decoding_undoes_encoding (fun _ => .zeroed) 0 0 0x3c [0xf0, 0x0f, 0x3c]
    (init patternPool 0 Pattern.unlimited) (by decide) rfl).1 (by decide) (by decide) rfl rfl

end Powerboard.GenericProtocol
