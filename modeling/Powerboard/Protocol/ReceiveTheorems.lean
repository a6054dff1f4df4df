import Powerboard.Protocol.Receive

/-!
# What the receiver does in and out of a frame

The receiver is in one of two situations, and the lemmas below say for each what a byte does:

* `Collecting`: it has a buffer, has seen a frame start, and its count, checksum and buffer are
  those of the bytes received since then;
* `OutOfFrame`: nothing it receives is stored or handed over before the next frame start.
-/

namespace Powerboard.GenericProtocol

open Machine Stuffing

/-- `w` unstuffs to `d`: plain bytes and escape pairs. -/
abbrev Unstuffs (w d : List UInt8) : Prop := Stuffed packetCharEscape IsControl w d

variable {σ Ref : Type} {pool : PacketPool σ Ref} (i_interface : UInt8) {s : Receiving σ Ref}
  {buf : Ref} {d : List UInt8} {sum b : UInt8}

/-- The packet holds the received bytes: the first is the id, the others are where `packet`
starts. -/
def Packet.Holds (p : Packet) : List UInt8 → Prop
  | [] => True
  | id :: rest => p.subProtocolID = id ∧ p.packet.toList.take rest.length = rest

/-- The receiver has seen a frame start, then bytes with sum `sum` that unstuff to `d`. -/
structure Collecting (pool : PacketPool σ Ref) (s : Receiving σ Ref) (buf : Ref)
    (mode : ReceiveModus) (d : List UInt8) (sum : UInt8) : Prop where
  buffer : s.buffer = some buf
  mode : s.mode = mode
  count : s.receivedPayloadBytes = d.length
  checkSum : s.checkSum = sum
  holds : (pool.read buf s.world).Holds d

/-- The receiver waits for a frame start: it has not collected anything, or too much. -/
structure OutOfFrame (s : Receiving σ Ref) : Prop where
  mode : s.mode = .receivingUnknown ∨ s.mode = .receivingPacketEnd
  count : s.receivedPayloadBytes = 0 ∨ maxPacketLen ≤ s.receivedPayloadBytes

theorem OutOfFrame.mode_ne (h : OutOfFrame s) : s.mode ≠ .receivedEscapeChar := by
  rcases h.mode with hm | hm <;> rw [hm] <;> decide

theorem Collecting.mode_ne (h : Collecting pool s buf .receivingPayload d sum) :
    s.mode ≠ .receivedEscapeChar := by
  rw [h.mode]
  decide

/-- A packet that is being collected has room for another byte. -/
theorem Collecting.room {mode : ReceiveModus} (h : Collecting pool s buf mode d sum)
    (hlen : d.length < maxPacketLen) : ¬ maxPacketLen ≤ s.receivedPayloadBytes := by
  rw [h.count]
  exact Nat.not_le.mpr hlen

/-! ## Single steps -/

theorem receiveByte_of_buffer (h : s.buffer = some buf) :
    receiveByte pool i_interface s b = receiveInto pool i_interface buf s b := by
  simp [receiveByte, h]

/-- A reset leaves the receiver out of frame, with or without a buffer. -/
theorem resetBuffer_outOfFrame : OutOfFrame (resetBuffer pool i_interface s).2 := by
  unfold resetBuffer
  split <;> exact ⟨Or.inl rfl, Or.inl rfl⟩

/-- A frame start is honoured in every mode but the escape mode. -/
theorem collecting_of_beginning (pool : PacketPool σ Ref) (hbuf : s.buffer = some buf)
    (hmode : s.mode ≠ .receivedEscapeChar) :
    Collecting pool (receiveByte pool i_interface s packetCharBeginning).1 buf
        .receivingPayload [] 0 ∧
      (receiveByte pool i_interface s packetCharBeginning).2 = [] := by
  rw [receiveByte_of_buffer i_interface hbuf]
  simp only [receiveInto, hmode, ne_eq, not_false_eq_true, true_and, if_true, and_true]
  exact ⟨hbuf, rfl, rfl, rfl, trivial⟩

/-- Past the length limit every byte but a frame start is dropped. -/
theorem outOfFrame_of_full (pool : PacketPool σ Ref) (hbuf : s.buffer = some buf)
    (hfull : maxPacketLen ≤ s.receivedPayloadBytes) (hb : b ≠ packetCharBeginning) :
    OutOfFrame (receiveByte pool i_interface s b).1 ∧
      (receiveByte pool i_interface s b).1.buffer = some buf ∧
      (receiveByte pool i_interface s b).2 = [] := by
  rw [receiveByte_of_buffer i_interface hbuf]
  simp only [receiveInto, hb, and_false, if_false, hfull, if_true, and_true]
  exact ⟨⟨Or.inl rfl, Or.inr hfull⟩, hbuf⟩

theorem IsControl.not_beginning (hb : ¬ IsControl b) : b ≠ packetCharBeginning :=
  fun h => hb (Or.inl h)

theorem IsControl.not_end (hb : ¬ IsControl b) : b ≠ packetCharEnd :=
  fun h => hb (Or.inr (Or.inl h))

theorem IsControl.not_escape (hb : ¬ IsControl b) : b ≠ packetCharEscape :=
  fun h => hb (Or.inr (Or.inr h))

/-- Storing a byte extends what the packet holds. -/
theorem storeReceived_holds (buf : Ref) (b : UInt8) (hp : pool.Lawful)
    (hcount : s.receivedPayloadBytes = d.length) (hlen : d.length < maxPacketLen)
    (hholds : (pool.read buf s.world).Holds d) :
    (storeReceived pool buf b s).1.receivedPayloadBytes = (d ++ [b]).length ∧
      (pool.read buf (storeReceived pool buf b s).1.world).Holds (d ++ [b]) := by
  cases d with
  | nil =>
    simp only [storeReceived, hcount, List.length_nil, if_true, hp buf]
    exact ⟨rfl, rfl, by simp⟩
  | cons id rest =>
    -- the byte goes behind the payload that is there, inside the array
    have hlt : rest.length < (pool.read buf s.world).packet.toList.length := by
      simp only [Vector.length_toList]
      simp only [List.length_cons] at hlen
      omega
    simp only [storeReceived, hp buf, hcount, List.length_cons, Nat.succ_ne_zero, if_false,
      Nat.add_sub_cancel, List.cons_append, Packet.Holds, Vector.toList_setIfInBounds,
      List.length_append, List.length_nil]
    refine ⟨by simp, hholds.1, ?_⟩
    have hset : rest.length < ((pool.read buf s.world).packet.toList.set rest.length b).length := by
      simpa using hlt
    have htake := hholds.2
    rw [Nat.zero_add, List.take_succ_eq_append_getElem hset, List.take_set_of_le (le_refl _), htake]
    simp

theorem storeReceived_frame (pool : PacketPool σ Ref) (buf : Ref) (b : UInt8)
    (s : Receiving σ Ref) :
    (storeReceived pool buf b s).1.buffer = s.buffer ∧
      (storeReceived pool buf b s).1.mode = s.mode ∧
      (storeReceived pool buf b s).1.checkSum = s.checkSum ∧
      handedOver (storeReceived pool buf b s).2 = [] := by
  unfold storeReceived
  dsimp only
  split <;> simp

/-- A byte is stored and counted in the checksum. -/
theorem Collecting.store {mode : ReceiveModus} (h : Collecting pool s buf mode d sum)
    (hp : pool.Lawful) (hlen : d.length < maxPacketLen) (b : UInt8) :
    Collecting pool
        (storeReceived pool buf b
          { s with mode := .receivingPayload, checkSum := s.checkSum + b }).1
        buf .receivingPayload (d ++ [b]) (sum + b) ∧
      handedOver (storeReceived pool buf b
        { s with mode := .receivingPayload, checkSum := s.checkSum + b }).2 = [] := by
  obtain ⟨hbuf, hmode, hsum, hout⟩ := storeReceived_frame pool buf b
    { s with mode := .receivingPayload, checkSum := s.checkSum + b }
  obtain ⟨hcount, hholds⟩ := storeReceived_holds buf b
    (s := { s with mode := .receivingPayload, checkSum := s.checkSum + b }) hp h.count hlen h.holds
  exact ⟨⟨hbuf.trans h.buffer, hmode, hcount, by rw [hsum, h.checkSum], hholds⟩, hout⟩

/-- A plain byte inside a frame is stored. -/
theorem Collecting.plain (h : Collecting pool s buf .receivingPayload d sum) (hp : pool.Lawful)
    (hlen : d.length < maxPacketLen) (hb : ¬ IsControl b) :
    Collecting pool (receiveByte pool i_interface s b).1 buf .receivingPayload (d ++ [b])
        (sum + b) ∧
      handedOver (receiveByte pool i_interface s b).2 = [] := by
  have hroom := h.room hlen
  rw [receiveByte_of_buffer i_interface h.buffer]
  simp only [receiveInto, IsControl.not_beginning hb, IsControl.not_end hb,
    IsControl.not_escape hb, and_false, if_false, hroom, h.mode]
  exact h.store hp hlen b

/-- An escape inside a frame is counted in the checksum only. -/
theorem Collecting.escape (h : Collecting pool s buf .receivingPayload d sum)
    (hlen : d.length < maxPacketLen) :
    Collecting pool (receiveByte pool i_interface s packetCharEscape).1 buf .receivedEscapeChar d
        (sum + packetCharEscape) ∧
      handedOver (receiveByte pool i_interface s packetCharEscape).2 = [] := by
  have hroom := h.room hlen
  have hb : packetCharEscape ≠ packetCharBeginning ∧ packetCharEscape ≠ packetCharEnd := by decide
  rw [receiveByte_of_buffer i_interface h.buffer]
  simp only [receiveInto, hb.1, hb.2, and_false, if_false, hroom, h.mode, if_true, handedOver_nil,
    and_true]
  exact ⟨h.buffer, rfl, h.count, by rw [h.checkSum], h.holds⟩

/-- Whatever follows an escape is stored. -/
theorem Collecting.escaped (h : Collecting pool s buf .receivedEscapeChar d sum) (hp : pool.Lawful)
    (hlen : d.length < maxPacketLen) :
    Collecting pool (receiveByte pool i_interface s b).1 buf .receivingPayload (d ++ [b])
        (sum + b) ∧
      handedOver (receiveByte pool i_interface s b).2 = [] := by
  have hroom := h.room hlen
  rw [receiveByte_of_buffer i_interface h.buffer]
  simp only [receiveInto, h.mode, ne_eq, not_true_eq_false, false_and, if_false, hroom]
  exact h.store hp hlen b

/-! ## The end of a frame -/

/-- The packet handed over when the frame with the bytes `id :: payload ++ [cs]` ends. -/
theorem message_of_holds {p : Packet} {id cs : UInt8} {payload : List UInt8}
    (h : p.Holds (id :: payload ++ [cs])) (hlen : (id :: payload ++ [cs]).length < maxPacketLen) :
    (p.withPayloadLen (id :: payload ++ [cs]).length).message = (id, payload) ∧
      (p.withPayloadLen (id :: payload ++ [cs]).length).payloadLen.toNat = payload.length := by
  have hl : (id :: payload ++ [cs]).length - sizeofChecksum - sizeofSubProtocolIdentifier =
      payload.length := by
    simp [sizeofChecksum, sizeofSubProtocolIdentifier]
  have hlt : payload.length < 2 ^ 16 := by
    simp only [List.cons_append, List.length_cons, List.length_append, List.length_nil,
      maxPacketLen] at hlen
    omega
  have hn : (UInt16.ofNat payload.length).toNat = payload.length := by
    rw [UInt16.toNat_ofNat', Nat.mod_eq_of_lt hlt]
  obtain ⟨hid, hrest⟩ := h
  have htake : p.packet.toList.take payload.length = payload := by
    have h := congrArg (List.take payload.length) hrest
    simpa [List.take_take] using h
  unfold Packet.withPayloadLen
  rw [hl]
  refine ⟨?_, hn⟩
  simp only [Packet.message, Packet.payload, hn, hid, Prod.mk.injEq, true_and]
  exact htake

theorem postReceived_spec (s : Receiving σ Ref) :
    handedOver (postReceived pool i_interface buf s).2 =
        [(pool.read buf s.world).withPayloadLen s.receivedPayloadBytes] ∧
      OutOfFrame (postReceived pool i_interface buf s).1 := by
  unfold postReceived
  exact ⟨rfl, resetBuffer_outOfFrame i_interface⟩

/-- Dropping what was collected leaves an out-of-frame receiver out of frame. -/
theorem OutOfFrame.clear (h : OutOfFrame s) :
    OutOfFrame { s with checkSum := 0, receivedPayloadBytes := 0 } :=
  ⟨h.mode, Or.inl rfl⟩

/-- After an end character at which it has room the receiver is out of frame. -/
theorem packetEnd_outOfFrame (hmode : s.mode = .receivingPacketEnd) :
    OutOfFrame (packetEnd pool i_interface buf s).1 := by
  unfold packetEnd
  dsimp only
  split
  · split
    · exact (postReceived_spec i_interface _).2.clear
    · exact ⟨Or.inl rfl, Or.inl rfl⟩
  · exact ⟨Or.inr hmode, Or.inl rfl⟩

/-- An end character is counted in the checksum and not stored. -/
theorem Collecting.receiveByte_packetCharEnd (h : Collecting pool s buf .receivingPayload d sum)
    (hlen : d.length < maxPacketLen) :
    receiveByte pool i_interface s packetCharEnd =
      packetEnd pool i_interface buf
        { s with mode := .receivingPacketEnd, checkSum := sum + packetCharEnd } := by
  have hroom := h.room hlen
  have hb : packetCharEnd ≠ packetCharBeginning := by decide
  rw [receiveByte_of_buffer i_interface h.buffer]
  simp only [receiveInto, h.mode, hb, and_false, if_false, hroom, ne_eq, reduceCtorEq,
    not_false_eq_true, true_and, if_true, h.checkSum]

/-- An end character with the right sum and enough bytes hands over the packet. -/
theorem Collecting.packetEnd_good {id cs : UInt8} {payload : List UInt8}
    (h : Collecting pool s buf .receivingPayload (id :: payload ++ [cs]) 0) (hp : pool.Lawful)
    (hlen : (id :: payload ++ [cs]).length < maxPacketLen) :
    ∃ p : Packet, handedOver (receiveByte pool i_interface s packetCharEnd).2 = [p] ∧
      p.message = (id, payload) ∧ p.payloadLen.toNat = payload.length ∧
      p.interface = i_interface := by
  have htwo : sizeofChecksum + sizeofSubProtocolIdentifier ≤ s.receivedPayloadBytes := by
    simp [h.count, sizeofChecksum, sizeofSubProtocolIdentifier]
  rw [h.receiveByte_packetCharEnd i_interface hlen]
  simp only [packetEnd, add_sub_cancel_right, htwo, if_true]
  rw [(postReceived_spec i_interface _).1]
  refine ⟨_, rfl, ?_⟩
  -- the receiving interface is written into the packet first, which leaves its bytes
  have hholds : (pool.read buf (pool.write buf
      { pool.read buf s.world with interface := i_interface } s.world)).Holds
        (id :: payload ++ [cs]) := by
    rw [hp]
    exact h.holds
  obtain ⟨hm, hl⟩ := message_of_holds hholds hlen
  rw [← h.count] at hm hl
  exact ⟨hm, hl, by rw [hp]; rfl⟩

/-- An end character with a wrong sum or too few bytes hands over nothing. -/
theorem Collecting.packetEnd_bad (h : Collecting pool s buf .receivingPayload d sum)
    (hlen : d.length < maxPacketLen) (hbad : sum ≠ 0 ∨ d.length < 2) :
    handedOver (receiveByte pool i_interface s packetCharEnd).2 = [] := by
  rw [h.receiveByte_packetCharEnd i_interface hlen]
  simp only [packetEnd, add_sub_cancel_right]
  rcases hbad with hsum | hshort
  · rw [if_neg hsum]
    rfl
  · have htwo : ¬ sizeofChecksum + sizeofSubProtocolIdentifier ≤ s.receivedPayloadBytes := by
      rw [h.count]
      simp only [sizeofChecksum, sizeofSubProtocolIdentifier]
      omega
    simp only [htwo, if_false]
    split <;> rfl

theorem Collecting.packetEnd_outOfFrame (h : Collecting pool s buf .receivingPayload d sum)
    (hlen : d.length < maxPacketLen) :
    OutOfFrame (receiveByte pool i_interface s packetCharEnd).1 := by
  rw [h.receiveByte_packetCharEnd i_interface hlen]
  exact GenericProtocol.packetEnd_outOfFrame i_interface rfl

/-! ## Out of frame -/

/-- With a buffer, out of frame, anything but a frame start changes nothing that matters. -/
theorem OutOfFrame.receiveInto_other (pool : PacketPool σ Ref) (h : OutOfFrame s)
    (hb : b ≠ packetCharBeginning) :
    OutOfFrame (receiveInto pool i_interface buf s b).1 ∧
      handedOver (receiveInto pool i_interface buf s b).2 = [] := by
  unfold receiveInto
  simp only [hb, and_false, if_false]
  split
  · rename_i hfull
    exact ⟨⟨Or.inl rfl, Or.inr hfull⟩, rfl⟩
  · rename_i hroom
    have hzero : s.receivedPayloadBytes = 0 := h.count.resolve_right hroom
    -- nothing was collected, so the end of a packet fails the test for the length
    have hend : ∀ t : Receiving σ Ref, t.mode = .receivingPacketEnd →
        t.receivedPayloadBytes = 0 →
        OutOfFrame (packetEnd pool i_interface buf t).1 ∧
          handedOver (packetEnd pool i_interface buf t).2 = [] := by
      intro t hm ht
      refine ⟨packetEnd_outOfFrame i_interface hm, ?_⟩
      have htwo : ¬ sizeofChecksum + sizeofSubProtocolIdentifier ≤ t.receivedPayloadBytes := by
        simp [ht, sizeofChecksum, sizeofSubProtocolIdentifier]
      simp only [packetEnd, htwo, if_false]
      split <;> rfl
    by_cases hE : b = packetCharEnd
    · simp only [hE, h.mode_ne, ne_eq, not_false_eq_true, true_and, if_true]
      exact hend _ rfl hzero
    · simp only [hE, and_false, if_false]
      rcases h.mode with hm | hm <;> simp only [hm]
      · exact ⟨⟨Or.inl rfl, Or.inl hzero⟩, rfl⟩
      · exact hend _ rfl hzero

/-- A receiver without a buffer is reset before the byte is looked at. -/
theorem OutOfFrame.acquire (pool : PacketPool σ Ref) (h : OutOfFrame s) :
    OutOfFrame (if s.buffer.isNone then (resetBuffer pool i_interface s).2 else s) := by
  split
  · exact resetBuffer_outOfFrame i_interface
  · exact h

/-- Out of frame, anything but a frame start changes nothing that matters. -/
theorem OutOfFrame.other (pool : PacketPool σ Ref) (h : OutOfFrame s)
    (hb : b ≠ packetCharBeginning) :
    OutOfFrame (receiveByte pool i_interface s b).1 ∧
      handedOver (receiveByte pool i_interface s b).2 = [] := by
  have hs := h.acquire i_interface pool
  unfold receiveByte
  dsimp only
  split
  · exact hs.receiveInto_other i_interface pool hb
  · exact ⟨hs, rfl⟩

/-- Out of frame, a frame start begins a packet, unless there is no buffer to be had. -/
theorem OutOfFrame.beginning (pool : PacketPool σ Ref) (h : OutOfFrame s) :
    ((∃ buf, Collecting pool (receiveByte pool i_interface s packetCharBeginning).1 buf
        .receivingPayload [] 0) ∨
      OutOfFrame (receiveByte pool i_interface s packetCharBeginning).1) ∧
      handedOver (receiveByte pool i_interface s packetCharBeginning).2 = [] := by
  have hs := h.acquire i_interface pool
  unfold receiveByte
  dsimp only
  generalize (if s.buffer.isNone then (resetBuffer pool i_interface s).2 else s) = t at hs ⊢
  cases hbuf : t.buffer with
  | none => exact ⟨Or.inr hs, rfl⟩
  | some buf =>
    obtain ⟨hc, ho⟩ := collecting_of_beginning i_interface pool hbuf hs.mode_ne
    rw [receiveByte_of_buffer i_interface hbuf] at hc ho
    exact ⟨Or.inl ⟨buf, hc⟩, by rw [ho]; rfl⟩

/-! ## Effects -/

lemma mem_packetEnd {e : Effect} (h : e ∈ (packetEnd pool i_interface buf s).2) :
    ∃ t : Receiving σ Ref, t.receivedPayloadBytes = s.receivedPayloadBytes ∧
      e ∈ (postReceived pool i_interface buf t).2 := by
  unfold packetEnd at h
  dsimp only at h
  split at h
  · split at h
    · exact ⟨_, by rfl, h⟩
    · cases h
  · cases h

/-- Where there is room, a byte is stored or ends a frame; anything else has no effect. -/
lemma mem_receiveInto {e : Effect} (h : e ∈ (receiveInto pool i_interface buf s b).2) :
    ∃ t : Receiving σ Ref, t.receivedPayloadBytes < maxPacketLen ∧
      (e ∈ (storeReceived pool buf b t).2 ∨ e ∈ (postReceived pool i_interface buf t).2) := by
  unfold receiveInto at h
  split at h
  · cases h
  dsimp only at h
  split at h
  · cases h
  rename_i hfull
  have hroom := Nat.lt_of_not_le hfull
  split at h
  · split at h
    · cases h
    · exact ⟨_, by exact hroom, Or.inl h⟩
  · exact ⟨_, by exact hroom, Or.inl h⟩
  · obtain ⟨t, ht, hpost⟩ := mem_packetEnd i_interface h
    exact ⟨t, ht ▸ hroom, Or.inr hpost⟩
  · cases h

lemma mem_receiveByte {e : Effect} (h : e ∈ (receiveByte pool i_interface s b).2) :
    ∃ (buf : Ref) (t : Receiving σ Ref), t.receivedPayloadBytes < maxPacketLen ∧
      (e ∈ (storeReceived pool buf b t).2 ∨ e ∈ (postReceived pool i_interface buf t).2) := by
  unfold receiveByte at h
  dsimp only at h
  split at h
  · exact ⟨_, mem_receiveInto i_interface h⟩
  · cases h

/-- Whatever its state, the receiver stores into `packet[]` inside the array only. -/
theorem receiveByte_store_lt {i : ℕ} (h : .store i ∈ (receiveByte pool i_interface s b).2) :
    i < maxPacketLen := by
  obtain ⟨buf, t, ht, hstore | hpost⟩ := mem_receiveByte i_interface h
  · unfold storeReceived at hstore
    dsimp only at hstore
    split at hstore
    · cases hstore
    · rw [List.mem_singleton, Effect.store.injEq] at hstore
      omega
  · unfold postReceived at hpost
    simp at hpost

end Powerboard.GenericProtocol
