import Powerboard.Protocol.ReceiveTheorems

/-!
# The frames the receiver accepts

`IsFrameBody w id payload` is the grammar of what stands between a frame start and a frame end.
`Tracking` links the state of the receiver to the bytes received so far; every byte preserves it,
and from it follows that what is handed over is the body of a frame that has just ended.
-/

namespace Powerboard.GenericProtocol

open Machine Stuffing

/-- `w` is the inside of a well-formed frame: it unstuffs to `id`, `payload` and a checksum byte, in
a total of at most 127 bytes, and its bytes, the escape bytes included, sum to 0. -/
def IsFrameBody (w : List UInt8) (id : UInt8) (payload : List UInt8) : Prop :=
  ∃ cs, Unstuffs w (id :: payload ++ [cs]) ∧ (id :: payload ++ [cs]).length < maxPacketLen ∧
    w.sum = 0

/-- The state of the receiver after the bytes `hist`: out of frame, or collecting what follows the
last frame start. -/
inductive Tracking {σ Ref : Type} (pool : PacketPool σ Ref) (hist : List UInt8)
    (s : Receiving σ Ref) : Prop
  | outOfFrame (h : OutOfFrame s)
  | payload {buf : Ref} (front w : List UInt8) {d : List UInt8}
      (hhist : hist = front ++ packetCharBeginning :: w) (hw : Unstuffs w d)
      (h : Collecting pool s buf .receivingPayload d w.sum)
  | escape {buf : Ref} (front w : List UInt8) {d : List UInt8}
      (hhist : hist = front ++ packetCharBeginning :: (w ++ [packetCharEscape]))
      (hw : Unstuffs w d) (hlen : d.length < maxPacketLen)
      (h : Collecting pool s buf .receivedEscapeChar d (w.sum + packetCharEscape))

variable {σ Ref : Type} {pool : PacketPool σ Ref} (i_interface : UInt8) {s : Receiving σ Ref}
  {buf : Ref} {hist : List UInt8}

/-! ## From the bytes to the packet -/

/-- A list of at least two elements is a first one, a middle and a last one. -/
lemma exists_cons_append_singleton {d : List UInt8} (h : 2 ≤ d.length) :
    ∃ id payload cs, d = id :: payload ++ [cs] := by
  obtain ⟨id, rest, rfl⟩ := List.exists_cons_of_length_pos (show 0 < d.length by omega)
  have hrest : rest ≠ [] := by
    rintro rfl
    simp at h
  exact ⟨id, rest.dropLast, rest.getLast hrest, by
    rw [List.cons_append, List.dropLast_append_getLast hrest]⟩

/-- A byte received while tracking is tracked, and a packet handed over for it is the body of the
frame that this byte ends, with its length and the receiving interface. -/
theorem Tracking.step (hp : pool.Lawful) (h : Tracking pool hist s) (b : UInt8) :
    Tracking pool (hist ++ [b]) (receiveByte pool i_interface s b).1 ∧
      ∀ p ∈ handedOver (receiveByte pool i_interface s b).2, b = packetCharEnd ∧
        (∃ front w, hist = front ++ packetCharBeginning :: w ∧
          IsFrameBody w p.message.1 p.message.2) ∧
        p.payloadLen.toNat = p.payload.length ∧ p.interface = i_interface := by
  have hstart : hist ++ [packetCharBeginning] = hist ++ packetCharBeginning :: [] := rfl
  rcases h with h | ⟨front, w, hhist, hw, h⟩ | ⟨front, w, hhist, hw, hlen, h⟩
  · -- only a frame start matters out of frame, and it counts if a buffer is there
    by_cases hb : b = packetCharBeginning
    · subst hb
      obtain ⟨hs, hout⟩ := h.beginning i_interface pool
      refine ⟨?_, by simp [hout]⟩
      rcases hs with ⟨buf, hc⟩ | ho
      · exact .payload _ [] hstart .nil hc
      · exact .outOfFrame ho
    · obtain ⟨ho, hout⟩ := h.other i_interface pool hb
      exact ⟨.outOfFrame ho, by simp [hout]⟩
  · rename_i buf d
    by_cases hb : b = packetCharBeginning
    · subst hb
      obtain ⟨hc, hout⟩ := collecting_of_beginning i_interface pool
        h.buffer h.mode_ne
      exact ⟨.payload _ [] hstart .nil hc, by simp [hout]⟩
    by_cases hlen : d.length < maxPacketLen
    swap
    · -- the packet is full: the receiver drops what comes until the next frame start
      obtain ⟨ho, -, hout⟩ := outOfFrame_of_full i_interface pool
        h.buffer (by rw [h.count]; omega) hb
      exact ⟨.outOfFrame ho, by simp [hout]⟩
    by_cases hE : b = packetCharEscape
    · subst hE
      obtain ⟨hc, hout⟩ := h.escape i_interface hlen
      exact ⟨.escape front w (by rw [hhist]; simp) hw hlen hc, by simp [hout]⟩
    by_cases hF : b = packetCharEnd
    · subst hF
      refine ⟨.outOfFrame (h.packetEnd_outOfFrame i_interface hlen), fun p hmem => ⟨rfl, ?_⟩⟩
      -- the tests at the end of a frame are those of the grammar
      by_cases hgood : w.sum = 0 ∧ 2 ≤ d.length
      · obtain ⟨id, payload, cs, rfl⟩ := exists_cons_append_singleton hgood.2
        rw [hgood.1] at h
        obtain ⟨q, hq, hm, hl, hi⟩ := h.packetEnd_good i_interface hp hlen
        rw [hq, List.mem_singleton] at hmem
        subst hmem
        have hpayload : p.payload = payload := congrArg Prod.snd hm
        refine ⟨⟨front, w, hhist, ?_⟩, by rw [hl, hpayload], hi⟩
        rw [hm]
        exact ⟨cs, hw, hlen, hgood.1⟩
      · have hbad : w.sum ≠ 0 ∨ d.length < 2 := by
          by_cases hsum : w.sum = 0
          · exact Or.inr (by have := mt (And.intro hsum) hgood; omega)
          · exact Or.inl hsum
        rw [h.packetEnd_bad i_interface hlen hbad] at hmem
        simp at hmem
    · have hctl : ¬ IsControl b := by simp [IsControl, hb, hE, hF]
      obtain ⟨hc, hout⟩ := h.plain i_interface hp hlen hctl
      have hsum : w.sum + b = (w ++ [b]).sum := by simp
      rw [hsum] at hc
      exact ⟨.payload front (w ++ [b]) (by rw [hhist]; simp) (hw.append (stuffed_plain hctl)) hc,
        by simp [hout]⟩
  · rename_i buf d
    obtain ⟨hc, hout⟩ := h.escaped i_interface (b := b) hp hlen
    have hsum : w.sum + packetCharEscape + b = (w ++ [packetCharEscape, b]).sum := by
      simp [add_assoc]
    rw [hsum] at hc
    exact ⟨.payload front (w ++ [packetCharEscape, b]) (by rw [hhist]; simp)
      (hw.append (stuffed_pair b)) hc, by simp [hout]⟩

/-- The receiver is tracking after every byte stream. -/
theorem tracking_receiveIndication (hp : pool.Lawful) (w : σ) (bytes : List UInt8) :
    Tracking pool bytes (receiveIndication pool i_interface (init pool i_interface w) bytes).1 := by
  have h0 : Tracking pool [] (init pool i_interface w) :=
    .outOfFrame (resetBuffer_outOfFrame i_interface)
  have h := feed_induction (receiveByte pool i_interface) (fun s hist => Tracking pool hist s)
    [] h0 (fun s hist b hs => (hs.step i_interface hp b).1) bytes
  exact h

/-! ## From the frame to the packet -/

/-- Inside a frame, stuffed bytes are collected as long as there is room. -/
theorem Collecting.feed_stuffed (hp : pool.Lawful) {w d' : List UInt8} (hw : Unstuffs w d') :
    ∀ {s : Receiving σ Ref} {d : List UInt8} {sum : UInt8},
      Collecting pool s buf .receivingPayload d sum → (d ++ d').length ≤ maxPacketLen →
      Collecting pool (receiveIndication pool i_interface s w).1 buf .receivingPayload (d ++ d')
          (sum + w.sum) ∧
        handedOver (receiveIndication pool i_interface s w).2 = [] := by
  induction hw with
  | nil =>
    intro s d sum h hlen
    simpa using h
  | plain hx _ ih =>
    intro s d sum h hlen
    simp only [List.length_append, List.length_cons] at hlen
    obtain ⟨hc, hout⟩ := h.plain i_interface hp (by omega) hx
    obtain ⟨hc', hout'⟩ := ih hc (by simp only [List.length_append, List.length_singleton]; omega)
    rw [receiveIndication_cons]
    refine ⟨?_, by rw [handedOver_append, hout, hout']; rfl⟩
    simpa [add_assoc] using hc'
  | pair _ ih =>
    intro s d sum h hlen
    simp only [List.length_append, List.length_cons] at hlen
    obtain ⟨hc, hout⟩ := h.escape i_interface (by omega)
    obtain ⟨hc', hout'⟩ := hc.escaped i_interface hp (by omega)
    obtain ⟨hc'', hout''⟩ := ih hc'
      (by simp only [List.length_append, List.length_singleton]; omega)
    rw [receiveIndication_cons, receiveIndication_cons]
    refine ⟨?_, by rw [handedOver_append, handedOver_append, hout, hout', hout'']; rfl⟩
    simpa [add_assoc] using hc''

/-- A whole frame, from any state with a buffer outside the escape mode: only the last byte hands
over a packet, and it is the one in the frame. -/
theorem receive_frame (hp : pool.Lawful) (hbuf : s.buffer = some buf)
    (hmode : s.mode ≠ .receivedEscapeChar) {w payload : List UInt8} {id : UInt8}
    (hw : IsFrameBody w id payload) :
    handedOver (receiveIndication pool i_interface s (packetCharBeginning :: w)).2 = [] ∧
      ∃ p : Packet, handedOver (receiveByte pool i_interface
          (receiveIndication pool i_interface s (packetCharBeginning :: w)).1 packetCharEnd).2 = [p] ∧
        p.message = (id, payload) ∧ p.payloadLen.toNat = payload.length ∧
        p.interface = i_interface := by
  obtain ⟨cs, hstuffed, hlen, hsum⟩ := hw
  obtain ⟨hc, hout⟩ := collecting_of_beginning i_interface pool hbuf hmode
  obtain ⟨hc', hout'⟩ := hc.feed_stuffed i_interface hp hstuffed
    (by rw [List.nil_append]; omega)
  rw [receiveIndication_cons]
  refine ⟨by rw [handedOver_append, hout, hout']; rfl, ?_⟩
  rw [hsum, add_zero, List.nil_append] at hc'
  exact hc'.packetEnd_good i_interface hp hlen

/-! ## The grammar -/

/-- The receiver accepts exactly its grammar. From the initial state, for every byte stream and
every pattern of buffer availability and post results: a packet is handed over on a frame end only,
when the bytes since the last frame start are the body of a frame with its id and payload; when the
receiver has a buffer and is not in the escape mode, a frame hands over its packet and no other;
and no store is outside `packet[]`. -/
theorem receiver_accepts_exactly_frames (i_interface : UInt8) (world : Pattern)
    (bytes : List UInt8) :
    (∀ pre b post, bytes = pre ++ b :: post →
      ∀ p ∈ handedOver (receiveByte patternPool i_interface (receiveIndication patternPool i_interface
          (init patternPool i_interface world) pre).1 b).2,
        b = packetCharEnd ∧ ∃ front w, pre = front ++ packetCharBeginning :: w ∧
          IsFrameBody w p.message.1 p.message.2) ∧
    (∀ s, s = (receiveIndication patternPool i_interface
          (init patternPool i_interface world) bytes).1 →
      s.buffer.isSome → s.mode ≠ .receivedEscapeChar →
      ∀ w id payload, IsFrameBody w id payload →
        ∃ p : Packet, p.message = (id, payload) ∧
          handedOver (receiveIndication patternPool i_interface s
            (packetCharBeginning :: w ++ [packetCharEnd])).2 = [p]) ∧
    ∀ i, .store i ∈ (receiveIndication patternPool i_interface
        (init patternPool i_interface world) bytes).2 → i < maxPacketLen := by
  refine ⟨?_, ?_, ?_⟩
  · intro pre b post _ p hmem
    obtain ⟨hb, hframe, -, -⟩ := ((tracking_receiveIndication i_interface patternPool_lawful world
      pre).step i_interface patternPool_lawful b).2 p hmem
    exact ⟨hb, hframe⟩
  · intro s _ hbuf hmode w id payload hw
    obtain ⟨buf, hbuf⟩ := Option.isSome_iff_exists.mp hbuf
    obtain ⟨hquiet, p, hout, hm, -, -⟩ :=
      receive_frame i_interface patternPool_lawful hbuf hmode hw
    refine ⟨p, hm, ?_⟩
    rw [receiveIndication_append, handedOver_append, hquiet, receiveIndication_singleton, hout]
    rfl
  · intro i hi
    obtain ⟨pre, b, post, -, hstore⟩ := mem_feed_outputs _ hi
    exact receiveByte_store_lt i_interface hstore

/-- The receiver has a buffer from the start, if one is free, also inside of a frame. -/
example :
    let s := (receiveIndication patternPool 0 (init patternPool 0 .unlimited)
      [packetCharBeginning, 4, 1]).1
    s.buffer.isSome = true ∧ s.mode = .receivingPayload := by decide

end Powerboard.GenericProtocol
