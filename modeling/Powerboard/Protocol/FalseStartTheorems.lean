import Powerboard.Protocol.StreamTheorems

/-!
# A false start can always be brought about

For a stream with a false start there is a pattern of buffer availability under which a packet is
posted that was not sent: the messages before the false start are received, then there is no buffer
until the false start, and from there on there is always one. `supply a k` is this pattern: `a`
buffers, then `k` refusals, then no end of buffers.
-/

namespace Powerboard.GenericProtocol

open Machine Stuffing

/-- The availability of buffers: `a` times one, then `k` times none, then always one. -/
def supply (a k : ℕ) : ℕ → Option ℕ := fun n => if a ≤ n ∧ n < a + k then none else some 0

lemma supply_succ_shift (a k : ℕ) : (fun n => supply (a + 1) k (n + 1)) = supply a k := by
  funext n
  simp only [supply]
  congr 1
  simp only [eq_iff_iff]
  omega

lemma supply_zero_shift (k : ℕ) : (fun n => supply 0 (k + 1) (n + 1)) = supply 0 k := by
  funext n
  simp only [supply]
  congr 1
  simp only [eq_iff_iff]
  omega

lemma supply_end_shift : (fun n => supply 0 0 (n + 1)) = supply 0 0 := rfl

/-- The coming buffers are `supply a k`, and every post succeeds. -/
structure Supplied (a k : ℕ) (s : Receiving Pattern ℕ) : Prop where
  available : s.world.available = supply a k
  accepted : s.world.accepted = fun _ => true

lemma Supplied.of_same {a k : ℕ} {s t : Receiving Pattern ℕ} (h : Supplied a k s)
    (hst : SameSupply s t) : Supplied a k t :=
  ⟨hst.available.trans h.available, hst.accepted.trans h.accepted⟩

variable (i_interface : UInt8) {s : Receiving Pattern ℕ}

/-! ## Without a buffer -/

/-- While buffers are refused, a byte uses up one refusal and nothing else happens. -/
lemma starved_step {k : ℕ} (hbuf : s.buffer = none) (h : Supplied 0 (k + 1) s) (b : UInt8) :
    (receiveByte patternPool i_interface s b).1.buffer = none ∧
      Supplied 0 k (receiveByte patternPool i_interface s b).1 ∧
      OutOfFrame (receiveByte patternPool i_interface s b).1 ∧
      (receiveByte patternPool i_interface s b).2 = [] := by
  have hnone : s.world.available 0 = none := by
    rw [h.available]
    simp [supply]
  obtain ⟨hbuf', havailable, haccepted⟩ := resetBuffer_supply i_interface s
  rw [hnone, hbuf, Option.or_none] at hbuf'
  rw [h.available, supply_zero_shift] at havailable
  have hstep : receiveByte patternPool i_interface s b =
      ((resetBuffer patternPool i_interface s).2, []) := by
    simp [receiveByte, hbuf, hbuf']
  rw [hstep]
  exact ⟨hbuf', ⟨havailable, haccepted.trans h.accepted⟩, resetBuffer_outOfFrame i_interface, rfl⟩

lemma starved_run {k : ℕ} (bytes : List UInt8) (hbuf : s.buffer = none) (ho : OutOfFrame s)
    (h : Supplied 0 (bytes.length + k) s) :
    (receiveIndication patternPool i_interface s bytes).1.buffer = none ∧
      Supplied 0 k (receiveIndication patternPool i_interface s bytes).1 ∧
      OutOfFrame (receiveIndication patternPool i_interface s bytes).1 ∧
      (receiveIndication patternPool i_interface s bytes).2 = [] := by
  induction bytes generalizing s with
  | nil => exact ⟨hbuf, by simpa using h, ho, rfl⟩
  | cons b bytes ih =>
    have h' : Supplied 0 (bytes.length + k + 1) s := by
      rw [List.length_cons] at h
      convert h using 1
      omega
    obtain ⟨hbuf', hs', ho', hout⟩ := starved_step i_interface hbuf h' b
    obtain ⟨hbuf'', hs'', ho'', hout'⟩ := ih hbuf' ho' hs'
    rw [receiveIndication_cons]
    exact ⟨hbuf'', hs'', ho'', by rw [hout, hout']; rfl⟩

/-! ## The messages before the false start -/

/-- Out of frame, with `n` more buffers counting the one at hand, then `k` refusals. -/
def Ready : ℕ → ℕ → Receiving Pattern ℕ → Prop
  | 0, k, s => OutOfFrame s ∧ s.buffer = none ∧ Supplied 0 k s
  | a + 1, k, s => OutOfFrame s ∧ s.buffer = some 0 ∧ Supplied a k s

lemma Ready.outOfFrame {n k : ℕ} (h : Ready n k s) : OutOfFrame s := by
  cases n with
  | zero => exact h.1
  | succ n => exact h.1

/-- The receiver can be started with any number of buffers and refusals. -/
lemma exists_ready_init (n k : ℕ) : ∃ world, Ready n k (init patternPool i_interface world) := by
  cases n with
  | zero =>
    obtain ⟨hbuf, havailable, haccepted⟩ := resetBuffer_supply i_interface
      (zeroed { Pattern.unlimited with available := supply 0 (k + 1) })
    refine ⟨_, resetBuffer_outOfFrame i_interface, hbuf.trans ?_, havailable.trans ?_, haccepted⟩
    · simp [zeroed, supply]
    · exact supply_zero_shift k
  | succ a =>
    obtain ⟨hbuf, havailable, haccepted⟩ := resetBuffer_supply i_interface
      (zeroed { Pattern.unlimited with available := supply (a + 1) k })
    refine ⟨_, resetBuffer_outOfFrame i_interface, hbuf.trans ?_, havailable.trans ?_, haccepted⟩
    · simp [zeroed, supply]
    · exact supply_succ_shift a k

/-- The message is short enough to be received. -/
def Message.Deliverable (m : Message) : Prop := m.payload.length ≤ 125

instance : DecidablePred Message.Deliverable := fun m =>
  inferInstanceAs (Decidable (m.payload.length ≤ 125))

/-- A short message is posted, whatever it contains, and a new buffer is acquired. -/
lemma post_deliverable {buf : ℕ} (ho : OutOfFrame s) (hbuf : s.buffer = some buf)
    (haccepted : s.world.accepted 0 = true) {m : Message} (hm : m.Deliverable) :
    (posted (receiveIndication patternPool i_interface s m.wire).2).map Packet.message =
        [m.content] ∧
      NextSupply buf s (receiveIndication patternPool i_interface s m.wire).1 := by
  obtain ⟨p, hp⟩ := exists_delivered i_interface hbuf ho.mode_ne
    (isFrameBody_frameBody m.subProtocolID m.payload hm)
  rw [m.wire_eq, hp.posted, haccepted, if_pos rfl, List.map_singleton, hp.message]
  exact ⟨rfl, hp.supply⟩

/-- Nothing is handed over for a message that is too long, if it has no false start. -/
lemma quiet_of_not_deliverable (ho : OutOfFrame s) {m : Message} (hm : ¬ m.Deliverable)
    (hgood : ¬ m.HasFalseStart) :
    handedOver (receiveIndication patternPool i_interface s m.wire).2 = [] := by
  obtain ⟨-, hnone | ⟨p, hp, heq | hbad⟩⟩ := ho.message i_interface patternPool_lawful m
  · exact hnone
  · have hmem : p ∈ handedOver (receiveIndication patternPool i_interface s m.wire).2 := by
      rw [hp]
      exact List.mem_singleton_self p
    have hshort := handedOver_payload_length_of_run hmem
    have hpayload : p.payload = m.payload := congrArg Prod.snd heq
    rw [hpayload] at hshort
    exact absurd hshort hm
  · exact absurd hbad hgood

/-- After a post the receiver has one buffer less, and one refusal less when that was the last. -/
lemma Ready.next {n k : ℕ} {t : Receiving Pattern ℕ}
    (h : Ready (n + 1) ((if n = 0 then 1 else 0) + k) s) (hnext : NextSupply 0 s t)
    (ht : OutOfFrame t) : Ready n k t := by
  obtain ⟨-, hbuf, hs⟩ := h
  have haccepted : t.world.accepted = fun _ => true := by
    rw [hnext.accepted, hs.accepted]
  have hbuffer := hnext.buffer
  have havailable := hnext.available
  rw [hs.available, hs.accepted] at hbuffer
  rw [hs.available] at havailable
  cases n with
  | zero =>
    rw [if_pos rfl, Nat.add_comm] at hbuffer havailable
    rw [supply_zero_shift] at havailable
    exact ⟨ht, by simpa [supply] using hbuffer, havailable, haccepted⟩
  | succ a =>
    rw [if_neg (Nat.succ_ne_zero a), Nat.zero_add] at hbuffer havailable
    rw [supply_succ_shift] at havailable
    exact ⟨ht, by simpa [supply] using hbuffer, havailable, haccepted⟩

/-- Out of frame with as many buffers as there are short messages: the receiver takes all of these,
and then there is none left. `c` counts the refusals on the way. -/
lemma receive_deliverable (msgs : List Message) (hgood : ∀ m ∈ msgs, ¬ m.HasFalseStart) :
    ∃ c, ∀ k s, Ready (msgs.filter Message.Deliverable).length (c + k) s →
      Ready 0 k (receiveIndication patternPool i_interface s (msgs.flatMap Message.wire)).1 ∧
        (posted (receiveIndication patternPool i_interface s (msgs.flatMap Message.wire)).2).map
          Packet.message = (msgs.filter Message.Deliverable).map Message.content := by
  induction msgs with
  | nil => exact ⟨0, fun k s h => ⟨by simpa using h, rfl⟩⟩
  | cons m msgs ih =>
    obtain ⟨c, hc⟩ := ih fun m' hm' => hgood m' (List.mem_cons_of_mem m hm')
    have hm := hgood m List.mem_cons_self
    simp only [List.flatMap_cons, receiveIndication_append, posted_append, List.map_append]
    by_cases hd : m.Deliverable
    · rw [List.filter_cons_of_pos (by simpa using hd)]
      refine ⟨(if (msgs.filter Message.Deliverable).length = 0 then 1 else 0) + c, fun k s h => ?_⟩
      have ho := h.outOfFrame.message i_interface patternPool_lawful m
      rw [List.length_cons, Nat.add_assoc] at h
      obtain ⟨hout, hnext⟩ := post_deliverable i_interface h.outOfFrame h.2.1
        (by rw [h.2.2.accepted]) hd
      obtain ⟨hready, hrest⟩ := hc k _ (h.next hnext ho.1)
      exact ⟨hready, by rw [hrest]; exact congrArg (· ++ _) hout⟩
    · rw [List.filter_cons_of_neg (by simpa using hd)]
      cases hn : (msgs.filter Message.Deliverable).length with
      | zero =>
        -- no buffer is left, so every byte of the message uses up a refusal
        refine ⟨m.wire.length + c, fun k s h => ?_⟩
        rw [Nat.add_assoc] at h
        obtain ⟨hbuf, hs, ho, hout⟩ := starved_run i_interface m.wire h.2.1 h.1 h.2.2
        rw [hn] at hc
        obtain ⟨hready, hrest⟩ := hc k _ ⟨ho, hbuf, hs⟩
        exact ⟨hready, by rw [hrest, hout]; rfl⟩
      | succ a =>
        refine ⟨c, fun k s h => ?_⟩
        rw [hn] at hc
        have ho := h.outOfFrame.message i_interface patternPool_lawful m
        have hquiet := quiet_of_not_deliverable i_interface h.outOfFrame hd hm
        have hsame := receiveIndication_quiet i_interface h.2.1 hquiet
        obtain ⟨hready, hrest⟩ := hc k _ ⟨ho.1, hsame.buffer.trans h.2.1, h.2.2.of_same hsame⟩
        have hnil := posted_eq_nil hquiet
        exact ⟨hready, by rw [hrest, hnil]; rfl⟩

/-! ## The false start and what comes after it -/

/-- With no end of buffers the receiver keeps having one. -/
lemma unlimited_run (bytes : List UInt8) (hbuf : s.buffer = some 0) (h : Supplied 0 0 s) :
    (receiveIndication patternPool i_interface s bytes).1.buffer = some 0 ∧
      Supplied 0 0 (receiveIndication patternPool i_interface s bytes).1 := by
  induction bytes generalizing s with
  | nil => exact ⟨hbuf, h⟩
  | cons b bytes ih =>
    rw [receiveIndication_cons]
    rcases receiveByte_supply i_interface (b := b) hbuf with ⟨hsame, -⟩ | ⟨hnext, -⟩
    · exact ih (hsame.buffer.trans hbuf) (h.of_same hsame)
    · refine ih ?_ ⟨?_, ?_⟩
      · rw [hnext.buffer, h.available]
        simp [supply]
      · rw [hnext.available, h.available]
        exact supply_end_shift
      · rw [hnext.accepted, h.accepted]

/-- With no end of buffers at least the short messages are posted. -/
lemma unlimited_posts (msgs : List Message) (ho : OutOfFrame s) (hbuf : s.buffer = some 0)
    (h : Supplied 0 0 s) :
    (msgs.filter Message.Deliverable).length ≤
      (posted (receiveIndication patternPool i_interface s (msgs.flatMap Message.wire)).2).length := by
  induction msgs generalizing s with
  | nil => simp
  | cons m msgs ih =>
    obtain ⟨hbuf', h'⟩ := unlimited_run i_interface m.wire hbuf h
    have hrest := ih (ho.message i_interface patternPool_lawful m).1 hbuf' h'
    rw [List.flatMap_cons, receiveIndication_append, posted_append, List.length_append]
    by_cases hd : m.Deliverable
    · have hone := congrArg List.length
        (post_deliverable i_interface ho hbuf (by rw [h.accepted]) hd).1
      rw [List.length_map, List.length_singleton] at hone
      rw [List.filter_cons_of_pos (by simpa using hd), List.length_cons, hone]
      omega
    · rw [List.filter_cons_of_neg (by simpa using hd)]
      omega

/-- Without a buffer, a byte is received as after the reset that acquires one. -/
lemma receiveByte_of_reset {buf : ℕ} (hbuf : s.buffer = none)
    (hreset : (resetBuffer patternPool i_interface s).2.buffer = some buf) (b : UInt8) :
    receiveByte patternPool i_interface s b =
      receiveByte patternPool i_interface (resetBuffer patternPool i_interface s).2 b := by
  simp [receiveByte, hbuf, hreset]

/-- What follows a false start, with the checksum of the message, is the body of a frame. -/
lemma isFrameBody_of_falseStart {m : Message} {before rest : List UInt8} {id : UInt8}
    (hpayload : m.payload = before ++ packetCharBeginning :: id :: rest)
    (hle : (id :: rest).length ≤ 126)
    (hsum : (stuffed (m.subProtocolID :: before ++ [packetCharBeginning])).sum = 0) :
    IsFrameBody (stuffed (id :: rest) ++
      sendChecksum (stuffed (m.subProtocolID :: m.payload)).sum) id rest := by
  obtain ⟨⟨cs, hcs⟩, hwhole⟩ := sendChecksum_spec (stuffed (m.subProtocolID :: m.payload)).sum
  have hsplit : stuffed (m.subProtocolID :: m.payload) =
      stuffed (m.subProtocolID :: before ++ [packetCharBeginning]) ++ stuffed (id :: rest) := by
    rw [hpayload, ← stuffed_append]
    simp
  refine ⟨cs, (stuffed_stuff _ _ _).append hcs, ?_, ?_⟩
  · simp only [List.cons_append, List.length_cons, List.length_append, List.length_nil,
      maxPacketLen] at hle ⊢
    omega
  · rw [hsplit, List.sum_append, hsum, zero_add] at hwhole
    rw [List.sum_append, hsplit, List.sum_append, hsum, zero_add]
    exact hwhole

/-- A message with a false start, received without a buffer until the false start and with buffers
from then on: the rest of the payload is posted as a packet of its own. -/
lemma false_start_posted {m : Message} (hm : m.HasFalseStart) :
    ∃ k, ∃ content : UInt8 × List UInt8, content.2.length < m.payload.length ∧
      ∀ s : Receiving Pattern ℕ, Ready 0 k s →
        (posted (receiveIndication patternPool i_interface s m.wire).2).map Packet.message =
            [content] ∧
          Ready 1 0 (receiveIndication patternPool i_interface s m.wire).1 := by
  obtain ⟨before, after, hpayload, hpos, hle, hsum⟩ := hm
  obtain ⟨id, rest, rfl⟩ := List.exists_cons_of_length_pos hpos
  have hframe := isFrameBody_of_falseStart hpayload hle hsum
  set checksum := sendChecksum (stuffed (m.subProtocolID :: m.payload)).sum with hchecksum
  set early := packetCharBeginning :: stuffed (m.subProtocolID :: before) ++ [packetCharEscape]
    with hearly
  have hwire : m.wire = early ++
      (packetCharBeginning :: (stuffed (id :: rest) ++ checksum) ++ [packetCharEnd]) := by
    have hsplit : stuffed (m.subProtocolID :: m.payload) = stuffed (m.subProtocolID :: before) ++
        ([packetCharEscape, packetCharBeginning] ++ stuffed (id :: rest)) := by
      rw [hpayload, ← List.cons_append, stuffed_append, stuffed_cons packetCharBeginning,
        stuffed_of_control (Or.inl rfl)]
    rw [m.wire_eq, frameBody, ← hchecksum, hsplit, hearly]
    simp
  refine ⟨early.length, (id, rest), ?_, fun s h => ?_⟩
  · rw [hpayload]
    simp only [List.length_append, List.length_cons]
    omega
  have hout := (h.1.message i_interface patternPool_lawful m).1
  -- up to the false start every byte is refused a buffer, the last refusal included
  obtain ⟨hbuf, hs, -, hquiet⟩ := starved_run i_interface (k := 0) early h.2.1 h.1 h.2.2
  set s1 := (receiveIndication patternPool i_interface s early).1
  obtain ⟨hbuf2, havailable2, haccepted2⟩ := resetBuffer_supply i_interface s1
  rw [hs.available, hbuf] at hbuf2
  rw [hs.available, supply_end_shift] at havailable2
  have hs2 : Supplied 0 0 (resetBuffer patternPool i_interface s1).2 :=
    ⟨havailable2, haccepted2.trans hs.accepted⟩
  obtain ⟨p, hp⟩ := exists_delivered i_interface hbuf2
    (resetBuffer_outOfFrame i_interface).mode_ne hframe
  -- the false start gets the first buffer, and is received as a frame start
  have hreceive : receiveIndication patternPool i_interface s1
      (packetCharBeginning :: (stuffed (id :: rest) ++ checksum) ++ [packetCharEnd]) =
      receiveIndication patternPool i_interface (resetBuffer patternPool i_interface s1).2
        (packetCharBeginning :: (stuffed (id :: rest) ++ checksum) ++ [packetCharEnd]) := by
    rw [List.cons_append, receiveIndication_cons, receiveIndication_cons,
      receiveByte_of_reset i_interface hbuf hbuf2]
  have hrun := unlimited_run i_interface (packetCharBeginning ::
    (stuffed (id :: rest) ++ checksum) ++ [packetCharEnd]) hbuf2 hs2
  rw [← hreceive] at hrun
  rw [hwire, receiveIndication_append] at hout
  rw [hwire, receiveIndication_append, hquiet, List.nil_append]
  refine ⟨?_, hout, hrun.1, hrun.2⟩
  change List.map Packet.message (posted (receiveIndication patternPool i_interface s1 _).2) = _
  rw [hreceive, hp.posted, hs2.accepted, if_pos rfl, List.map_singleton, hp.message]

/-! ## The whole stream -/

lemma posted_payload_length (bytes : List UInt8) :
    ∀ c ∈ (posted (receiveIndication patternPool i_interface s bytes).2).map Packet.message,
      c.2.length ≤ 125 := by
  intro c hc
  obtain ⟨p, hp, rfl⟩ := List.mem_map.mp hc
  exact handedOver_payload_length_of_run ((posted_sublist_handedOver _).subset hp)

/-- Too many packets: the short messages before `m`, then one that is not `m`, then as many as there
are short messages after `m`. -/
lemma not_sublist_of_length {before after : List Message} {m : Message}
    {content : UInt8 × List UInt8} {rest : List (UInt8 × List UInt8)}
    (hshort : content.2.length < m.payload.length)
    (hrest : (after.filter Message.Deliverable).length ≤ rest.length)
    (hlen : ∀ c ∈ (before.filter Message.Deliverable).map Message.content ++ content :: rest,
      c.2.length ≤ 125) :
    ¬ ((before.filter Message.Deliverable).map Message.content ++ content :: rest).Sublist
      ((before ++ m :: after).map Message.content) := by
  intro hsub
  -- among the short messages the posted packets would have to be all, `m` in its place
  have hfilter := hsub.filter fun c => decide (c.2.length ≤ 125)
  have hdeliverable : (fun c : UInt8 × List UInt8 => decide (c.2.length ≤ 125)) ∘ Message.content =
      fun m => decide m.Deliverable := rfl
  rw [List.filter_eq_self.mpr (by simpa using hlen), List.filter_map, hdeliverable,
    List.filter_append, List.map_append, List.append_sublist_append_left] at hfilter
  by_cases hd : m.Deliverable
  · rw [List.filter_cons_of_pos (by simpa using hd), List.map_cons] at hfilter
    have heq := hfilter.eq_of_length_le (by simpa using hrest)
    rw [List.cons.injEq] at heq
    rw [heq.1] at hshort
    exact absurd hshort (lt_irrefl _)
  · rw [List.filter_cons_of_neg (by simpa using hd)] at hfilter
    have hle := hfilter.length_le
    rw [List.length_map, List.length_cons] at hle
    omega

/-- If a message has a false start, under some pattern the posted packets are no subsequence of the
messages. -/
lemma exists_not_sublist {msgs : List Message} (hbad : ∃ m ∈ msgs, m.HasFalseStart) :
    ∃ world, ¬ ((posted (receiveIndication patternPool i_interface
      (init patternPool i_interface world) (msgs.flatMap Message.wire)).2).map
        Packet.message).Sublist (msgs.map Message.content) := by
  classical
  -- `m` is the first message with a false start
  have hsome : (msgs.find? fun m => decide m.HasFalseStart).isSome := by
    simpa [List.find?_isSome] using hbad
  obtain ⟨m, hm⟩ := Option.isSome_iff_exists.mp hsome
  obtain ⟨hfalse, before, after, rfl, hgood⟩ := List.find?_eq_some_iff_append.mp hm
  simp only [decide_eq_true_eq] at hfalse
  obtain ⟨c, hbefore⟩ := receive_deliverable i_interface before (by simpa using hgood)
  obtain ⟨k, content, hshort, hposted⟩ := false_start_posted i_interface hfalse
  obtain ⟨world, hready⟩ := exists_ready_init i_interface
    (before.filter Message.Deliverable).length (c + k)
  refine ⟨world, fun hsub => ?_⟩
  obtain ⟨hready1, hout1⟩ := hbefore k _ hready
  obtain ⟨hout2, hready2⟩ := hposted _ hready1
  have hout3 := unlimited_posts i_interface after hready2.1 hready2.2.1 hready2.2.2
  have hlen := posted_payload_length i_interface (s := init patternPool i_interface world)
    ((before ++ m :: after).flatMap Message.wire)
  rw [List.flatMap_append, List.flatMap_cons] at hsub hlen
  simp only [receiveIndication_append, posted_append, List.map_append, hout1, hout2] at hsub hlen
  rw [← List.map_append] at hsub
  exact not_sublist_of_length hshort (by simpa using hout3) hlen hsub

/-- For every list of messages: whatever the availability of buffers and the results of the posts,
the packets handed over, and those posted, are a subsequence of the messages sent, if and only if no
message has a false start. -/
theorem received_subsequence_iff_no_false_start (i_interface : UInt8) (msgs : List Message) :
    ((∀ world, ((handedOver (receiveIndication patternPool i_interface
        (init patternPool i_interface world) (msgs.flatMap Message.wire)).2).map
          Packet.message).Sublist (msgs.map Message.content)) ↔ ∀ m ∈ msgs, ¬ m.HasFalseStart) ∧
    ((∀ world, ((posted (receiveIndication patternPool i_interface
        (init patternPool i_interface world) (msgs.flatMap Message.wire)).2).map
          Packet.message).Sublist (msgs.map Message.content)) ↔ ∀ m ∈ msgs, ¬ m.HasFalseStart) := by
  have hsufficient : (∀ m ∈ msgs, ¬ m.HasFalseStart) → ∀ world, ((handedOver (receiveIndication
      patternPool i_interface (init patternPool i_interface world)
        (msgs.flatMap Message.wire)).2).map Packet.message).Sublist (msgs.map Message.content) :=
    fun hgood world => (resetBuffer_outOfFrame i_interface).messages i_interface
      patternPool_lawful msgs hgood
  have hposted : ∀ world, ((posted (receiveIndication patternPool i_interface
      (init patternPool i_interface world) (msgs.flatMap Message.wire)).2).map Packet.message).Sublist
        ((handedOver (receiveIndication patternPool i_interface
          (init patternPool i_interface world) (msgs.flatMap Message.wire)).2).map Packet.message) :=
    fun world => (posted_sublist_handedOver _).map _
  have hnecessary : (∀ world, ((posted (receiveIndication patternPool i_interface
      (init patternPool i_interface world) (msgs.flatMap Message.wire)).2).map
        Packet.message).Sublist (msgs.map Message.content)) → ∀ m ∈ msgs, ¬ m.HasFalseStart := by
    intro h m hm hfalse
    obtain ⟨world, hnot⟩ := exists_not_sublist i_interface ⟨m, hm, hfalse⟩
    exact hnot (h world)
  exact ⟨⟨fun h => hnecessary fun world => (hposted world).trans (h world), hsufficient⟩,
    ⟨hnecessary, fun hgood world => (hposted world).trans (hsufficient hgood world)⟩⟩

/-- A message of 129 bytes, the last but one of which looks like a frame start, at a sum of 0. -/
def Message.withFalseStart : Message :=
  { subProtocolID := 0xd4, payload := List.replicate 127 0 ++ [0xf0, 0x07], size_lt := by simp }

set_option maxRecDepth 10000 in
/-- With a buffer at every request and a slot for every post, the one message with the id `0xd4` and
129 bytes of payload is received as a message with the id `0x07` and no payload. -/
theorem overlong_message_posts_other_packet :
    (posted (receiveIndication patternPool 0 (init patternPool 0 Pattern.unlimited)
      ([Message.withFalseStart].flatMap Message.wire)).2).map Packet.message = [(0x07, [])] ∧
    ¬ ((posted (receiveIndication patternPool 0 (init patternPool 0 Pattern.unlimited)
      ([Message.withFalseStart].flatMap Message.wire)).2).map Packet.message).Sublist
        ([Message.withFalseStart].map Message.content) := by
  have hposted : (posted (receiveIndication patternPool 0 (init patternPool 0 Pattern.unlimited)
      ([Message.withFalseStart].flatMap Message.wire)).2).map Packet.message = [(0x07, [])] := by
    decide +kernel
  refine ⟨hposted, ?_⟩
  rw [hposted]
  decide +kernel

end Powerboard.GenericProtocol
