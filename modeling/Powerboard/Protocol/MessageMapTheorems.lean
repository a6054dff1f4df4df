import Powerboard.Protocol.ChunksTheorems
import Powerboard.Protocol.MessageMap
import Powerboard.Protocol.PacketBuffersTheorems

/-!
# A message that is sent by one node arrives at the other

The sender looks the internal id up and writes the external id and the data as two chunks; the
receiver reads the id back, looks it up, and compares the size of the rest with that of the pool. The
sizes of the pools are multiples of 4, which the size of a packet without an id is not: it wraps to
`2 ^ 16 - 2` or `2 ^ 16 - 1`.
-/

namespace Powerboard.MsgProxy

open Bytes MsgPump GenericProtocol

/-- In a list with different keys, the search for a key finds the entry that has it. -/
lemma find?_key_eq_some_iff {α κ : Type} [DecidableEq κ] {key : α → κ} {l : List α}
    (hnodup : (l.map key).Nodup) {k : κ} {a : α} :
    l.find? (fun a => key a = k) = some a ↔ a ∈ l ∧ key a = k := by
  constructor
  · intro h
    exact ⟨List.mem_of_find?_eq_some h, by simpa using List.find?_some h⟩
  · rintro ⟨hmem, rfl⟩
    have hsome : (l.find? fun b => key b = key a).isSome := by
      rw [List.find?_isSome]
      exact ⟨a, hmem, by simp⟩
    obtain ⟨b, hb⟩ := Option.isSome_iff_exists.mp hsome
    have hkey : key b = key a := by simpa using List.find?_some hb
    rw [hb, List.inj_on_of_nodup_map hnodup (List.mem_of_find?_eq_some hb) hmem hkey]

namespace MessageMap

variable {m : MessageMap} {t : BufTable}

/-! ## The map -/

/-- The `uint8_t` that counts the entries does not wrap. -/
theorem length_ext2intMap_le (m : MessageMap) : m.ext2intMap.length ≤ 8 := by
  have hsub : ∀ id ∈ m.ext2intMap.map (·.internalID), id ∈ Finset.Icc (0 : ℤ) lastId := by
    intro id hid
    obtain ⟨pair, hpair, rfl⟩ := List.mem_map.mp hid
    exact Finset.mem_Icc.mpr (m.internalID_range pair hpair)
  have hcard : (m.ext2intMap.map (·.internalID)).toFinset.card ≤ (Finset.Icc (0 : ℤ) lastId).card :=
    Finset.card_le_card fun id hid => hsub id (List.mem_toFinset.mp hid)
  rw [List.toFinset_card_of_nodup m.internalID_nodup, List.length_map] at hcard
  exact hcard

lemma externalID_eq_some_iff {id : MsgId} {ext : UInt16} :
    m.externalID id = some ext ↔ ⟨ext, id⟩ ∈ m.ext2intMap := by
  simp only [externalID, Option.map_eq_some_iff, find?_key_eq_some_iff m.internalID_nodup]
  constructor
  · rintro ⟨pair, ⟨hpair, rfl⟩, rfl⟩
    exact hpair
  · intro h
    exact ⟨_, ⟨h, rfl⟩, rfl⟩

lemma internalID_eq_some_iff {id : MsgId} {ext : UInt16} :
    m.internalID ext = some id ↔ ⟨ext, id⟩ ∈ m.ext2intMap := by
  simp only [internalID, Option.map_eq_some_iff, find?_key_eq_some_iff m.externalID_nodup]
  constructor
  · rintro ⟨pair, ⟨hpair, rfl⟩, rfl⟩
    exact hpair
  · intro h
    exact ⟨_, ⟨h, rfl⟩, rfl⟩

/-! ## Sending -/

/-- On interfaces that are not sending, every one gets the frame of the whole payload. -/
lemma mem_broadcast {len : UInt16} {chunks : List (List UInt8)} {is : List UInt8}
    (hinterface : ∀ i ∈ is, i.toNat < phyInterfacesCount) {sendState : ℕ → SendState}
    (hidle : ∀ i ∈ is, (sendState i.toNat).isSending = false) {frame : List UInt8}
    (hframe : frame ∈ (broadcast len chunks is sendState).1) :
    frame = packetCharBeginning :: frameBody msgProxyEndpointId chunks.flatten ++
      [packetCharEnd] := by
  induction is generalizing sendState with
  | nil => cases hframe
  | cons i rest ih =>
    obtain ⟨hi, hrest⟩ := List.forall_mem_cons.mp hinterface
    obtain ⟨hidle_i, hidle_rest⟩ := List.forall_mem_cons.mp hidle
    rw [broadcast, streamFrame_eq hi hidle_i] at hframe
    rcases List.mem_cons.mp hframe with heq | hmem
    · exact heq
    · apply ih hrest _ hmem
      -- the frame before has left the send state of its interface reset
      intro j hj
      dsimp only
      rw [Function.update_apply]
      split
      · rfl
      · exact hidle_rest j hj

lemma length_broadcast (len : UInt16) (chunks : List (List UInt8)) (is : List UInt8)
    (sendState : ℕ → SendState) : (broadcast len chunks is sendState).1.length = is.length := by
  induction is generalizing sendState with
  | nil => rfl
  | cons i rest ih => rw [broadcast, List.length_cons, ih, List.length_cons]

lemma toNat_lt_of_mem_interfaces {i : UInt8} (h : i ∈ interfaces) :
    i.toNat < phyInterfacesCount := by
  have hall : interfaces.all fun i => i.toNat < phyInterfacesCount := by decide
  exact of_decide_eq_true (List.all_eq_true.mp hall i h)

/-- The frame of a message: behind the id of the endpoint the external id, then the data. -/
lemma mem_msgCallback {ext : UInt16} {id : MsgId} {d : BufDescription}
    (hpair : ⟨ext, id⟩ ∈ m.ext2intMap) (hd : t.messageBuffers id = some d) {i_data : ℕ → UInt8}
    {sendState : ℕ → SendState} (hidle : ∀ i ∈ interfaces, (sendState i.toNat).isSending = false)
    {frame : List UInt8} (hframe : frame ∈ (m.msgCallback t sendState id i_data).1) :
    frame = packetCharBeginning ::
        frameBody msgProxyEndpointId (ofHalfWord ext ++ (List.range d.msgSize).map i_data) ++
      [packetCharEnd] := by
  simp only [msgCallback, externalID_eq_some_iff.mpr hpair, hd] at hframe
  rw [mem_broadcast (fun i hi => toNat_lt_of_mem_interfaces hi) hidle hframe]
  simp only [List.flatten_cons, List.flatten_nil, List.append_nil]

/-! ## Receiving -/

lemma incommingID_ofHalfWord (ext : UInt16) (rest : List UInt8) :
    incommingID (ofHalfWord ext ++ rest) = ext := readHalfWord_ofHalfWord ext rest

lemma getD_ofHalfWord (ext : UInt16) (rest : List UInt8) (k : ℕ) :
    (ofHalfWord ext ++ rest).getD (2 + k) 0 = rest.getD k 0 := by
  rw [add_comm]
  rfl

lemma toNat_incommingID (packet : List UInt8) :
    (incommingID packet).toNat =
      (packet.getD 0 0).toNat + 256 * (packet.getD 1 0).toNat := toNat_halfWord _ _

/-- The sizes of the declared pools are multiples of 4. -/
lemma DeclaredTable.msgSize_mod {t : DeclaredTable} {id : MsgId} {d : BufDescription}
    (hd : t.messageBuffers id = some d) : d.msgSize % 4 = 0 := by
  obtain ⟨size, amount, hsize, rfl⟩ := t.declared id d hd
  exact Nat.mul_mod_left _ _

/-- A packet is accepted only if it has an id and the rest has the size of the pool. -/
lemma msgSize_eq_sub_iff {t : DeclaredTable} {id : MsgId} {d : BufDescription}
    (hd : t.messageBuffers id = some d) (len : UInt16) :
    d.msgSize = (len - 2).toNat ↔ 2 ≤ len.toNat ∧ d.msgSize = len.toNat - 2 := by
  have hmod := DeclaredTable.msgSize_mod hd
  have hlt := len.toNat_lt
  rw [UInt16.toNat_sub]
  have htwo : (2 : UInt16).toNat = 2 := rfl
  omega

/-- What `incommingEndpoint` posts, and for which packets. -/
theorem incommingEndpoint_eq_some_iff {t : DeclaredTable} {packet : List UInt8} {len : UInt16}
    {id : MsgId} {bytes : ℕ → UInt8} :
    m.incommingEndpoint t.toBufTable packet len = some (id, bytes) ↔
      2 ≤ len.toNat ∧ ⟨incommingID packet, id⟩ ∈ m.ext2intMap ∧
        (∃ d, t.messageBuffers id = some d ∧ d.msgSize = len.toNat - 2) ∧
        bytes = fun k => packet.getD (2 + k) 0 := by
  simp only [incommingEndpoint, Option.bind_eq_some_iff, internalID_eq_some_iff]
  constructor
  · rintro ⟨id', hpair, d, hd, hite⟩
    split at hite
    · rename_i hsize
      simp only [Option.some.injEq, Prod.mk.injEq] at hite
      obtain ⟨rfl, rfl⟩ := hite
      obtain ⟨hlen, hsize⟩ := (msgSize_eq_sub_iff hd len).mp hsize
      exact ⟨hlen, hpair, ⟨d, hd, hsize⟩, rfl⟩
    · cases hite
  · rintro ⟨hlen, hpair, ⟨d, hd, hsize⟩, rfl⟩
    refine ⟨id, hpair, d, hd, ?_⟩
    rw [if_pos ((msgSize_eq_sub_iff hd len).mpr ⟨hlen, hsize⟩)]

/-! ## From one node to the other -/

/-- A packet with the id and the data of a mapped message makes the endpoint post this message. -/
lemma posts_of_message {t : DeclaredTable} {ext : UInt16} {id : MsgId} {d : BufDescription}
    (hpair : ⟨ext, id⟩ ∈ m.ext2intMap) (hd : t.messageBuffers id = some d)
    {content : List UInt8} (hsize : content.length = d.msgSize) {packet : Packet}
    (hpayload : packet.payload = ofHalfWord ext ++ content)
    (hlen : packet.payloadLen.toNat = (ofHalfWord ext ++ content).length) :
    m.Posts t.toBufTable packet id content := by
  intro dataAddress p ipacket hp
  have hbytes : packetAt p ipacket = packet.packet.toList := by
    rw [packetAt, hp, Packet.decode_encode]
  -- the payload is what the packet begins with
  have hpayload : packet.packet.toList = ofHalfWord ext ++
      (content ++ packet.packet.toList.drop packet.payloadLen.toNat) := by
    rw [← List.append_assoc, ← hpayload, Packet.payload, List.take_append_drop]
  have hid : incommingID packet.packet.toList = ext := by
    rw [hpayload, incommingID_ofHalfWord]
  have hlen' : packet.payloadLen.toNat = content.length + 2 := by
    rw [hlen, List.length_append, add_comm]
    rfl
  have hpost : m.incommingEndpoint t.toBufTable packet.packet.toList packet.payloadLen =
      some (id, fun k => packet.packet.toList.getD (2 + k) 0) := by
    rw [incommingEndpoint_eq_some_iff, hid]
    exact ⟨by omega, hpair, ⟨d, hd, by omega⟩, rfl⟩
  refine ⟨_, by simp only [incommingPost, hbytes, hpost, Option.map_some]; rfl, ?_⟩
  apply List.ext_getElem
  · simp
  · intro k hk hk'
    simp only [List.getElem_map, List.getElem_range, dataPtr]
    rw [hpayload, getD_ofHalfWord, List.getD_eq_getElem?_getD, List.getElem?_append_left hk',
      List.getElem?_eq_getElem hk', Option.getD_some]

/-- A proxied message arrives as the same message, and nothing else is posted for a packet than a
message of its size and its id. -/
theorem proxied_message_arrives (m : MessageMap) (t : DeclaredTable) :
    (∀ pair ∈ m.ext2intMap, ∀ d, t.messageBuffers pair.internalID = some d → d.msgSize ≤ 123 →
      ∀ (i_data : ℕ → UInt8) (sendState : ℕ → SendState),
      (∀ i ∈ interfaces, (sendState i.toNat).isSending = false) →
      (m.msgCallback t.toBufTable sendState pair.internalID i_data).1.length = phyInterfacesCount ∧
      ∀ frame ∈ (m.msgCallback t.toBufTable sendState pair.internalID i_data).1,
      ∀ (i_interface : UInt8) (s : Receiving Pump Elem), s.buffer.isSome →
        s.mode ≠ .receivedEscapeChar →
        ∃ packet,
          handedOver (receiveIndication (pumpPool t.toBufTable) i_interface s frame).2 = [packet] ∧
          packet.subProtocolID = msgProxyEndpointId ∧
          m.Posts t.toBufTable packet pair.internalID ((List.range d.msgSize).map i_data)) ∧
    ∀ (packet : List UInt8) (i_packetLen : UInt16) (id : MsgId) (bytes : ℕ → UInt8),
      m.incommingEndpoint t.toBufTable packet i_packetLen = some (id, bytes) →
      2 ≤ i_packetLen.toNat ∧
        (∃ pair ∈ m.ext2intMap, pair.internalID = id ∧
          pair.externalID.toNat = (packet.getD 0 0).toNat + 256 * (packet.getD 1 0).toNat) ∧
        ∃ d, t.messageBuffers id = some d ∧ d.msgSize = i_packetLen.toNat - 2 := by
  constructor
  · rintro ⟨ext, id⟩ hpair d hd hsize i_data sendState hidle
    dsimp only at hd ⊢
    constructor
    · simp only [msgCallback, externalID_eq_some_iff.mpr hpair, hd, length_broadcast]
      rfl
    · intro frame hframe i_interface s hbuffer hmode
      obtain ⟨buf, hbuf⟩ := Option.isSome_iff_exists.mp hbuffer
      set content := (List.range d.msgSize).map i_data with hcontent
      have hlength : content.length = d.msgSize := by rw [hcontent, List.length_map, List.length_range]
      have hbody : IsFrameBody (frameBody msgProxyEndpointId (ofHalfWord ext ++ content))
          msgProxyEndpointId (ofHalfWord ext ++ content) := by
        apply isFrameBody_frameBody
        rw [List.length_append, hlength]
        have hid : (ofHalfWord ext).length = 2 := rfl
        omega
      rw [mem_msgCallback hpair hd hidle hframe, receiveIndication_append]
      obtain ⟨hquiet, packet, hpacket, hmessage, hlen, -⟩ :=
        receive_frame i_interface (pumpPool_lawful t.toBufTable) hbuf hmode hbody
      rw [handedOver_append, hquiet, receiveIndication_singleton, hpacket]
      have hpayload : packet.payload = ofHalfWord ext ++ content := congrArg Prod.snd hmessage
      exact ⟨packet, rfl, congrArg Prod.fst hmessage,
        posts_of_message hpair hd hlength hpayload hlen⟩
  · intro packet i_packetLen id bytes hpost
    obtain ⟨hlen, hpair, hsize, -⟩ := incommingEndpoint_eq_some_iff.mp hpost
    exact ⟨hlen, ⟨_, hpair, rfl, toNat_incommingID packet⟩, hsize⟩

/-- The power state in the message map of the power board: external id 1, 20 bytes. -/
theorem proxied_message_arrives_power_state :
    ∃ packet,
      handedOver (receiveIndication (pumpPool firmware) 0
        { buffer := some ⟨msgIdGenericProtocolPacketReady, 0⟩, receivedPayloadBytes := 0
          mode := .receivingUnknown, checkSum := 0
          world := (initial (fun _ _ => none) fun _ => []).pump }
        (sendMessage (fun _ => .zeroed) 0 msgProxyEndpointId
          ([1, 0] ++ (List.range 20).map UInt8.ofNat))).2 = [packet] ∧
      packet.subProtocolID = msgProxyEndpointId ∧
      powerboardMap.Posts firmware packet msgIdSystemPowerStateOut
        ((List.range 20).map UInt8.ofNat) := by
  obtain ⟨hlength, hframes⟩ := (proxied_message_arrives powerboardMap declaredFirmware).1
    ⟨1, msgIdSystemPowerStateOut⟩ (List.mem_cons_self ..)
    (MessageType.systemPowerState.pool 2 msgIdSystemPowerStateOut) (by decide) (by decide) UInt8.ofNat
    (fun _ => .zeroed) (fun _ _ => rfl)
  exact hframes _ (by decide) 0
    { buffer := some ⟨msgIdGenericProtocolPacketReady, 0⟩, receivedPayloadBytes := 0
      mode := .receivingUnknown, checkSum := 0
      world := (initial (fun _ _ => none) fun _ => []).pump } rfl (by decide)

/-! ## The machine of the proxy -/

/-- The message that the endpoint of the machine finds is the one that it posts with the message map
of the power board. -/
lemma incommingMessage_eq (t : BufTable) (packet : List UInt8) (len : UInt16) :
    incommingMessage t packet len =
      (powerboardMap.incommingEndpoint t packet len).map Prod.fst := by
  simp only [incommingMessage, incommingEndpoint, internalID, incommingID, powerboardMap,
    Option.bind_map, Option.map_bind]
  congr
  funext pair
  simp only [Function.comp_apply]
  cases t.messageBuffers pair.internalID with
  | none => rfl
  | some d =>
    simp only [Option.bind_some]
    split <;> rfl

/-- The step of the machine in which the endpoint posts. -/
theorem runProxy_entered (t : BufTable) (dataAddress : MsgId → ℤ) (interfacesCount : ℕ) (s : Proxy)
    (call : EndpointCall) :
    runProxy t dataAddress interfacesCount s (.entered call) =
      match powerboardMap.incommingPost t dataAddress s.state.pump call with
      | some (.ok r) =>
        some { s.posted (some call.interface) r with running := some (.forwarding call 0) }
      | some (.error _) => none
      | none => some { s with running := some (.forwarding call 0) } := by
  unfold runProxy incommingPost
  dsimp only
  rw [incommingMessage_eq]
  cases powerboardMap.incommingEndpoint t (packetAt s.state.pump call.ipacket) call.packetLen with
  | none => rfl
  | some message =>
    rw [Option.map_some, Option.map_some]
    dsimp only
    split <;> rename_i h <;> rw [h]

/-- The frames of a broadcast have the payload that the machine of the proxy records. -/
theorem msgCallback_outgoingMessage {ext : UInt16} {id : MsgId} {d : BufDescription}
    (hpair : ⟨ext, id⟩ ∈ powerboardMap.ext2intMap) (hd : t.messageBuffers id = some d)
    {i_data : ℕ → UInt8} {sendState : ℕ → SendState}
    (hidle : ∀ i ∈ interfaces, (sendState i.toNat).isSending = false) {frame : List UInt8}
    (hframe : frame ∈ (powerboardMap.msgCallback t sendState id i_data).1) :
    ∃ payload, outgoingMessage t id ((List.range d.msgSize).map i_data) = some payload ∧
      frame = sendMessage (fun _ => .zeroed) 0 msgProxyEndpointId payload := by
  have hext := externalID_eq_some_iff.mpr hpair
  obtain ⟨pair, hfind, rfl⟩ := Option.map_eq_some_iff.mp hext
  refine ⟨ofHalfWord pair.externalID ++ (List.range d.msgSize).map i_data, ?_, ?_⟩
  · have hfind' : MsgProxy.ext2intMap.find? (fun pair => pair.internalID = id) = some pair := hfind
    have htake : ((List.range d.msgSize).map i_data).take d.msgSize =
        (List.range d.msgSize).map i_data := List.take_of_length_le (by simp)
    simp only [outgoingMessage, hfind', Option.bind_some, hd, Option.map_some, htake]
  · rw [mem_msgCallback hpair hd hidle hframe, sendMessage_eq _ _ _ _ (by decide) rfl]

end MessageMap

end Powerboard.MsgProxy
