import Powerboard.Protocol.RoundTripTheorems
import Powerboard.Protocol.Senders

/-!
# Frames of two senders

`genericProtocol_sendMessage` and `genericProtocol_BeginTransmittingFrame` test `isSending`, so that
of two messages that overlap only the first is begun. `genericProtocol_SendInsideFrame` and
`genericProtocol_EndTransmittingFrame` do not test it. The frames are whole as long as these two are
not called for a message that was not begun.
-/

namespace Powerboard.GenericProtocol

open Machine Stuffing

variable {i_interface : UInt8} {s s' : Senders} {c : Client} {m : ClientMessage}

/-! ## The bytes of a frame -/

/-- The checksum of a message, as it is kept while its frame is sent. -/
def ClientMessage.checksum (m : ClientMessage) : UInt8 :=
  (sendPayload 0 (m.subProtocolID :: m.payload)).2

/-- The message with more data. -/
def ClientMessage.append (m : ClientMessage) (buffer : List UInt8) : ClientMessage :=
  { m with payload := m.payload ++ buffer }

lemma ClientMessage.begun_append (m : ClientMessage) (buffer : List UInt8) :
    (m.append buffer).begun = m.begun ++ (sendPayload m.checksum buffer).1 := by
  simp only [begun, append, checksum, ← List.cons_append, sendPayload_append, List.append_assoc]

lemma ClientMessage.checksum_append (m : ClientMessage) (buffer : List UInt8) :
    (m.append buffer).checksum = (sendPayload m.checksum buffer).2 := by
  simp only [append, checksum, ← List.cons_append, sendPayload_append]

lemma ClientMessage.frame_eq (m : ClientMessage) :
    m.frame = m.begun ++ (sendChecksum m.checksum ++ (send packetCharEnd false).1) := by
  rw [frame, sendMessage_eq _ _ _ _ (by decide) rfl]
  simp only [begun, checksum, frameBody, send_plain, sendPayload_eq, zero_add, List.append_assoc,
    List.cons_append, List.nil_append]

/-! ## Who is sending -/

lemma Client.other_ne (c : Client) : c.other ≠ c := by cases c <;> decide

lemma Client.eq_or_other (c c' : Client) : c' = c ∨ c' = c.other := by
  cases c <;> cases c' <;> decide

lemma sending_of_none (h : s.current c = none) : s.sending c = false := by
  rw [Senders.sending, h]
  rfl

lemma sending_of_some (h : s.current c = some m) : s.sending c = m.accepted := by
  rw [Senders.sending, h]
  rfl

lemma begun_of_not_sending (h : s.sending c = false) : s.begun c = [] := by
  unfold Senders.sending at h
  unfold Senders.begun
  split
  · next m hm =>
    rw [hm] at h
    simp at h
    simp [h]
  · rfl

lemma begun_of_some (h : s.current c = some m) (hm : m.accepted = true) :
    s.begun c = m.begun := by
  simp [Senders.begun, h, hm]

/-- When only one client can be sending, it does not matter whose frame comes first. -/
lemma begun_append_other (h : s.sending c.other = false) :
    s.begun .first ++ s.begun .second = s.begun c := by
  cases c with
  | first =>
    rw [begun_of_not_sending (c := .second) h, List.append_nil]
  | second =>
    rw [begun_of_not_sending (c := .first) h, List.nil_append]

/-! ## The invariant -/

/-- The frames are whole, at most one client is sending, `isSending` tells whether one is, and the
checksum is that of its message. -/
structure SendersInv (i_interface : UInt8) (s : Senders) : Prop where
  whole : FramesWhole s
  alone : ∀ c, s.sending c = true → s.sending c.other = false
  isSending : (s.sendState i_interface.toNat).isSending = true ↔ ∃ c, s.sending c = true
  checksum : ∀ c m, s.current c = some m → m.accepted = true →
    (s.sendState i_interface.toNat).checksum = m.checksum
  exists_interface : ∀ c, s.sending c = true → i_interface.toNat < phyInterfacesCount

lemma sendersInv_start : SendersInv i_interface sendersStart := by
  refine ⟨rfl, nofun, ?_, nofun, nofun⟩
  simp [sendersStart, SendState.zeroed, Senders.sending]

/-- A client without message can send one exactly when `isSending` is not set. -/
lemma SendersInv.canSend_iff (h : SendersInv i_interface s) (hc : s.current c = none) :
    s.canSend i_interface c = true ↔ i_interface.toNat < phyInterfacesCount ∧
      (s.sendState i_interface.toNat).isSending = false := by
  rw [← Bool.not_eq_true, h.isSending]
  simp only [Senders.canSend, Bool.and_eq_true, decide_eq_true_eq, Bool.not_eq_true', not_exists,
    Bool.not_eq_true]
  refine and_congr_right fun _ => ⟨fun hother c' => ?_, fun hall => hall _⟩
  rcases c.eq_or_other c' with rfl | rfl
  · exact sending_of_none hc
  · exact hother

/-- While `isSending` is set nothing is sent for a client without message. -/
lemma SendersInv.not_idle (h : SendersInv i_interface s) (hc : s.current c = none)
    (hsend : s.canSend i_interface c = false) (hinterface : i_interface.toNat < phyInterfacesCount) :
    ¬ (s.sendState i_interface.toNat).isSending = false := by
  intro hidle
  have hcan := (h.canSend_iff hc).mpr ⟨hinterface, hidle⟩
  rw [hsend] at hcan
  cases hcan

/-- The wire ends with what the client that is sending has begun. -/
lemma SendersInv.wire_of_accepted (h : SendersInv i_interface s) (hm : s.current c = some m)
    (haccepted : m.accepted = true) :
    s.sending c = true ∧
      s.wire = (s.messages.filter (·.accepted)).flatMap ClientMessage.frame ++ m.begun := by
  have hsending : s.sending c = true := by rw [sending_of_some hm, haccepted]
  have hwire := h.whole
  rw [FramesWhole, begun_append_other (h.alone c hsending), begun_of_some hm haccepted] at hwire
  exact ⟨hsending, hwire⟩

lemma other_not_sending (hsend : s.canSend i_interface c = true) : s.sending c.other = false := by
  simpa [Senders.canSend] using ((Bool.and_eq_true _ _).mp hsend).2

/-- Nobody is sending when a client can begin a message. -/
lemma begun_nil (hc : s.current c = none) (hsend : s.canSend i_interface c = true) :
    s.begun .first ++ s.begun .second = [] := by
  rw [begun_append_other (other_not_sending hsend), begun_of_not_sending (sending_of_none hc)]

/-! ## The calls -/

lemma accepted_append (messages : List ClientMessage) (m : ClientMessage) :
    ((messages ++ [m]).filter (·.accepted)).flatMap ClientMessage.frame =
      (messages.filter (·.accepted)).flatMap ClientMessage.frame ++
        (if m.accepted then m.frame else []) := by
  rw [List.filter_append, List.flatMap_append]
  by_cases hm : m.accepted = true <;> simp [hm]

/-- `genericProtocol_sendMessage` sends a whole frame, or nothing. -/
lemma SendersInv.sendMessage (h : SendersInv i_interface s) (hc : s.current c = none)
    (id : UInt8) (buffer : List UInt8) :
    SendersInv i_interface { s with
      wire := s.wire ++ GenericProtocol.sendMessage s.sendState i_interface id buffer
      messages := s.messages ++ [⟨id, buffer, s.canSend i_interface c⟩] } := by
  refine ⟨?_, h.alone, h.isSending, h.checksum, h.exists_interface⟩
  show _ = _ ++ (s.begun .first ++ s.begun .second)
  rw [accepted_append, h.whole]
  -- the frame comes after whole frames only, and the message is accepted
  cases hsend : s.canSend i_interface c with
  | true =>
    obtain ⟨hinterface, hidle⟩ := (h.canSend_iff hc).mp hsend
    rw [begun_nil hc hsend, List.append_nil, List.append_nil, if_pos rfl, ClientMessage.frame,
      sendMessage_eq _ _ _ _ hinterface hidle, sendMessage_eq _ _ _ _ (by decide) rfl]
  | false =>
    have hnothing : GenericProtocol.sendMessage s.sendState i_interface id buffer = [] := by
      unfold GenericProtocol.sendMessage
      split
      · next hinterface => exact if_neg (h.not_idle hc hsend hinterface)
      · rfl
    rw [hnothing, List.append_nil, if_neg (by simp), List.append_nil]

lemma sending_congr (h : s'.current c = s.current c) : s'.sending c = s.sending c := by
  unfold Senders.sending
  rw [h]

lemma begun_congr (h : s'.current c = s.current c) : s'.begun c = s.begun c := by
  unfold Senders.begun
  rw [h]

/-- The invariant after a call for the message of a client, while the other client is not sending. -/
lemma SendersInv.of_alone (hother : s'.sending c.other = false)
    (hwhole : s'.wire =
      (s'.messages.filter (·.accepted)).flatMap ClientMessage.frame ++ s'.begun c)
    (hsending : (s'.sendState i_interface.toNat).isSending = s'.sending c)
    (hchecksum : ∀ m, s'.current c = some m → m.accepted = true →
      (s'.sendState i_interface.toNat).checksum = m.checksum)
    (hinterface : s'.sending c = true → i_interface.toNat < phyInterfacesCount) :
    SendersInv i_interface s' := by
  -- there is only one client to look at
  have honly (c' : Client) (hc' : s'.sending c' = true) : c' = c := by
    rcases c.eq_or_other c' with rfl | rfl
    · rfl
    · simp [hother] at hc'
  refine ⟨?_, fun c' hc' => ?_, ?_, fun c' m hm haccepted => ?_, fun c' hc' => ?_⟩
  · rw [FramesWhole, begun_append_other hother, hwhole]
  · rw [honly c' hc', hother]
  · rw [hsending]
    exact ⟨fun hc => ⟨c, hc⟩, fun ⟨c', hc'⟩ => honly c' hc' ▸ hc'⟩
  · obtain rfl := honly c' (by rw [sending_of_some hm, haccepted])
    exact hchecksum m hm haccepted
  · exact hinterface (honly c' hc' ▸ hc')

/-- A call for a message of a client that was not accepted. -/
structure Unaccepted (s s' : Senders) (c : Client) : Prop where
  before : s.sending c = false
  after : s'.sending c = false
  other : s'.current c.other = s.current c.other
  messages : s'.messages.filter (·.accepted) = s.messages.filter (·.accepted)

lemma Unaccepted.sending (h : Unaccepted s s' c) (c' : Client) : s'.sending c' = s.sending c' := by
  rcases c.eq_or_other c' with rfl | rfl
  · rw [h.after, h.before]
  · exact sending_congr h.other

lemma Unaccepted.begun (h : Unaccepted s s' c) (c' : Client) : s'.begun c' = s.begun c' := by
  rcases c.eq_or_other c' with rfl | rfl
  · rw [begun_of_not_sending h.after, begun_of_not_sending h.before]
  · exact begun_congr h.other

/-- The wire should be what it was. -/
lemma Unaccepted.framesWhole_iff (h : Unaccepted s s' c) (hs : FramesWhole s) :
    FramesWhole s' ↔ s'.wire = s.wire := by
  rw [FramesWhole, h.messages, h.begun, h.begun, ← hs]

lemma Unaccepted.not_framesWhole {bytes : List UInt8} (h : Unaccepted s s' c)
    (hs : FramesWhole s) (hbytes : bytes ≠ []) (hwire : s'.wire = s.wire ++ bytes) :
    ¬ FramesWhole s' := by
  rw [h.framesWhole_iff hs, hwire]
  simpa using hbytes

/-- If the call sends nothing, no harm is done. -/
lemma SendersInv.unaccepted (h : SendersInv i_interface s) (hun : Unaccepted s s' c)
    (hwire : s'.wire = s.wire) (hstate : s'.sendState = s.sendState) :
    SendersInv i_interface s' := by
  refine ⟨(hun.framesWhole_iff h.whole).mpr hwire, ?_, ?_, fun c' m hm haccepted => ?_, ?_⟩
  · simp only [hun.sending]
    exact h.alone
  · simp only [hun.sending, hstate]
    exact h.isSending
  · rcases c.eq_or_other c' with rfl | rfl
    · have hafter := hun.after
      rw [sending_of_some hm, haccepted] at hafter
      cases hafter
    · rw [hstate]
      exact h.checksum _ m (hun.other ▸ hm) haccepted
  · simp only [hun.sending]
    exact h.exists_interface

lemma unaccepted_update (hc : s.sending c = false) {x : Option ClientMessage}
    (hx : x.any (·.accepted) = false) (hcurrent : s'.current = Function.update s.current c x)
    (hmessages : s'.messages.filter (·.accepted) = s.messages.filter (·.accepted)) :
    Unaccepted s s' c where
  before := hc
  after := by
    rw [Senders.sending, hcurrent, Function.update_self]
    exact hx
  other := by rw [hcurrent, Function.update_of_ne c.other_ne]
  messages := hmessages

/-- `genericProtocol_BeginTransmittingFrame` begins the frame, if the client can send. -/
lemma SendersInv.beginTransmittingFrame (h : SendersInv i_interface s) (hc : s.current c = none)
    (payloadLen : UInt16) (id : UInt8) :
    SendersInv i_interface { s with
      sendState := (GenericProtocol.beginTransmittingFrame s.sendState i_interface payloadLen id).2
      wire := s.wire ++
        (GenericProtocol.beginTransmittingFrame s.sendState i_interface payloadLen id).1
      current := Function.update s.current c (some ⟨id, [], s.canSend i_interface c⟩) } := by
  cases hsend : s.canSend i_interface c with
  | true =>
    obtain ⟨hinterface, hidle⟩ := (h.canSend_iff hc).mp hsend
    -- nobody is sending, so the wire holds whole frames
    have hwire := h.whole
    rw [FramesWhole, begun_nil hc hsend, List.append_nil] at hwire
    have hself := Function.update_self c (some (⟨id, [], true⟩ : ClientMessage)) s.current
    unfold GenericProtocol.beginTransmittingFrame
    rw [if_pos hinterface, if_pos hidle]
    dsimp only
    apply SendersInv.of_alone (c := c)
    · rw [← other_not_sending hsend]
      exact sending_congr (Function.update_of_ne c.other_ne _ _)
    · rw [begun_of_some (by exact hself) rfl, hwire]
      simp [ClientMessage.begun, sendPayload]
    · rw [sending_of_some (by exact hself)]
      simp
    · intro m hm _
      obtain rfl := Option.some.inj (hself.symm.trans hm)
      simp [ClientMessage.checksum, sendPayload]
    · exact fun _ => hinterface
  | false =>
    have hnothing :
        GenericProtocol.beginTransmittingFrame s.sendState i_interface payloadLen id =
          ([], s.sendState) := by
      unfold GenericProtocol.beginTransmittingFrame
      split
      · next hinterface => exact if_neg (h.not_idle hc hsend hinterface)
      · rfl
    rw [hnothing, List.append_nil]
    exact h.unaccepted (unaccepted_update (sending_of_none hc) rfl rfl rfl) rfl rfl

/-- `genericProtocol_SendInsideFrame` for the message that is being sent. -/
lemma SendersInv.sendInsideFrame (h : SendersInv i_interface s) (hm : s.current c = some m)
    (haccepted : m.accepted = true) (buffer : List UInt8) :
    SendersInv i_interface { s with
      sendState := (GenericProtocol.sendInsideFrame s.sendState i_interface buffer).2
      wire := s.wire ++ (GenericProtocol.sendInsideFrame s.sendState i_interface buffer).1
      current := Function.update s.current c (some (m.append buffer)) } := by
  obtain ⟨hsending, hwire⟩ := h.wire_of_accepted hm haccepted
  have hinterface := h.exists_interface c hsending
  have hchecksum := h.checksum c m hm haccepted
  have hself := Function.update_self c (some (m.append buffer)) s.current
  unfold GenericProtocol.sendInsideFrame
  rw [if_pos hinterface]
  dsimp only
  apply SendersInv.of_alone (c := c)
  · rw [← h.alone c hsending]
    exact sending_congr (Function.update_of_ne c.other_ne _ _)
  · rw [begun_of_some (m := m.append buffer) (by exact hself) haccepted,
      ClientMessage.begun_append, ← List.append_assoc, ← hwire, ← hchecksum]
  · rw [sending_of_some (m := m.append buffer) (by exact hself)]
    dsimp only
    rw [Function.update_self]
    exact (h.isSending.mpr ⟨c, hsending⟩).trans haccepted.symm
  · intro m' hm' _
    obtain rfl := Option.some.inj (hself.symm.trans hm')
    dsimp only
    rw [ClientMessage.checksum_append, Function.update_self, hchecksum]
  · exact fun _ => hinterface

/-- `genericProtocol_EndTransmittingFrame` for the message that is being sent. -/
lemma SendersInv.endTransmittingFrame (h : SendersInv i_interface s) (hm : s.current c = some m)
    (haccepted : m.accepted = true) :
    SendersInv i_interface { s with
      sendState := (GenericProtocol.endTransmittingFrame s.sendState i_interface).2
      wire := s.wire ++ (GenericProtocol.endTransmittingFrame s.sendState i_interface).1
      current := Function.update s.current c none
      messages := s.messages ++ [m] } := by
  obtain ⟨hsending, hwire⟩ := h.wire_of_accepted hm haccepted
  have hinterface := h.exists_interface c hsending
  have hself := Function.update_self c none s.current
  unfold GenericProtocol.endTransmittingFrame
  rw [if_pos hinterface]
  dsimp only
  apply SendersInv.of_alone (c := c)
  · rw [← h.alone c hsending]
    exact sending_congr (Function.update_of_ne c.other_ne _ _)
  · rw [begun_of_not_sending (sending_of_none (by exact hself)), accepted_append, if_pos haccepted,
      ClientMessage.frame_eq, hwire, h.checksum c m hm haccepted]
    simp only [List.append_assoc, List.append_nil]
  · rw [sending_of_none (by exact hself)]
    dsimp only
    rw [Function.update_self]
    rfl
  · exact fun m' hm' => nomatch hself.symm.trans hm'
  · exact fun _ => hinterface

/-! ## The calls for a message that was not accepted -/

lemma sendInsideFrame_nil (sendState : ℕ → SendState) {buffer : List UInt8}
    (hbuffer : i_interface.toNat < phyInterfacesCount → buffer = []) :
    sendInsideFrame sendState i_interface buffer = ([], sendState) := by
  unfold sendInsideFrame
  split
  · next hinterface =>
    rw [hbuffer hinterface]
    simp [sendPayload]
  · rfl

lemma endTransmittingFrame_nil (sendState : ℕ → SendState)
    (hinterface : ¬ i_interface.toNat < phyInterfacesCount) :
    endTransmittingFrame sendState i_interface = ([], sendState) := if_neg hinterface

/-- Data inside the frame that is not there is sent all the same. -/
lemma sendInsideFrame_ne_nil (sendState : ℕ → SendState) {buffer : List UInt8}
    (hinterface : i_interface.toNat < phyInterfacesCount) (hbuffer : buffer ≠ []) :
    (sendInsideFrame sendState i_interface buffer).1 ≠ [] := by
  obtain ⟨b, rest, rfl⟩ := List.exists_cons_of_ne_nil hbuffer
  rw [sendInsideFrame, if_pos hinterface]
  simp only [sendPayload_eq, stuffed_cons b rest, stuff, stuffSymbol, List.flatMap_cons]
  split <;> simp

/-- And so is the end of the frame. -/
lemma endTransmittingFrame_ne_nil (sendState : ℕ → SendState)
    (hinterface : i_interface.toNat < phyInterfacesCount) :
    (endTransmittingFrame sendState i_interface).1 ≠ [] := by
  rw [endTransmittingFrame, if_pos hinterface]
  simp [send_plain]

lemma filter_append_not_accepted (messages : List ClientMessage) (hm : m.accepted = false) :
    (messages ++ [m]).filter (·.accepted) = messages.filter (·.accepted) := by
  simp [hm]

/-! ## Any call -/

lemma SendersInv.step {a : SenderAction} (h : SendersInv i_interface s)
    (ha : GoesOnAccepted i_interface s a) (hstep : sendersStep i_interface s a = some s') :
    SendersInv i_interface s' := by
  cases a with
  | sendMessage c id buffer =>
    simp only [sendersStep] at hstep
    split at hstep
    · next hc =>
      obtain rfl := Option.some.inj hstep
      exact h.sendMessage hc.1 id buffer
    · cases hstep
  | beginTransmittingFrame c payloadLen id =>
    simp only [sendersStep] at hstep
    split at hstep
    · next hc =>
      obtain rfl := Option.some.inj hstep
      exact h.beginTransmittingFrame hc payloadLen id
    · cases hstep
  | sendInsideFrame c buffer =>
    simp only [sendersStep] at hstep
    split at hstep
    · cases hstep
    next m hm =>
    split at hstep
    · obtain rfl := Option.some.inj hstep
      by_cases haccepted : m.accepted = true
      · exact h.sendInsideFrame hm haccepted buffer
      · rw [Bool.not_eq_true] at haccepted
        have hsending : s.sending c = false := by rw [sending_of_some hm, haccepted]
        -- a refused client may only go on with nothing to send
        have hbuffer (hinterface : i_interface.toNat < phyInterfacesCount) : buffer = [] := by
          simpa [hsending] using ha hinterface (by simp [hm])
        rw [sendInsideFrame_nil s.sendState hbuffer, List.append_nil]
        have hx : (some (m.append buffer)).any (·.accepted) = false := haccepted
        exact h.unaccepted (unaccepted_update hsending hx rfl rfl) rfl rfl
    · cases hstep
  | endTransmittingFrame c =>
    simp only [sendersStep] at hstep
    split at hstep
    · cases hstep
    next m hm =>
    obtain rfl := Option.some.inj hstep
    cases haccepted : m.accepted with
    | true => exact h.endTransmittingFrame hm haccepted
    | false =>
      have hsending : s.sending c = false := by rw [sending_of_some hm, haccepted]
      have hinterface : ¬ i_interface.toNat < phyInterfacesCount := fun hinterface => by
        simpa [hsending] using ha hinterface (by simp [hm])
      rw [endTransmittingFrame_nil s.sendState hinterface, List.append_nil]
      exact h.unaccepted (unaccepted_update hsending rfl rfl
        (filter_append_not_accepted s.messages haccepted)) rfl rfl

/-- Any other call puts bytes on the wire that belong to no frame. -/
lemma SendersInv.not_whole {a : SenderAction} (h : SendersInv i_interface s)
    (ha : ¬ GoesOnAccepted i_interface s a) (hstep : sendersStep i_interface s a = some s') :
    ¬ FramesWhole s' := by
  cases a with
  | sendMessage | beginTransmittingFrame => exact absurd trivial ha
  | sendInsideFrame c buffer =>
    simp only [GoesOnAccepted, Classical.not_imp, not_or, Bool.not_eq_true] at ha
    obtain ⟨hinterface, -, hsending, hbuffer⟩ := ha
    simp only [sendersStep] at hstep
    split at hstep
    · cases hstep
    next m hm =>
    have haccepted : m.accepted = false := by rw [← sending_of_some hm, hsending]
    split at hstep
    · obtain rfl := Option.some.inj hstep
      have hx : (some (m.append buffer)).any (·.accepted) = false := haccepted
      exact Unaccepted.not_framesWhole (unaccepted_update hsending hx rfl rfl) h.whole
        (sendInsideFrame_ne_nil s.sendState hinterface hbuffer) rfl
    · cases hstep
  | endTransmittingFrame c =>
    simp only [GoesOnAccepted, Classical.not_imp, Bool.not_eq_true] at ha
    obtain ⟨hinterface, -, hsending⟩ := ha
    simp only [sendersStep] at hstep
    split at hstep
    · cases hstep
    next m hm =>
    have haccepted : m.accepted = false := by rw [← sending_of_some hm, hsending]
    obtain rfl := Option.some.inj hstep
    exact Unaccepted.not_framesWhole (unaccepted_update hsending rfl rfl
      (filter_append_not_accepted s.messages haccepted)) h.whole
      (endTransmittingFrame_ne_nil s.sendState hinterface) rfl

/-- In every run of two clients: in all its states there are whole frames on the wire, one for each
accepted message, if and only if no client goes on with a message that was not accepted. -/
theorem framesWhole_iff_goesOnAccepted (i_interface : UInt8) (actions : List SenderAction)
    (final : Senders) (hrun : exec (sendersStep i_interface) sendersStart actions = some final) :
    StatesMeet (sendersStep i_interface) FramesWhole sendersStart actions ↔
      StepsMeet (sendersStep i_interface) (GoesOnAccepted i_interface) sendersStart actions := by
  apply statesMeet_iff_stepsMeet (sendersStep i_interface) (SendersInv i_interface) _ _ _
    sendersInv_start hrun
  · intro s h
    exact h.whole
  · intro s a s' h ha hstep
    exact h.step ha hstep
  · intro s a s' h ha hstep
    exact h.not_whole ha hstep

/-- A message of the second client while the first is sending is dropped. -/
theorem framesWhole_iff_goesOnAccepted_dropped :
    StatesMeet (sendersStep 0) FramesWhole sendersStart
        [.beginTransmittingFrame .first 1 4, .sendMessage .second 5 [1, 2],
          .sendInsideFrame .first [3], .endTransmittingFrame .first] ∧
      StepsMeet (sendersStep 0) (GoesOnAccepted 0) sendersStart
        [.beginTransmittingFrame .first 1 4, .sendMessage .second 5 [1, 2],
          .sendInsideFrame .first [3], .endTransmittingFrame .first] := by
  have hwhole : StatesMeet (sendersStep 0) FramesWhole sendersStart
      [.beginTransmittingFrame .first 1 4, .sendMessage .second 5 [1, 2],
        .sendInsideFrame .first [3], .endTransmittingFrame .first] := by decide +kernel
  exact ⟨hwhole, (framesWhole_iff_goesOnAccepted 0 _ _ rfl).mp hwhole⟩

/-- When the second client begins a frame as well, its data gets into the frame of the first, and its
end is one more. -/
theorem two_begun_frames_mix :
    ∃ s, exec (sendersStep 0) sendersStart
        [.beginTransmittingFrame .first 1 4, .beginTransmittingFrame .second 1 5,
          .sendInsideFrame .first [1], .sendInsideFrame .second [2], .endTransmittingFrame .first,
          .endTransmittingFrame .second] = some s ∧
      s.wire = [0xf0, 4, 1, 2, 0xf9, 0x0f, 0, 0x0f] ∧
      s.messages = [⟨4, [1], true⟩, ⟨5, [2], false⟩] ∧ ¬ FramesWhole s := by
  exact ⟨_, rfl, by decide +kernel, by decide +kernel, by decide +kernel⟩

end Powerboard.GenericProtocol
