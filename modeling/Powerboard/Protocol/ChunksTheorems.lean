import Powerboard.Protocol.RoundTripTheorems

/-!
# Frames in chunks

A frame that is sent in chunks has the bytes of the frame that `genericProtocol_sendMessage` sends.
The first keeps its checksum in the send state of the interface, the second in a local variable.
-/

namespace Powerboard.GenericProtocol

variable {sendState : ℕ → SendState} {i_interface : UInt8}

lemma sendInsideFrame_eq (hinterface : i_interface.toNat < phyInterfacesCount)
    (buffer : List UInt8) :
    sendInsideFrame sendState i_interface buffer =
      ((sendPayload (sendState i_interface.toNat).checksum buffer).1,
        Function.update sendState i_interface.toNat
          { sendState i_interface.toNat with
            checksum := (sendPayload (sendState i_interface.toNat).checksum buffer).2
            bytesTransmitted := (sendState i_interface.toNat).bytesTransmitted +
              UInt16.ofNat buffer.length }) := by
  rw [sendInsideFrame, if_pos hinterface]

/-- The chunks send what they send together, and leave the send state that they leave together. -/
lemma sendChunks_eq (hinterface : i_interface.toNat < phyInterfacesCount)
    (sendState : ℕ → SendState) (chunks : List (List UInt8)) :
    sendChunks sendState i_interface chunks =
      sendInsideFrame sendState i_interface chunks.flatten := by
  induction chunks generalizing sendState with
  | nil =>
    rw [List.flatten_nil, sendInsideFrame_eq hinterface]
    simp [sendChunks, sendPayload]
  | cons chunk chunks ih =>
    rw [sendChunks, ih, List.flatten_cons, sendInsideFrame_eq hinterface,
      sendInsideFrame_eq hinterface, sendInsideFrame_eq hinterface, sendPayload_append]
    simp [add_assoc]

lemma beginTransmittingFrame_eq (hinterface : i_interface.toNat < phyInterfacesCount)
    (hidle : (sendState i_interface.toNat).isSending = false) (payloadLen : UInt16) (id : UInt8) :
    beginTransmittingFrame sendState i_interface payloadLen id =
      (packetCharBeginning :: stuffed [id], Function.update sendState i_interface.toNat
        { payloadLen := payloadLen, bytesTransmitted := 0, checksum := (stuffed [id]).sum
          isSending := true }) := by
  rw [beginTransmittingFrame, if_pos hinterface, if_pos hidle]
  simp only [send_plain, send_escape, List.singleton_append, zero_add]

/-- On an interface that is not sending, a frame in chunks is the frame of the whole payload, and the
send state is reset after it. -/
lemma streamFrame_eq (hinterface : i_interface.toNat < phyInterfacesCount)
    (hidle : (sendState i_interface.toNat).isSending = false) (payloadLen : UInt16) (id : UInt8)
    (chunks : List (List UInt8)) :
    streamFrame sendState i_interface payloadLen id chunks =
      (packetCharBeginning :: frameBody id chunks.flatten ++ [packetCharEnd],
        Function.update sendState i_interface.toNat .zeroed) := by
  rw [streamFrame, beginTransmittingFrame_eq hinterface hidle]
  simp only [sendChunks_eq hinterface, sendInsideFrame_eq hinterface, Function.update_self,
    Function.update_idem, sendPayload_eq]
  rw [endTransmittingFrame, if_pos hinterface]
  simp only [Function.update_self, Function.update_idem, send_plain, frameBody,
    stuffed_cons id chunks.flatten, List.sum_append, List.append_assoc, List.cons_append]

/-- On an interface that does not exist nothing is sent and nothing is changed. -/
lemma streamFrame_of_absent (habsent : ¬ i_interface.toNat < phyInterfacesCount)
    (payloadLen : UInt16) (id : UInt8) (chunks : List (List UInt8)) :
    streamFrame sendState i_interface payloadLen id chunks = ([], sendState) := by
  have hchunks : sendChunks sendState i_interface chunks = ([], sendState) := by
    induction chunks with
    | nil => rfl
    | cons chunk chunks ih => rw [sendChunks, sendInsideFrame, if_neg habsent, ih, List.append_nil]
  rw [streamFrame, beginTransmittingFrame, if_neg habsent, hchunks, endTransmittingFrame,
    if_neg habsent, List.append_nil, List.append_nil]

/-- Streaming a frame is sending it in one piece. -/
theorem streamed_frame_eq_sendMessage (sendState : ℕ → SendState) (i_interface id : UInt8)
    (payloadLen : UInt16) (chunks : List (List UInt8))
    (hidle : (sendState i_interface.toNat).isSending = false) :
    (streamFrame sendState i_interface payloadLen id chunks).1 =
        sendMessage sendState i_interface id chunks.flatten ∧
      ((streamFrame sendState i_interface payloadLen id chunks).2 i_interface.toNat).isSending =
        false ∧
      (i_interface.toNat < phyInterfacesCount →
        (streamFrame sendState i_interface payloadLen id chunks).2 =
          Function.update sendState i_interface.toNat .zeroed) := by
  by_cases hinterface : i_interface.toNat < phyInterfacesCount
  · rw [streamFrame_eq hinterface hidle, sendMessage_eq _ _ _ _ hinterface hidle]
    refine ⟨rfl, ?_, fun _ => rfl⟩
    simp only [Function.update_self, SendState.zeroed]
  · rw [streamFrame_of_absent hinterface, sendMessage, if_neg hinterface]
    exact ⟨rfl, hidle, fun h => absurd h hinterface⟩

/-- Control bytes in the id and in the data, an empty chunk among the chunks: on the wire each of them
has an escape byte before it. -/
theorem streamed_frame_eq_sendMessage_control_bytes :
    (streamFrame (fun _ => .zeroed) 0 3 0x3c [[0xf0], [], [0x0f, 0x3c]]).1 =
        sendMessage (fun _ => .zeroed) 0 0x3c [0xf0, 0x0f, 0x3c] ∧
      sendMessage (fun _ => .zeroed) 0 0x3c [0xf0, 0x0f, 0x3c] =
        [0xf0, 0x3c, 0x3c, 0x3c, 0xf0, 0x3c, 0x0f, 0x3c, 0x3c, 0x99, 0x0f] ∧
      ((streamFrame (fun _ => .zeroed) 0 3 0x3c [[0xf0], [], [0x0f, 0x3c]]).2 0).isSending =
        false ∧
      (0 < phyInterfacesCount →
        (streamFrame (fun _ => .zeroed) 0 3 0x3c [[0xf0], [], [0x0f, 0x3c]]).2 =
          Function.update (fun _ => .zeroed) 0 .zeroed) := by
  obtain ⟨hwire, hidle, hstate⟩ :=
    streamed_frame_eq_sendMessage (fun _ => .zeroed) 0 0x3c 3 [[0xf0], [], [0x0f, 0x3c]] rfl
  exact ⟨hwire, by decide, hidle, hstate⟩

end Powerboard.GenericProtocol
