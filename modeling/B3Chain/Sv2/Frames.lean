import B3Chain.Framing.Records
import B3Chain.Sv2.Buffers

/-!
# Frames of Stratum V2

A frame has six bytes in front of its payload: the extension type with a bit
for messages of a channel, the message type and the length of the payload.
-/

namespace B3Chain.Sv2

open Words Framing

/-- `SV2_HEADER_LEN`. -/
def sv2HeaderLen : Nat := 6

/-- `SV2_MAX_PAYLOAD_LEN`. -/
def sv2MaxPayloadLen : Nat := 0xffffff

/-- `CHANNEL_MSG_FLAG`. -/
def channelMsgFlag : Nat := 0x8000

/-- `Sv2Frame`; the length in the header is that of the payload. -/
structure Sv2Frame where
  extensionType : Nat
  channelMsg : Bool
  msgType : Nat
  payload : List Byte
  deriving DecidableEq

/-- The number that holds the extension type and the flag. -/
def extensionWord (extensionType : Nat) (channelMsg : Bool) : Nat :=
  extensionType % channelMsgFlag + if channelMsg then channelMsgFlag else 0

/-- The bytes of a frame. -/
def frameBytes (frame : Sv2Frame) : List Byte :=
  leBytes 2 (extensionWord frame.extensionType frame.channelMsg) ++
    (leBytes 1 frame.msgType ++
      (leBytes 3 frame.payload.length ++ frame.payload))

/-- `encodeFrame`. -/
def encodeFrame (extensionType msgType : Nat) (payload : List Byte)
    (channelMsg : Bool) : Except String (List Byte) :=
  if sv2MaxPayloadLen < payload.length then
    .error ("SV2 payload too large: " ++ toString payload.length)
  else .ok (frameBytes { extensionType, channelMsg, msgType, payload })

/-- One frame off the front of a buffer, if all of it is there. -/
def nextFrame (buf : List Byte) : Option (Sv2Frame × List Byte) :=
  if buf.length < sv2HeaderLen then none
  else
    let ext := leValue (buf.take 2)
    let msgLength := leValue ((buf.drop 3).take 3)
    if buf.length < sv2HeaderLen + msgLength then none
    else
      some ({ extensionType := ext % channelMsgFlag
              channelMsg := decide (channelMsgFlag ≤ ext)
              msgType := leValue ((buf.drop 2).take 1)
              payload := (buf.drop sv2HeaderLen).take msgLength },
        (buf.drop sv2HeaderLen).drop msgLength)

/-- The fields of a frame fit their places. -/
def Sv2Frame.Fits (frame : Sv2Frame) : Prop :=
  frame.extensionType < channelMsgFlag ∧ frame.msgType < 256 ∧
    frame.payload.length ≤ sv2MaxPayloadLen

theorem length_frameBytes (frame : Sv2Frame) :
    (frameBytes frame).length = sv2HeaderLen + frame.payload.length := by
  simp only [frameBytes, List.length_append, length_leBytes, sv2HeaderLen]
  omega

theorem extensionWord_lt (extensionType : Nat) (channelMsg : Bool) :
    extensionWord extensionType channelMsg < 256 ^ 2 := by
  have low := Nat.mod_lt extensionType (show 0 < channelMsgFlag by decide)
  rw [extensionWord]
  rw [channelMsgFlag] at low ⊢
  split
  · omega
  · omega

theorem extensionWord_flag (extensionType : Nat) (channelMsg : Bool) :
    decide (channelMsgFlag ≤ extensionWord extensionType channelMsg) =
      channelMsg := by
  have low := Nat.mod_lt extensionType (show 0 < channelMsgFlag by decide)
  rw [extensionWord]
  cases channelMsg with
  | true => simp
  | false => simpa using low

theorem extensionWord_type {extensionType : Nat}
    (fits : extensionType < channelMsgFlag) (channelMsg : Bool) :
    extensionWord extensionType channelMsg % channelMsgFlag =
      extensionType := by
  rw [extensionWord, Nat.mod_eq_of_lt fits]
  cases channelMsg with
  | true => exact (Nat.add_mod_right _ _).trans (Nat.mod_eq_of_lt fits)
  | false => exact Nat.mod_eq_of_lt fits

/-- A frame that was written is taken off the front again. -/
theorem nextFrame_frameBytes {frame : Sv2Frame} (fits : frame.Fits)
    (rest : List Byte) :
    nextFrame (frameBytes frame ++ rest) = some (frame, rest) := by
  obtain ⟨ext, type, size⟩ := fits
  have long : (frameBytes frame ++ rest).length =
      sv2HeaderLen + (frame.payload.length + rest.length) := by
    rw [List.length_append, length_frameBytes, Nat.add_assoc]
  have fitsOne : frame.msgType < 256 ^ 1 := type
  have fitsThree : frame.payload.length < 256 ^ 3 := by
    rw [sv2MaxPayloadLen] at size
    omega
  have whole : frameBytes frame ++ rest =
      leBytes 2 (extensionWord frame.extensionType frame.channelMsg) ++
        (leBytes 1 frame.msgType ++
          (leBytes 3 frame.payload.length ++ (frame.payload ++ rest))) := by
    simp only [frameBytes, List.append_assoc]
  have header (buf : List Byte) :
      buf.drop 3 = (buf.drop 2).drop 1 ∧
        buf.drop sv2HeaderLen = ((buf.drop 2).drop 1).drop 3 := by
    simp [sv2HeaderLen]
  rw [nextFrame, if_neg (by omega)]
  simp only [long]
  rw [(header _).1, (header _).2, whole, drop_leBytes, drop_leBytes,
    drop_leBytes, leValue_take_leBytes fitsThree, if_neg (by omega),
    leValue_take_leBytes (extensionWord_lt _ _), leValue_take_leBytes fitsOne,
    List.take_left, List.drop_left, extensionWord_type ext,
    extensionWord_flag]

theorem frameBytes_of_nextFrame {buf rest : List Byte} {frame : Sv2Frame}
    (found : nextFrame buf = some (frame, rest)) :
    frame.Fits ∧ buf = frameBytes frame ++ rest := by
  rw [nextFrame] at found
  split at found
  · cases found
  · next long =>
      dsimp only at found
      split at found
      · cases found
      · next whole =>
          cases found
          rw [sv2HeaderLen] at long whole
          obtain ⟨wordSmall, wordBytes⟩ :=
            leBytes_leValue_take (show 2 ≤ buf.length by omega)
          obtain ⟨typeSmall, typeBytes⟩ := leBytes_leValue_take
            (show 1 ≤ (buf.drop 2).length by rw [List.length_drop]; omega)
          obtain ⟨lengthSmall, lengthBytes⟩ := leBytes_leValue_take
            (show 3 ≤ (buf.drop 3).length by rw [List.length_drop]; omega)
          rw [List.drop_drop] at typeBytes lengthBytes
          have payloadSize : ((buf.drop sv2HeaderLen).take
              (leValue ((buf.drop 3).take 3))).length =
                leValue ((buf.drop 3).take 3) := by
            rw [List.length_take, List.length_drop, sv2HeaderLen]
            omega
          have word : extensionWord (leValue (buf.take 2) % channelMsgFlag)
              (decide (channelMsgFlag ≤ leValue (buf.take 2))) =
                leValue (buf.take 2) := by
            rw [extensionWord, Nat.mod_mod, channelMsgFlag]
            by_cases flagged : 0x8000 ≤ leValue (buf.take 2)
            · rw [if_pos (decide_eq_true flagged)]
              omega
            · rw [if_neg (by simpa using flagged)]
              omega
          refine ⟨⟨Nat.mod_lt _ (by decide), typeSmall, ?_⟩, ?_⟩
          · dsimp only
            rw [payloadSize, sv2MaxPayloadLen]
            omega
          · rw [frameBytes]
            dsimp only
            rw [payloadSize, word, List.append_assoc, List.append_assoc,
              List.append_assoc, List.take_append_drop]
            exact (wordBytes.symm.trans (congrArg _ (typeBytes.symm.trans
              (congrArg _ lengthBytes.symm))))

/-- Frames as records of a byte stream. -/
def frameFormat : Format Byte Sv2Frame where
  first := nextFrame
  write := frameBytes
  Valid := Sv2Frame.Fits
  write_ne_nil frame := by
    refine List.ne_nil_of_length_pos ?_
    rw [length_frameBytes, sv2HeaderLen]
    omega
  first_write _ rest fits := nextFrame_frameBytes fits rest
  of_first _ _ _ found := frameBytes_of_nextFrame found

/-- `splitFrames`: the complete frames of a buffer, and what is left. -/
def splitFrames (buf : List Byte) : List Sv2Frame × List Byte :=
  frameFormat.split buf

end B3Chain.Sv2
