import B3Chain.Machine.Throwing
import B3Chain.Sv2.Frames

/-!
# Frames of a stream that arrives in chunks

`splitFrames` walks over a buffer by offsets and reports how many bytes it
consumed; a connection keeps the bytes behind them for the next chunk.
However the bytes of some frames are cut into chunks, the frames come out in
order and no bytes are kept at the end.
-/

namespace B3Chain.Sv2

open Words Framing

/-! ## The splitter of the source -/

/-- `Sv2FrameHeader`. -/
structure Sv2FrameHeader where
  extensionType : Nat
  msgType : Nat
  msgLength : Nat
  channelMsg : Bool

/-- `decodeHeader` of the six bytes from `offset` on. -/
def decodeHeader (buf : List Byte) (offset : Nat) :
    Except String Sv2FrameHeader :=
  if buf.length < offset + sv2HeaderLen then
    .error ("SV2 header truncated at offset " ++ toString offset)
  else
    let bytes := (buf.drop offset).take sv2HeaderLen
    let ext := leValue (bytes.take 2)
    .ok
      { extensionType := ext &&& 0x7fff
        msgType := leValue ((bytes.drop 2).take 1)
        msgLength := leValue ((bytes.drop 3).take 3)
        channelMsg := decide (ext &&& channelMsgFlag ≠ 0) }

/-- The loop of `splitFrames` from `off` on.  A header is whole where it is
decoded, so the error is not met. -/
def splitLoop (buf : List Byte) (frames : List Sv2Frame) (off : Nat) :
    List Sv2Frame × Nat :=
  if off + sv2HeaderLen ≤ buf.length then
    match decodeHeader buf off with
    | .error _ => (frames, off)
    | .ok header =>
      let total := sv2HeaderLen + header.msgLength
      if buf.length < off + total then (frames, off)
      else
        splitLoop buf
          (frames ++
            [{ extensionType := header.extensionType
               channelMsg := header.channelMsg
               msgType := header.msgType
               payload := (buf.drop (off + sv2HeaderLen)).take
                 header.msgLength }])
          (off + total)
  else (frames, off)
termination_by buf.length - off
decreasing_by
  rw [sv2HeaderLen] at *
  omega

/-- `splitFrames` as the source has it: the frames, and the number of bytes
consumed. -/
def splitConsumed (buf : List Byte) : List Sv2Frame × Nat :=
  splitLoop buf [] 0

theorem flag_of_word {ext : Nat} (word : ext < 256 ^ 2) :
    decide (ext &&& channelMsgFlag ≠ 0) = decide (channelMsgFlag ≤ ext) := by
  have bit : ext &&& 2 ^ 15 = (ext.testBit 15).toNat * 2 ^ 15 :=
    Nat.and_two_pow ext 15
  have shown : ext.testBit 15 = decide (2 ^ 15 ≤ ext) := by
    rw [Nat.testBit_eq_decide_div_mod_eq]
    exact decide_eq_decide.mpr (by omega)
  have flag : channelMsgFlag = 2 ^ 15 := rfl
  rw [flag, bit, shown]
  exact decide_eq_decide.mpr (by
    by_cases large : 2 ^ 15 ≤ ext
    · rw [decide_eq_true large]
      exact iff_of_true (by decide) large
    · rw [decide_eq_false large]
      exact iff_of_false (by decide) large)

/-- The frame of a header that was decoded. -/
def frameAt (buf : List Byte) (off : Nat) (header : Sv2FrameHeader) :
    Sv2Frame where
  extensionType := header.extensionType
  channelMsg := header.channelMsg
  msgType := header.msgType
  payload := (buf.drop (off + sv2HeaderLen)).take header.msgLength

/-- The header of the bytes behind an offset. -/
theorem decodeHeader_ok {buf : List Byte} {off : Nat}
    (room : off + sv2HeaderLen ≤ buf.length) :
    ∃ header, decodeHeader buf off = .ok header ∧
      nextFrame (buf.drop off) =
        if buf.length < off + (sv2HeaderLen + header.msgLength) then none
        else some (frameAt buf off header,
          buf.drop (off + (sv2HeaderLen + header.msgLength))) := by
  have word : ((buf.drop off).take sv2HeaderLen).take 2 =
      (buf.drop off).take 2 := by
    rw [List.take_take]
    rfl
  have type : (((buf.drop off).take sv2HeaderLen).drop 2).take 1 =
      ((buf.drop off).drop 2).take 1 := by
    rw [List.drop_take, List.take_take]
    rfl
  have length : (((buf.drop off).take sv2HeaderLen).drop 3).take 3 =
      ((buf.drop off).drop 3).take 3 := by
    rw [List.drop_take, List.take_take]
    rfl
  have small : leValue ((buf.drop off).take 2) < 256 ^ 2 := by
    refine (leValue_lt _).trans_le (Nat.pow_le_pow_right (by decide) ?_)
    rw [List.length_take]
    exact Nat.min_le_left _ _
  have low : leValue ((buf.drop off).take 2) &&& 0x7fff =
      leValue ((buf.drop off).take 2) % channelMsgFlag :=
    Nat.and_two_pow_sub_one_eq_mod _ 15
  have long : ¬ (buf.drop off).length < sv2HeaderLen := by
    rw [List.length_drop]
    omega
  rw [decodeHeader, if_neg (by omega)]
  refine ⟨_, rfl, ?_⟩
  dsimp only
  rw [nextFrame, if_neg long, frameAt, word, type, length, low,
    flag_of_word small, ← Nat.add_assoc, ← List.drop_drop, ← List.drop_drop,
    ← List.drop_drop]
  dsimp only
  refine if_congr ?_ rfl rfl
  rw [List.length_drop]
  omega

/-- One round of the loop takes the frame `nextFrame` finds. -/
theorem splitLoop_eq (buf : List Byte) (frames : List Sv2Frame) {off : Nat}
    (inside : off ≤ buf.length) :
    (splitLoop buf frames off).1 = frames ++ (splitFrames (buf.drop off)).1 ∧
      buf.drop (splitLoop buf frames off).2 =
        (splitFrames (buf.drop off)).2 := by
  induction left : buf.length - off using Nat.strong_induction_on
    generalizing frames off with
  | _ left induction =>
    rw [splitLoop]
    split
    · next room =>
      obtain ⟨header, decoded, next⟩ := decodeHeader_ok room
      rw [decoded]
      dsimp only
      split at next
      · next short =>
        rw [if_pos short, splitFrames, Format.split_of_none next]
        exact ⟨(List.append_nil frames).symm, rfl⟩
      · next whole =>
        have later := induction (buf.length -
          (off + (sv2HeaderLen + header.msgLength)))
          (by rw [sv2HeaderLen] at *; omega)
          (frames ++ [frameAt buf off header]) (by omega) rfl
        rw [if_neg whole, splitFrames, Format.split_of_first next]
        dsimp only
        rw [List.append_assoc, List.singleton_append] at later
        exact later
    · next short =>
      have none : nextFrame (buf.drop off) = none := by
        rw [nextFrame, if_pos]
        rw [List.length_drop]
        omega
      rw [splitFrames, Format.split_of_none none]
      exact ⟨(List.append_nil frames).symm, rfl⟩

/-- The frames of a buffer and the bytes behind them. -/
theorem splitConsumed_eq (buf : List Byte) :
    (splitConsumed buf).1 = (splitFrames buf).1 ∧
      buf.drop (splitConsumed buf).2 = (splitFrames buf).2 :=
  splitLoop_eq buf [] (Nat.zero_le _)

/-! ## Chunks -/

/-- `onData`: the frames of a chunk, and the bytes kept for the next one. -/
def takeChunk (buf chunk : List Byte) : List Sv2Frame × List Byte :=
  let merged := buf ++ chunk
  ((splitConsumed merged).1, merged.drop (splitConsumed merged).2)

/-- The frames of chunks that arrive one after the other. -/
def takeChunks (buf : List Byte) :
    List (List Byte) → List Sv2Frame × List Byte
  | [] => ([], buf)
  | chunk :: rest =>
    let first := takeChunk buf chunk
    let later := takeChunks first.2 rest
    (first.1 ++ later.1, later.2)

theorem takeChunk_eq (buf chunk : List Byte) :
    takeChunk buf chunk = splitFrames (buf ++ chunk) :=
  Prod.ext (splitConsumed_eq _).1 (splitConsumed_eq _).2

theorem takeChunks_eq (buf : List Byte) (chunks : List (List Byte)) :
    takeChunks buf chunks = frameFormat.splitChunks buf chunks := by
  induction chunks generalizing buf with
  | nil => rfl
  | cons chunk rest induction =>
    rw [takeChunks, takeChunk_eq, induction]
    rfl

/-- The frame whose fields are the arguments of `encodeFrame` cut to the width
they have in the header. -/
def Sv2Frame.packed (call : Sv2Frame) : Sv2Frame where
  extensionType := call.extensionType &&& 0x7fff
  channelMsg := call.channelMsg
  msgType := call.msgType &&& 0xff
  payload := call.payload

/-- `encodeFrame` with these arguments. -/
def Sv2Frame.encoded (call : Sv2Frame) : Except String (List Byte) :=
  encodeFrame call.extensionType call.msgType call.payload call.channelMsg

theorem Sv2Frame.packed_eq (call : Sv2Frame) :
    call.packed =
      { call with
        extensionType := call.extensionType % channelMsgFlag
        msgType := call.msgType % 256 } := by
  have type : call.extensionType &&& 0x7fff =
      call.extensionType % channelMsgFlag :=
    Nat.and_two_pow_sub_one_eq_mod _ 15
  have msgType : call.msgType &&& 0xff = call.msgType % 256 :=
    Nat.and_two_pow_sub_one_eq_mod _ 8
  rw [packed, type, msgType]

/-- The bytes of a frame do not depend on what its fields are cut by. -/
theorem frameBytes_packed (call : Sv2Frame) :
    frameBytes call.packed = frameBytes call := by
  have byte : BitVec.ofNat 8 (call.msgType % 256) =
      BitVec.ofNat 8 call.msgType := by
    apply BitVec.eq_of_toNat_eq
    rw [BitVec.toNat_ofNat, BitVec.toNat_ofNat]
    exact Nat.mod_mod _ _
  have type : leBytes 1 (call.msgType % 256) = leBytes 1 call.msgType := by
    rw [leBytes, leBytes, byte]
    rfl
  rw [Sv2Frame.packed_eq, frameBytes, frameBytes, extensionWord, extensionWord,
    Nat.mod_mod, type]

/-- A frame that was encoded fits once its fields are cut. -/
theorem encoded_eq_ok {call : Sv2Frame} {wire : List Byte}
    (encoded : call.encoded = .ok wire) :
    call.packed.Fits ∧ wire = frameBytes call.packed := by
  rw [Sv2Frame.encoded, encodeFrame] at encoded
  split at encoded
  · cases encoded
  · next short =>
    rw [frameBytes_packed]
    cases encoded
    refine ⟨?_, rfl⟩
    rw [Sv2Frame.packed_eq]
    exact ⟨Nat.mod_lt _ (by decide), Nat.mod_lt _ (by decide),
      Nat.not_lt.mp short⟩

/-- The stream of frames that were encoded. -/
theorem stream_of_encoded {calls : List Sv2Frame} {wires : List (List Byte)}
    (encoded : calls.mapM Sv2Frame.encoded = .ok wires) :
    (∀ frame ∈ calls.map Sv2Frame.packed, frame.Fits) ∧
      wires.flatten = frameFormat.writeAll (calls.map Sv2Frame.packed) := by
  induction calls generalizing wires with
  | nil =>
    cases encoded
    exact ⟨fun frame member => absurd member List.not_mem_nil, rfl⟩
  | cons call rest induction =>
    rw [List.mapM_cons] at encoded
    obtain ⟨wire, first, others⟩ := Machine.bind_eq_ok_iff.mp encoded
    obtain ⟨later, following, joined⟩ := Machine.bind_eq_ok_iff.mp others
    cases joined
    obtain ⟨fits, written⟩ := encoded_eq_ok first
    obtain ⟨laterFit, laterWritten⟩ := induction following
    refine ⟨List.forall_mem_cons.mpr ⟨fits, laterFit⟩, ?_⟩
    rw [List.flatten_cons, List.map_cons, Format.writeAll_cons, laterWritten,
      written]
    rfl

/-- Fields that fit the header are not cut. -/
theorem packed_of_fits {call : Sv2Frame}
    (fits : call.extensionType < channelMsgFlag ∧ call.msgType < 256) :
    call.packed = call := by
  rw [Sv2Frame.packed_eq, Nat.mod_eq_of_lt fits.1, Nat.mod_eq_of_lt fits.2]

/--
Splitting does not depend on the chunks.  However the bytes of frames that
`encodeFrame` made are cut into chunks, the frames come out in order with the
extension types, channel flags, message types and payloads they were made
with, and no bytes are kept at the end.  The header has 15 bits for an
extension type and 8 for a message type, and `encodeFrame` cuts larger numbers
to these.
-/
theorem frames_survive_chunking (calls : List Sv2Frame)
    (wires : List (List Byte))
    (encoded : calls.mapM Sv2Frame.encoded = .ok wires)
    (chunks : List (List Byte)) (cut : chunks.flatten = wires.flatten) :
    takeChunks [] chunks = (calls.map Sv2Frame.packed, []) ∧
      ((∀ call ∈ calls, call.extensionType < channelMsgFlag ∧
        call.msgType < 256) → takeChunks [] chunks = (calls, [])) := by
  obtain ⟨fits, stream⟩ := stream_of_encoded encoded
  have split : takeChunks [] chunks = (calls.map Sv2Frame.packed, []) := by
    rw [takeChunks_eq]
    refine Format.splitChunks_writeAll fits rfl ?_
    rw [List.nil_append, cut, stream]
  refine ⟨split, fun inRange => ?_⟩
  have kept : calls.map Sv2Frame.packed = calls :=
    (List.map_congr_left fun call member =>
      packed_of_fits (inRange call member)).trans (List.map_id _)
  rw [split, kept]

/-- Two frames, one of a channel. -/
def twoFrames : List Sv2Frame :=
  [{ extensionType := 0, channelMsg := false, msgType := 0x10, payload := [1] },
    { extensionType := 3, channelMsg := true, msgType := 0x11, payload := [] }]

/-- Their bytes cut inside both headers. -/
theorem two_frames_cut_in_headers :
    takeChunks [] [[0, 0, 16], [], [1, 0, 0, 1, 3], [128, 17, 0, 0, 0]] =
      (twoFrames, []) := by
  refine (frames_survive_chunking twoFrames
    [[0, 0, 16, 1, 0, 0, 1], [3, 128, 17, 0, 0, 0]] (by decide) _
    (by decide)).2 ?_
  decide

end B3Chain.Sv2
