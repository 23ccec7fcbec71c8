import B3Chain.Framing.Records
import B3Chain.Words.LittleEndian

/-!
# The Noise transport of Stratum V2

After the handshake each frame travels as segments of a length-prefixed
stream, each sealed under the next nonce, and ends with an empty segment.  A
receiver keeps the bytes it could not use, appends the next chunk, opens what
is complete and rewinds to the start of the unfinished frame.
-/

namespace B3Chain.Sv2

open Words Framing

/-! ## Ciphers -/

/-- `TAG_LEN`. -/
def tagLen : Nat := 16

/-- `MAX_NONCE`. -/
def maxNonce : Nat := 2 ^ 64 - 1

/-- `NOISE_MAX_SEGMENT`. -/
def noiseMaxSegment : Nat := 65535

/-- `NOISE_MAX_PLAINTEXT`. -/
def noiseMaxPlaintext : Nat := noiseMaxSegment - tagLen

theorem noiseMaxPlaintext_pos : 0 < noiseMaxPlaintext := by decide

/-- What the transport throws. -/
inductive NoiseError
  | nonceOverflow
  | invalidTag
  deriving DecidableEq, Repr

/-- An authenticated cipher; opening fails on a wrong tag. -/
structure Aead (Key : Type) where
  encrypt (key : Key) (nonce ad plaintext : List Byte) : List Byte
  decrypt (key : Key) (nonce ad ciphertext : List Byte) : Option (List Byte)

/-- Length of the nonces the cipher takes. -/
def nonceLen : Nat := 12

/--
A correct cipher: what was sealed opens under the same nonce and under no
other one, and a tag is added.
-/
structure Aead.Correct {Key : Type} (aead : Aead Key) : Prop where
  decrypt_encrypt : ∀ key nonce ad plaintext,
    aead.decrypt key nonce ad (aead.encrypt key nonce ad plaintext) =
      some plaintext
  other_nonce : ∀ key nonce other ad plaintext,
    nonce.length = nonceLen → other.length = nonceLen → other ≠ nonce →
      aead.decrypt key other ad (aead.encrypt key nonce ad plaintext) = none
  length_encrypt : ∀ key nonce ad plaintext, nonce.length = nonceLen →
    (aead.encrypt key nonce ad plaintext).length = plaintext.length + tagLen

/-- Four zero bytes and the counter. -/
def counterNonce (n : Nat) : List Byte :=
  List.replicate 4 0 ++ leBytes 8 n

/-- `nonceBytes`. -/
def nonceBytes (n : Nat) : Except NoiseError (List Byte) :=
  if maxNonce < n then .error .nonceOverflow
  else .ok (counterNonce n)

/-- `CipherState`. -/
structure CipherState (Key : Type) where
  k : Option Key
  n : Nat
  deriving DecidableEq

section

variable {Key : Type} (aead : Aead Key)

/-- `CipherState.encryptWithAd`. -/
def CipherState.encryptWithAd (cipher : CipherState Key)
    (ad plaintext : List Byte) :
    Except NoiseError (List Byte × CipherState Key) :=
  match cipher.k with
  | none => .ok (plaintext, cipher)
  | some key =>
    (nonceBytes cipher.n).map fun nonce =>
      (aead.encrypt key nonce ad plaintext,
        { cipher with n := cipher.n + 1 })

/-- `CipherState.decryptWithAd`. -/
def CipherState.decryptWithAd (cipher : CipherState Key)
    (ad ciphertext : List Byte) :
    Except NoiseError (List Byte × CipherState Key) :=
  match cipher.k with
  | none => .ok (ciphertext, cipher)
  | some key =>
    (nonceBytes cipher.n).bind fun nonce =>
      match aead.decrypt key nonce ad ciphertext with
      | none => .error .invalidTag
      | some plaintext => .ok (plaintext, { cipher with n := cipher.n + 1 })

/-! ## Segments -/

/-- A segment on the wire: its length and its bytes. -/
def writeSegment (ct : List Byte) : List Byte :=
  leBytes 2 ct.length ++ ct

/-- The first segment of a buffer if all of it is there. -/
def nextSegment (buf : List Byte) : Option (List Byte × List Byte) :=
  if buf.length < 2 then none
  else if buf.length < 2 + leValue (buf.take 2) then none
  else
    some ((buf.drop 2).take (leValue (buf.take 2)),
      (buf.drop 2).drop (leValue (buf.take 2)))

theorem nextSegment_write {ct : List Byte} (fits : ct.length < 256 ^ 2)
    (rest : List Byte) :
    nextSegment (writeSegment ct ++ rest) = some (ct, rest) := by
  have whole : writeSegment ct ++ rest =
      leBytes 2 ct.length ++ (ct ++ rest) := List.append_assoc _ _ _
  have size : (writeSegment ct ++ rest).length =
      2 + (ct.length + rest.length) := by
    rw [whole, List.length_append, length_leBytes, List.length_append]
  rw [nextSegment, size, whole, leValue_take_leBytes fits, drop_leBytes,
    if_neg (by omega), if_neg (by omega), List.take_left, List.drop_left]

theorem write_of_nextSegment {buf ct rest : List Byte}
    (found : nextSegment buf = some (ct, rest)) :
    ct.length < 256 ^ 2 ∧ buf = writeSegment ct ++ rest := by
  rw [nextSegment] at found
  split at found
  · cases found
  · next long =>
      split at found
      · cases found
      · next whole =>
          cases found
          obtain ⟨small, written⟩ := leBytes_leValue_take (Nat.le_of_not_lt long)
          have size : ((buf.drop 2).take (leValue (buf.take 2))).length =
              leValue (buf.take 2) := by
            rw [List.length_take, List.length_drop]
            omega
          refine ⟨size.trans_lt small, ?_⟩
          rw [writeSegment, size, List.append_assoc, List.take_append_drop,
            written]

/-- Segments as records of the byte stream. -/
def segmentFormat : Format Byte (List Byte) where
  first := nextSegment
  write := writeSegment
  Valid ct := ct.length < 256 ^ 2
  write_ne_nil ct := by
    refine List.ne_nil_of_length_pos ?_
    rw [writeSegment, List.length_append, length_leBytes]
    omega
  first_write _ rest fits := nextSegment_write fits rest
  of_first _ _ _ found := write_of_nextSegment found

/-! ## Sending -/

theorem length_drop_lt {plaintext : List Byte} (nonempty : plaintext ≠ []) :
    (plaintext.drop noiseMaxPlaintext).length < plaintext.length := by
  have some := List.length_pos_of_ne_nil nonempty
  have positive := noiseMaxPlaintext_pos
  rw [List.length_drop]
  omega

/-- The segments of one frame. -/
def encryptSegments (send : CipherState Key) (plaintext : List Byte) :
    Except NoiseError (List (List Byte) × CipherState Key) :=
  if ended : plaintext = [] then .ok ([], send)
  else
    have := length_drop_lt ended
    (send.encryptWithAd aead [] (plaintext.take noiseMaxPlaintext)).bind
      fun sealed =>
        (encryptSegments sealed.2 (plaintext.drop noiseMaxPlaintext)).map
          fun later => (sealed.1 :: later.1, later.2)
termination_by plaintext.length
decreasing_by exact this

/-- `NoiseTransport.encryptFrame`; an empty segment ends the frame. -/
def encryptFrame (send : CipherState Key) (plaintext : List Byte) :
    Except NoiseError (List Byte × CipherState Key) :=
  (encryptSegments aead send plaintext).map fun segments =>
    (segments.1.flatMap writeSegment ++ [0, 0], segments.2)

/-- The bytes of several frames sent in order. -/
def encryptFrames :
    CipherState Key → List (List Byte) →
      Except NoiseError (List Byte × CipherState Key)
  | send, [] => .ok ([], send)
  | send, frame :: frames =>
    (encryptFrame aead send frame).bind fun wire =>
      (encryptFrames wire.2 frames).map fun later =>
        (wire.1 ++ later.1, later.2)

/-! ## Receiving -/

/--
The loop of `decryptFrames`.  `cur` holds the opened segments of the frame
that has not ended yet.
-/
def decryptLoop (recv : CipherState Key) (cur : List (List Byte))
    (buf : List Byte) :
    Except NoiseError (List (List Byte) × CipherState Key) :=
  match found : nextSegment buf with
  | none => .ok ([], recv)
  | some (segCt, rest) =>
    have : rest.length < buf.length :=
      segmentFormat.shorter_of_first found
    if segCt = [] then
      (decryptLoop recv [] rest).map fun later =>
        (cur.flatten :: later.1, later.2)
    else
      (recv.decryptWithAd aead [] segCt).bind fun opened =>
        decryptLoop opened.2 (cur ++ [opened.1]) rest
termination_by buf.length

/-- The loop of `pendingFrameStart`. -/
def pendingLoop (completedFrames off frameStart completed : Nat)
    (buf : List Byte) : Nat :=
  match found : nextSegment buf with
  | none => frameStart
  | some (seg, rest) =>
    have : rest.length < buf.length :=
      segmentFormat.shorter_of_first found
    if seg = [] then
      if completed + 1 = completedFrames then off + 2 + seg.length
      else
        pendingLoop completedFrames (off + 2 + seg.length)
          (off + 2 + seg.length) (completed + 1) rest
    else
      pendingLoop completedFrames (off + 2 + seg.length) frameStart
        completed rest
termination_by buf.length

/-- `pendingFrameStart`. -/
def pendingFrameStart (buf : List Byte) (completedFrames : Nat) : Nat :=
  pendingLoop completedFrames 0 0 0 buf

/-- `NoiseTransport.decryptFrames`: the frames, the bytes consumed. -/
def decryptFrames (recv : CipherState Key) (buf : List Byte) :
    Except NoiseError (List (List Byte) × Nat × CipherState Key) :=
  (decryptLoop aead recv [] buf).map fun opened =>
    (opened.1, pendingFrameStart buf opened.1.length, opened.2)

/-- A connection's carry-over buffer and receiving cipher. -/
structure Receiver (Key : Type) where
  ct : List Byte
  recv : CipherState Key
  deriving DecidableEq

/-- One data event: append, open, drop what was consumed. -/
def Receiver.onData (receiver : Receiver Key) (chunk : List Byte) :
    Except NoiseError (List (List Byte) × Receiver Key) :=
  (decryptFrames aead receiver.recv (receiver.ct ++ chunk)).map fun opened =>
    (opened.1,
      { ct := (receiver.ct ++ chunk).drop opened.2.1, recv := opened.2.2 })

/-- The frames a receiver obtains from a list of chunks. -/
def receiveAll :
    Receiver Key → List (List Byte) →
      Except NoiseError (List (List Byte) × Receiver Key)
  | receiver, [] => .ok ([], receiver)
  | receiver, chunk :: chunks =>
    (receiver.onData aead chunk).bind fun obtained =>
      (receiveAll obtained.2 chunks).map fun later =>
        (obtained.1 ++ later.1, later.2)

end

end B3Chain.Sv2
