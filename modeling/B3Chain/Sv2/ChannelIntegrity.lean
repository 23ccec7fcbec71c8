import B3Chain.Sv2.Frames
import B3Chain.Sv2.NoiseChunks

/-!
# Integrity of the encrypted channel

A receiver takes whatever bytes an attacker delivers in place of what was
sent.  The ends of the encrypted frames are not authenticated, and a rewind
re-reads segments that were already opened while the nonce counter stays where
it is.  Still the bytes handed on are always a front of the bytes sent: a
segment opens only under its own nonce, so nothing opens after a segment was
opened and not handed on.  Where the encrypted frames end does not matter,
since `handlePlainBytes` joins their contents again before it looks for
frames.
-/

namespace B3Chain.Sv2

open Words Framing

variable {Key : Type}

/-! ## Sessions -/

/-- A receiving connection and the frames it has dispatched. -/
structure Session (Key : Type) where
  receiver : Receiver Key
  plain : List Byte
  dispatched : List Sv2Frame
  destroyed : Bool

namespace Session

/-- A connection whose handshake has just ended. -/
def start (key : Key) : Session Key where
  receiver := { ct := [], recv := { k := some key, n := 0 } }
  plain := []
  dispatched := []
  destroyed := false

/--
The loop over the frames of `handlePlainBytes`.  `throws` says whether the
handler of the last of the frames given to it throws; the data handler then
destroys the socket.
-/
def dispatchFrames (throws : List Sv2Frame → Bool) (session : Session Key) :
    List Sv2Frame → Session Key
  | [] => session
  | frame :: rest =>
    if throws (session.dispatched ++ [frame]) then
      { session with
        dispatched := session.dispatched ++ [frame], destroyed := true }
    else
      dispatchFrames throws
        { session with dispatched := session.dispatched ++ [frame] } rest

/-- `handlePlainBytes`. -/
def handlePlainBytes (throws : List Sv2Frame → Bool) (session : Session Key)
    (bytes : List Byte) : Session Key :=
  dispatchFrames throws
    { session with plain := (splitFrames (session.plain ++ bytes)).2 }
    (splitFrames (session.plain ++ bytes)).1

/-- The loop over the decrypted frames. -/
def handleAll (throws : List Sv2Frame → Bool) :
    Session Key → List (List Byte) → Session Key
  | session, [] => session
  | session, bytes :: rest =>
    if (handlePlainBytes throws session bytes).destroyed then
      handlePlainBytes throws session bytes
    else
      handleAll throws (handlePlainBytes throws session bytes) rest

/-- `onData`; a destroyed socket has no data events any more. -/
def onData (aead : Aead Key) (throws : List Sv2Frame → Bool)
    (session : Session Key) (chunk : List Byte) : Session Key :=
  if session.destroyed then session
  else
    match session.receiver.onData aead chunk with
    | .error _ => { session with destroyed := true }
    | .ok (frames, receiver) =>
      handleAll throws { session with receiver := receiver } frames

/-- The chunks of a byte stream one after the other. -/
def onStream (aead : Aead Key) (throws : List Sv2Frame → Bool)
    (session : Session Key) (chunks : List (List Byte)) : Session Key :=
  chunks.foldl (onData aead throws) session

end Session

/-! ## What the attacker cannot do -/

/-- The plaintexts that `encryptFrame` seals for frames, one a nonce. -/
def sentPieces (frames : List Sv2Frame) : List (List Byte) :=
  frames.flatMap fun frame => pieces (frameBytes frame)

theorem sentPieces_cons (frame : Sv2Frame) (frames : List Sv2Frame) :
    sentPieces (frame :: frames) =
      pieces (frameBytes frame) ++ sentPieces frames :=
  List.flatMap_cons

theorem flatten_sentPieces (frames : List Sv2Frame) :
    (sentPieces frames).flatten = frameFormat.writeAll frames := by
  induction frames with
  | nil => rfl
  | cons frame frames induction =>
    rw [sentPieces_cons, List.flatten_append, flatten_pieces, induction]
    rfl

/--
The bytes delivered hold no forgery for plaintexts sealed under the nonces from
zero on: what of them opens under a nonce is what was sealed under it, and what
was sealed under one nonce opens under no other.
-/
structure Aead.Unforgeable (aead : Aead Key) (key : Key)
    (parts : List (List Byte)) (delivered : List Byte) : Prop where
  sealed : ∀ n ciphertext plaintext, ciphertext <:+: delivered →
    n ≤ maxNonce →
    aead.decrypt key (counterNonce n) [] ciphertext = some plaintext →
      parts[n]? = some plaintext ∧
        ciphertext = aead.encrypt key (counterNonce n) [] plaintext
  other_nonce : ∀ n other plaintext, parts[n]? = some plaintext →
    n ≤ maxNonce → other ≤ maxNonce → other ≠ n →
      aead.decrypt key (counterNonce other) []
        (aead.encrypt key (counterNonce n) [] plaintext) = none

/-! ## What is opened -/

/-- The carry-over cannot be read any more, whatever follows it. -/
def Receiver.Stuck (aead : Aead Key) (receiver : Receiver Key) : Prop :=
  ∀ chunk, ∃ reason, receiver.onData aead chunk = .error reason

/-- Segments are frames that ended and segments of one that has not. -/
theorem exists_closed_append (segments : List (List Byte)) :
    ∃ closed unfinished, segments = closed ++ unfinished ∧ Closed closed ∧
      ∀ seg ∈ unfinished, seg ≠ [] := by
  let data : List Byte → Bool := fun seg => seg ≠ []
  refine ⟨segments.rdropWhile data, segments.rtakeWhile data,
    List.rdropWhile_append_rtakeWhile.symm, fun last member => ?_,
    fun seg member => ?_⟩
  · obtain ⟨nonempty, rfl⟩ := List.mem_getLast?_eq_getLast member
    have stopped := List.rdropWhile_last_not data segments nonempty
    rwa [decide_eq_true_eq, not_not] at stopped
  · have kept : data seg = true := List.mem_rtakeWhile_imp member
    exact of_decide_eq_true kept

/-- The segments found in some bytes are parts of them. -/
theorem mem_split_within {buf seg : List Byte}
    (member : seg ∈ (segmentFormat.split buf).1) : seg <:+: buf := by
  obtain ⟨front, back, parts⟩ := List.append_of_mem member
  have whole := (segmentFormat.writeAll_split buf).1
  rw [parts, Format.writeAll_append, Format.writeAll_cons] at whole
  refine ⟨segmentFormat.writeAll front ++ leBytes 2 seg.length,
    segmentFormat.writeAll back ++ (segmentFormat.split buf).2,
    Eq.trans ?_ whole⟩
  simp [segmentFormat, writeSegment]

theorem Receiver.onData_ct {aead : Aead Key} {receiver next : Receiver Key}
    {chunk : List Byte} {frames : List (List Byte)}
    (taken : receiver.onData aead chunk = .ok (frames, next)) :
    next.ct <:+ receiver.ct ++ chunk := by
  rw [onData] at taken
  cases opened : decryptFrames aead receiver.recv (receiver.ct ++ chunk) with
  | error reason =>
    rw [opened] at taken
    cases taken
  | ok parts =>
    rw [opened] at taken
    cases taken
    exact List.drop_suffix _ _

theorem decryptWithAd_eq_ok {aead : Aead Key} {key : Key} {n : Nat}
    {ciphertext plaintext : List Byte} {next : CipherState Key}
    (opened : (CipherState.mk (some key) n).decryptWithAd aead [] ciphertext =
      .ok (plaintext, next)) :
    n ≤ maxNonce ∧ next = ⟨some key, n + 1⟩ ∧
      aead.decrypt key (counterNonce n) [] ciphertext = some plaintext := by
  simp only [CipherState.decryptWithAd, nonceBytes] at opened
  split at opened
  · cases opened
  · next within =>
      simp only [Except.bind] at opened
      split at opened
      · cases opened
      · next found =>
          cases opened
          exact ⟨Nat.not_lt.mp within, rfl, found⟩

/-- Segments up to the end of a frame are opened before what follows. -/
theorem openSegments_append {aead : Aead Key} {closed : List (List Byte)}
    (ended : Closed closed) {cur : List (List Byte)}
    (begun : closed = [] → cur = []) (recv : CipherState Key)
    (rest : List (List Byte)) :
    openSegments aead recv cur (closed ++ rest) =
      (openSegments aead recv cur closed).bind fun front =>
        (openSegments aead front.2 [] rest).map fun later =>
          (front.1 ++ later.1, later.2) := by
  induction closed generalizing recv cur with
  | nil =>
    rw [begun rfl, List.nil_append, openSegments]
    simp only [Except.bind]
    cases openSegments aead recv [] rest <;> rfl
  | cons seg closed induction =>
    rw [List.cons_append, openSegments, openSegments]
    by_cases empty : seg = []
    · rw [if_pos empty, if_pos empty, induction ended.tail fun _ => rfl]
      cases openSegments aead recv [] closed with
      | error reason => rfl
      | ok front =>
        simp only [Except.map, Except.bind]
        cases openSegments aead front.2 [] rest <;> rfl
    · rw [if_neg empty, if_neg empty]
      have more : closed ≠ [] := by
        rintro rfl
        exact empty (ended seg rfl)
      cases recv.decryptWithAd aead [] seg with
      | error reason => rfl
      | ok opened =>
        exact induction ended.tail (fun none => absurd none more) opened.2

/-- A frame that has not ended gives nothing and uses one nonce a segment. -/
theorem openSegments_unfinished {aead : Aead Key} {key : Key}
    {unfinished : List (List Byte)} (data : ∀ seg ∈ unfinished, seg ≠ [])
    {n : Nat} {cur frames : List (List Byte)} {next : CipherState Key}
    (opened : openSegments aead ⟨some key, n⟩ cur unfinished =
      .ok (frames, next)) :
    frames = [] ∧ next = ⟨some key, n + unfinished.length⟩ := by
  induction unfinished generalizing n cur with
  | nil =>
    cases opened
    exact ⟨rfl, rfl⟩
  | cons seg unfinished induction =>
    rw [List.forall_mem_cons] at data
    rw [openSegments, if_neg data.1] at opened
    cases first : (CipherState.mk (some key) n).decryptWithAd aead [] seg with
    | error reason =>
      rw [first] at opened
      cases opened
    | ok plain =>
      obtain ⟨-, advanced, -⟩ := decryptWithAd_eq_ok first
      rw [first] at opened
      simp only [Except.bind] at opened
      rw [advanced] at opened
      obtain ⟨none, counted⟩ := induction data.2 opened
      refine ⟨none, ?_⟩
      rw [counted, List.length_cons, Nat.add_right_comm, Nat.add_assoc]

section

variable {aead : Aead Key} {key : Key} {parts : List (List Byte)}
  {delivered : List Byte} (unforgeable : aead.Unforgeable key parts delivered)
include unforgeable

/-- The frames that ended hold the next plaintexts sent, in order. -/
theorem openSegments_closed {closed : List (List Byte)} (ended : Closed closed)
    (arrived : ∀ seg ∈ closed, seg <:+: delivered)
    {n : Nat} {cur frames : List (List Byte)} (begun : closed = [] → cur = [])
    {next : CipherState Key}
    (opened : openSegments aead ⟨some key, n⟩ cur closed =
      .ok (frames, next)) :
    frames.length = closed.count [] ∧
      ∃ count, next = ⟨some key, n + count⟩ ∧
        frames.flatten = cur.flatten ++ ((parts.drop n).take count).flatten := by
  induction closed generalizing n cur frames with
  | nil =>
    cases opened
    refine ⟨rfl, 0, rfl, ?_⟩
    rw [begun rfl, List.take_zero]
    rfl
  | cons seg closed induction =>
    rw [List.forall_mem_cons] at arrived
    rw [openSegments] at opened
    by_cases empty : seg = []
    · rw [if_pos empty] at opened
      cases later : openSegments aead ⟨some key, n⟩ [] closed with
      | error reason =>
        rw [later] at opened
        cases opened
      | ok rest =>
        rw [later] at opened
        cases opened
        obtain ⟨sizes, count, counted, joined⟩ :=
          induction ended.tail arrived.2 (fun _ => rfl) later
        refine ⟨?_, count, counted, ?_⟩
        · rw [empty, List.count_cons_self, List.length_cons, sizes]
        · rw [List.flatten_cons, joined]
          rfl
    · rw [if_neg empty] at opened
      have more : closed ≠ [] := by
        rintro rfl
        exact empty (ended seg rfl)
      cases first : (CipherState.mk (some key) n).decryptWithAd aead []
          seg with
      | error reason =>
        rw [first] at opened
        cases opened
      | ok plain =>
        obtain ⟨within, advanced, found⟩ := decryptWithAd_eq_ok first
        obtain ⟨here, -⟩ :=
          unforgeable.sealed n seg _ arrived.1 within found
        rw [first] at opened
        simp only [Except.bind] at opened
        rw [advanced] at opened
        obtain ⟨sizes, count, counted, joined⟩ :=
          induction ended.tail arrived.2 (fun none => absurd none more) opened
        have dropped : parts.drop n = plain.1 :: parts.drop (n + 1) :=
          List.drop_eq_getElem?_toList_append.trans (by rw [here]; rfl)
        refine ⟨?_, count + 1, ?_, ?_⟩
        · rw [List.count_cons_of_ne empty, sizes]
        · rw [counted, Nat.add_right_comm, Nat.add_assoc]
        · rw [joined, dropped, List.take_succ_cons, List.flatten_append,
            List.flatten_cons, List.flatten_cons, List.flatten_nil,
            List.append_nil, List.append_assoc]

/--
After a segment was opened and not handed on, no data event succeeds: the
segment is read again, under a later nonce.
-/
theorem stuck_of_unfinished {m n : Nat} {seg piece : List Byte}
    (within : m ≤ maxNonce) (sent : parts[m]? = some piece)
    (sealed : seg = aead.encrypt key (counterNonce m) [] piece)
    (later : m < n) {more : List (List Byte)}
    (valid : ∀ each ∈ seg :: more, segmentFormat.Valid each)
    (data : seg ≠ []) (tail : List Byte) :
    (Receiver.mk (segmentFormat.writeAll (seg :: more) ++ tail)
      ⟨some key, n⟩).Stuck aead := by
  intro chunk
  have failed : ∃ reason,
      (CipherState.mk (some key) n).decryptWithAd aead [] seg =
        .error reason := by
    cases opened : (CipherState.mk (some key) n).decryptWithAd aead [] seg with
    | error reason => exact ⟨reason, rfl⟩
    | ok plain =>
      obtain ⟨inRange, -, found⟩ := decryptWithAd_eq_ok opened
      rw [sealed, unforgeable.other_nonce m n piece sent within inRange
        later.ne'] at found
      cases found
  obtain ⟨reason, failed⟩ := failed
  refine ⟨reason, ?_⟩
  rw [Receiver.onData, decryptFrames, decryptLoop_eq, List.append_assoc,
    Format.split_writeAll_append valid, List.cons_append, openSegments,
    if_neg data, failed]
  rfl

/--
A data event hands on the next plaintexts sent.  It leaves the receiver at the
next nonce, or it leaves a carry-over that cannot be read.
-/
theorem onData_opened {n : Nat} {ct chunk : List Byte}
    (arrived : ct ++ chunk <:+: delivered)
    {frames : List (List Byte)} {next : Receiver Key}
    (taken : (Receiver.mk ct ⟨some key, n⟩).onData aead chunk =
      .ok (frames, next)) :
    ∃ count, frames.flatten = ((parts.drop n).take count).flatten ∧
      (next.recv = ⟨some key, n + count⟩ ∨ next.Stuck aead) := by
  obtain ⟨closed, unfinished, cut, ended, data⟩ :=
    exists_closed_append (segmentFormat.split (ct ++ chunk)).1
  have parts (seg : List Byte) (member : seg ∈ closed ++ unfinished) :
      seg <:+: delivered :=
    (mem_split_within (cut ▸ member)).trans arrived
  rw [Receiver.onData, decryptFrames, decryptLoop_eq, cut,
    openSegments_append ended fun _ => rfl] at taken
  cases front : openSegments aead ⟨some key, n⟩ [] closed with
  | error reason =>
    rw [front] at taken
    cases taken
  | ok whole =>
    obtain ⟨sizes, count, counted, joined⟩ :=
      openSegments_closed unforgeable ended
        (fun seg member => parts seg (List.mem_append_left _ member))
        (fun _ => rfl) front
    rw [front] at taken
    simp only [Except.bind] at taken
    rw [counted] at taken
    cases last : openSegments aead ⟨some key, n + count⟩ [] unfinished with
    | error reason =>
      rw [last] at taken
      cases taken
    | ok later =>
      obtain ⟨none, advanced⟩ := openSegments_unfinished data last
      rw [last] at taken
      simp only [Except.map] at taken
      rw [none, advanced, List.append_nil] at taken
      cases taken
      refine ⟨count, joined, ?_⟩
      rw [sizes, drop_pendingFrameStart ended data cut]
      cases unfinished with
      | nil => exact Or.inl rfl
      | cons seg more =>
        right
        have opening := last
        rw [openSegments, if_neg (data seg List.mem_cons_self)] at opening
        cases first : (CipherState.mk (some key)
            (n + count)).decryptWithAd aead [] seg with
        | error reason =>
          rw [first] at opening
          cases opening
        | ok plain =>
          obtain ⟨within, -, found⟩ := decryptWithAd_eq_ok first
          obtain ⟨sent, sealed⟩ := unforgeable.sealed _ seg _
            (parts seg (List.mem_append_right _ List.mem_cons_self)) within
            found
          obtain ⟨-, valid, -⟩ :=
            segmentFormat.writeAll_split (ct ++ chunk)
          rw [cut] at valid
          refine stuck_of_unfinished unforgeable within sent sealed ?_
            (fun each member =>
              valid each (List.mem_append_right closed member))
            (data seg List.mem_cons_self) _
          rw [List.length_cons]
          omega

end

/-! ## What is handed on -/

namespace Session

/-- The frames not dispatched yet begin with the bytes at hand. -/
def Ahead (frames : List Sv2Frame) (session : Session Key)
    (back : List Byte) : Prop :=
  ∃ later, frames = session.dispatched ++ later ∧
    session.plain ++ back = frameFormat.writeAll later

theorem dispatchFrames_cases (throws : List Sv2Frame → Bool)
    (session : Session Key) (found : List Sv2Frame) :
    (dispatchFrames throws session found).dispatched <+:
        session.dispatched ++ found ∧
      ((dispatchFrames throws session found).destroyed = false →
        dispatchFrames throws session found =
          { session with dispatched := session.dispatched ++ found }) := by
  induction found generalizing session with
  | nil =>
    rw [dispatchFrames, List.append_nil]
    exact ⟨List.prefix_rfl, fun _ => rfl⟩
  | cons frame found induction =>
    rw [dispatchFrames]
    split
    · refine ⟨?_, fun alive => by cases alive⟩
      refine ⟨found, ?_⟩
      exact (List.append_cons _ _ _).symm
    · obtain ⟨front, rest⟩ := induction
        { session with dispatched := session.dispatched ++ [frame] }
      dsimp only at front rest
      rw [← List.append_cons] at front rest
      exact ⟨front, rest⟩

section

variable {frames : List Sv2Frame} (fits : ∀ frame ∈ frames, frame.Fits)
include fits

theorem handlePlainBytes_ahead (throws : List Sv2Frame → Bool)
    {session : Session Key} {bytes back : List Byte}
    (ahead : session.Ahead frames (bytes ++ back)) :
    (handlePlainBytes throws session bytes).dispatched <+: frames ∧
      ((handlePlainBytes throws session bytes).destroyed = false →
        (handlePlainBytes throws session bytes).receiver = session.receiver ∧
          (handlePlainBytes throws session bytes).Ahead frames back) := by
  obtain ⟨later, rfl, stream⟩ := ahead
  rw [← List.append_assoc] at stream
  obtain ⟨rest, cut, left⟩ := Format.split_of_front
    (fun frame member => fits frame (List.mem_append_right _ member)) stream
  obtain ⟨front, whole⟩ := dispatchFrames_cases throws
    { session with plain := (splitFrames (session.plain ++ bytes)).2 }
    (splitFrames (session.plain ++ bytes)).1
  dsimp only at front whole
  rw [handlePlainBytes]
  refine ⟨?_, fun alive => ?_⟩
  · rw [cut, ← List.append_assoc]
    exact front.trans (List.prefix_append _ _)
  · rw [whole alive]
    refine ⟨rfl, rest, ?_, left⟩
    rw [List.append_assoc]
    exact congrArg _ cut

theorem handleAll_ahead (throws : List Sv2Frame → Bool)
    {session : Session Key} {opened : List (List Byte)} {back : List Byte}
    (ahead : session.Ahead frames (opened.flatten ++ back)) :
    (handleAll throws session opened).dispatched <+: frames ∧
      ((handleAll throws session opened).destroyed = false →
        (handleAll throws session opened).receiver = session.receiver ∧
          (handleAll throws session opened).Ahead frames back) := by
  induction opened generalizing session with
  | nil =>
    obtain ⟨later, rfl, stream⟩ := ahead
    exact ⟨List.prefix_append _ _, fun _ => ⟨rfl, later, rfl, stream⟩⟩
  | cons bytes opened induction =>
    rw [List.flatten_cons, List.append_assoc] at ahead
    obtain ⟨front, whole⟩ := handlePlainBytes_ahead fits throws ahead
    rw [handleAll]
    by_cases destroyed :
        (handlePlainBytes throws session bytes).destroyed = true
    · rw [if_pos destroyed]
      refine ⟨front, fun open_ => ?_⟩
      rw [destroyed] at open_
      cases open_
    · rw [Bool.not_eq_true] at destroyed
      obtain ⟨same, rest⟩ := whole destroyed
      rw [destroyed, if_neg Bool.false_ne_true]
      obtain ⟨front, last⟩ := induction rest
      refine ⟨front, fun open_ => ?_⟩
      rw [(last open_).1, same]
      exact ⟨rfl, (last open_).2⟩

end

/-! ## Whole streams -/

/--
What holds while some bytes are still to come.  While the connection lives, the
bytes of the frames not dispatched are the ones at hand and the plaintexts not
handed on.
-/
structure Sound (aead : Aead Key) (key : Key) (frames : List Sv2Frame)
    (delivered coming : List Byte) (session : Session Key) : Prop where
  front : session.dispatched <+: frames
  alive : session.destroyed = false →
    session.receiver.ct ++ coming <:+ delivered ∧ ∃ n,
      session.Ahead frames ((sentPieces frames).drop n).flatten ∧
        (session.receiver.recv = ⟨some key, n⟩ ∨ session.receiver.Stuck aead)

theorem sound_start (aead : Aead Key) (key : Key) (frames : List Sv2Frame)
    (delivered : List Byte) :
    (start key).Sound aead key frames delivered delivered where
  front := List.nil_prefix
  alive _ := by
    refine ⟨List.suffix_rfl, 0, ⟨frames, rfl, ?_⟩, Or.inl rfl⟩
    exact flatten_sentPieces frames

section

variable {aead : Aead Key} {key : Key} {frames : List Sv2Frame}
  {delivered : List Byte} (fits : ∀ frame ∈ frames, frame.Fits)
  (unforgeable : aead.Unforgeable key (sentPieces frames) delivered)
include fits unforgeable

theorem sound_onData (throws : List Sv2Frame → Bool) {session : Session Key}
    {chunk coming : List Byte}
    (sound : session.Sound aead key frames delivered (chunk ++ coming)) :
    (session.onData aead throws chunk).Sound aead key frames delivered
      coming := by
  rw [onData]
  by_cases destroyed : session.destroyed = true
  · rw [if_pos destroyed]
    exact ⟨sound.front, fun alive => by cases destroyed.symm.trans alive⟩
  · rw [if_neg destroyed]
    rw [Bool.not_eq_true] at destroyed
    obtain ⟨arrives, n, ahead, cipher⟩ := sound.alive destroyed
    rw [← List.append_assoc] at arrives
    cases taken : session.receiver.onData aead chunk with
    | error reason =>
      exact ⟨sound.front, fun alive => by cases alive⟩
    | ok obtained =>
      rcases cipher with counter | stuck
      · have event : (Receiver.mk session.receiver.ct
            ⟨some key, n⟩).onData aead chunk = .ok obtained := by
          rw [← counter]
          exact taken
        obtain ⟨count, joined, left⟩ := onData_opened unforgeable
          ((List.prefix_append _ coming).isInfix.trans arrives.isInfix) event
        have later : ({ session with receiver := obtained.2 } :
            Session Key).Ahead frames (obtained.1.flatten ++
              ((sentPieces frames).drop (n + count)).flatten) := by
          rw [joined, ← List.drop_drop, ← List.flatten_append,
            List.take_append_drop]
          exact ahead
        obtain ⟨front, rest⟩ := handleAll_ahead fits throws later
        refine ⟨front, fun alive => ?_⟩
        change (handleAll throws _ _).receiver.ct ++ coming <:+ delivered ∧ _
        rw [(rest alive).1]
        obtain ⟨dropped, kept⟩ := Receiver.onData_ct taken
        refine ⟨List.IsSuffix.trans ⟨dropped, ?_⟩ arrives, n + count,
          (rest alive).2, left⟩
        rw [← List.append_assoc, kept]
      · obtain ⟨reason, failed⟩ := stuck chunk
        cases failed.symm.trans taken

theorem sound_onStream (throws : List Sv2Frame → Bool) {session : Session Key}
    {chunks : List (List Byte)}
    (sound : session.Sound aead key frames delivered chunks.flatten) :
    (session.onStream aead throws chunks).Sound aead key frames delivered
      [] := by
  induction chunks generalizing session with
  | nil => exact sound
  | cons chunk chunks induction =>
    exact induction (sound_onData fits unforgeable throws sound)

end

/--
Whatever bytes are delivered in whatever chunks, the frames dispatched are a
front of the frames sent.
-/
theorem dispatched_front_of_sent {aead : Aead Key} {key : Key}
    {frames : List Sv2Frame} (fits : ∀ frame ∈ frames, frame.Fits)
    {chunks : List (List Byte)}
    (unforgeable :
      aead.Unforgeable key (sentPieces frames) chunks.flatten)
    (throws : List Sv2Frame → Bool) :
    ((start key).onStream aead throws chunks).dispatched <+: frames :=
  (sound_onStream fits unforgeable throws
    (sound_start aead key frames chunks.flatten)).front

end Session

/-! ## A cipher that cannot be forged -/

/--
A cipher whose key is the table of the plaintexts that may be sealed, one a
nonce; the nonce stands in front of the plaintext.
-/
def tableAead : Aead (List (List Byte)) where
  encrypt _ nonce _ plaintext := nonce ++ plaintext
  decrypt table nonce _ ciphertext :=
    if ciphertext.take nonceLen = nonce ∧
        table[leValue (nonce.drop 4)]? = some (ciphertext.drop nonceLen) then
      some (ciphertext.drop nonceLen)
    else none

theorem leValue_counterNonce {n : Nat} (within : n ≤ maxNonce) :
    leValue ((counterNonce n).drop 4) = n := by
  have dropped : (counterNonce n).drop 4 = leBytes 8 n := List.drop_left' rfl
  rw [dropped, leValue_leBytes]
  rw [maxNonce] at within
  omega

theorem tableAead_unforgeable (table : List (List Byte))
    (delivered : List Byte) :
    tableAead.Unforgeable table table delivered where
  sealed n ciphertext plaintext _ within opened := by
    simp only [tableAead, Option.ite_none_right_eq_some,
      Option.some.injEq] at opened
    obtain ⟨⟨nonce, sent⟩, rfl⟩ := opened
    rw [leValue_counterNonce within] at sent
    refine ⟨sent, ?_⟩
    change ciphertext = counterNonce n ++ ciphertext.drop nonceLen
    rw [← nonce, List.take_append_drop]
  other_nonce n other plaintext _ within inRange differs := by
    have front : (counterNonce n ++ plaintext).take nonceLen =
        counterNonce n := List.take_left' (length_counterNonce n)
    change (if _ ∧ _ then _ else none) = none
    refine if_neg fun both => ?_
    exact differs (counterNonce_injective within inRange
      (front.symm.trans both.1)).symm

/-- A frame of a connection being set up. -/
def openingFrame : Sv2Frame where
  extensionType := 0
  channelMsg := false
  msgType := 0
  payload := [2, 0]

/--
The frame is sent twice; the attacker delivers the two segments in one
encrypted frame, with an empty one before it.
-/
theorem merged_frames_front :
    ((Session.start (sentPieces [openingFrame, openingFrame])).onStream tableAead
        (fun _ => false)
        [[0, 0], segmentFormat.writeAll (sealPieces tableAead
          (sentPieces [openingFrame, openingFrame]) 0
            (sentPieces [openingFrame, openingFrame]) ++ [[]])]).dispatched <+:
      [openingFrame, openingFrame] :=
  Session.dispatched_front_of_sent
    (fun frame member => by
      rw [List.mem_pair, or_self] at member
      subst member
      exact ⟨by decide, by decide, by decide⟩)
    (tableAead_unforgeable _ _) _

end B3Chain.Sv2
