import B3Chain.Sv2.NoiseTransport

/-!
# Chunks of a Noise transport stream

What `decryptFrames` does with a buffer depends only on the complete segments
in it.  It opens all of them, and then rewinds to the start of the unfinished
frame; the nonce counter is not rewound with it.  So a stream of sealed frames
arrives exactly when no cut falls between a complete segment of a frame and
that frame's end.
-/

namespace B3Chain.Sv2

open Words Framing

section

variable {Key : Type} (aead : Aead Key)

/-! ## What a buffer's segments decide -/

/-- What the loop does with the complete segments of a buffer. -/
def openSegments (recv : CipherState Key) (cur : List (List Byte)) :
    List (List Byte) → Except NoiseError (List (List Byte) × CipherState Key)
  | [] => .ok ([], recv)
  | seg :: rest =>
    if seg = [] then
      (openSegments recv [] rest).map fun later =>
        (cur.flatten :: later.1, later.2)
    else
      (recv.decryptWithAd aead [] seg).bind fun opened =>
        openSegments opened.2 (cur ++ [opened.1]) rest

theorem decryptLoop_eq (recv : CipherState Key) (cur : List (List Byte))
    (buf : List Byte) :
    decryptLoop aead recv cur buf =
      openSegments aead recv cur (segmentFormat.split buf).1 := by
  fun_induction decryptLoop aead recv cur buf with
  | case1 recv cur buf found =>
    have none : segmentFormat.first buf = none := found
    rw [Format.split_of_none none, openSegments]
  | case2 recv cur buf rest found shorter induction =>
    have one : segmentFormat.first buf = some ([], rest) := found
    rw [Format.split_of_first one, openSegments, if_pos rfl, induction]
  | case3 recv cur buf seg rest found shorter data induction =>
    have one : segmentFormat.first buf = some (seg, rest) := found
    rw [Format.split_of_first one, openSegments, if_neg data]
    exact congrArg _ (funext fun opened => induction opened)

/-- The last of the segments, if there is one, ends a frame. -/
def Closed (segments : List (List Byte)) : Prop :=
  ∀ last ∈ segments.getLast?, last = []

theorem pendingLoop_of_unfinished {unfinished : List (List Byte)}
    (data : ∀ seg ∈ unfinished, seg ≠ []) {buf : List Byte}
    (found : (segmentFormat.split buf).1 = unfinished)
    (completedFrames off frameStart completed : Nat) :
    pendingLoop completedFrames off frameStart completed buf =
      frameStart := by
  induction unfinished generalizing buf off with
  | nil =>
    have none : nextSegment buf = none := Format.split_eq_nil_iff.mp found
    rw [pendingLoop]
    split
    · rfl
    · next other => cases none.symm.trans other
  | cons seg later induction =>
    obtain ⟨rest, one, tail⟩ := Format.first_of_split_eq_cons found
    rw [pendingLoop]
    split
    · rfl
    · next other =>
        cases one.symm.trans other
        rw [if_neg (data seg List.mem_cons_self)]
        exact induction (fun later member =>
          data later (List.mem_cons_of_mem seg member)) tail _

variable {n : Nat} {key : Key} {frames parts : List (List Byte)}
  {seg : List Byte}

theorem Closed.tail {later : List (List Byte)} (ended : Closed (seg :: later)) :
    Closed later := by
  intro last member
  cases later with
  | nil => cases member
  | cons next more =>
    apply ended last
    rwa [List.getLast?_cons_cons]

/-- The cursor goes to the end of the last frame that is complete. -/
theorem pendingLoop_eq {closed unfinished : List (List Byte)}
    (ended : Closed closed) {buf : List Byte}
    (found : (segmentFormat.split buf).1 = closed ++ unfinished)
    (nonempty : closed ≠ []) (off frameStart completed : Nat) :
    pendingLoop (completed + closed.count []) off frameStart completed buf =
      off + (segmentFormat.writeAll closed).length := by
  induction closed generalizing buf off frameStart completed with
  | nil => exact absurd rfl nonempty
  | cons seg later induction =>
    obtain ⟨rest, one, tail⟩ := Format.first_of_split_eq_cons found
    have size : (segmentFormat.write seg).length = 2 + seg.length := by
      change (writeSegment seg).length = _
      rw [writeSegment, List.length_append, length_leBytes]
    rw [pendingLoop]
    split
    · next other => cases one.symm.trans other
    · next other =>
        cases one.symm.trans other
        rw [Format.writeAll_cons, List.length_append, size]
        by_cases more : later = []
        · subst more
          have last : seg = [] := ended seg rfl
          subst last
          simp
        · have positive : 0 < later.count [] := by
            refine List.count_pos_iff.mpr ?_
            have last := List.getLast?_eq_some_getLast more
            rw [← ended.tail _ last]
            exact List.getLast_mem more
          split
          · next empty =>
              subst empty
              rw [List.count_cons_self, if_neg (by omega),
                show completed + (later.count [] + 1) =
                  completed + 1 + later.count [] by omega,
                induction ended.tail tail more]
              omega
          · next full =>
              rw [List.count_cons_of_ne full, induction ended.tail tail more]
              omega

/-- The carry-over after a buffer begins with the unfinished frame. -/
theorem drop_pendingFrameStart {closed unfinished : List (List Byte)}
    (ended : Closed closed) (data : ∀ seg ∈ unfinished, seg ≠ [])
    {buf : List Byte}
    (found : (segmentFormat.split buf).1 = closed ++ unfinished) :
    buf.drop (pendingFrameStart buf (closed.count [])) =
      segmentFormat.writeAll unfinished ++ (segmentFormat.split buf).2 := by
  have start : pendingFrameStart buf (closed.count []) =
      (segmentFormat.writeAll closed).length := by
    by_cases none : closed = []
    · subst none
      exact pendingLoop_of_unfinished data found _ _ _ _
    · have cursor := pendingLoop_eq ended found none 0 0 0
      rwa [Nat.zero_add, Nat.zero_add] at cursor
  obtain ⟨rejoined, -, -⟩ := segmentFormat.writeAll_split buf
  rw [found, Format.writeAll_append, List.append_assoc] at rejoined
  rw [start]
  nth_rewrite 1 [← rejoined]
  exact List.drop_left

/-! ## Sealed frames -/

/-- The pieces a frame is cut into. -/
def pieces (plaintext : List Byte) : List (List Byte) :=
  if ended : plaintext = [] then []
  else
    have := length_drop_lt ended
    plaintext.take noiseMaxPlaintext ::
      pieces (plaintext.drop noiseMaxPlaintext)
termination_by plaintext.length
decreasing_by exact this

/-- Pieces sealed under consecutive nonces. -/
def sealPieces (key : Key) : Nat → List (List Byte) → List (List Byte)
  | _, [] => []
  | n, piece :: rest =>
    aead.encrypt key (counterNonce n) [] piece :: sealPieces key (n + 1) rest

/-- The segments of frames sent from a nonce on. -/
def sealFrames (key : Key) : Nat → List (List Byte) → List (List Byte)
  | _, [] => []
  | n, frame :: frames =>
    sealPieces aead key n (pieces frame) ++
      [] :: sealFrames key (n + (pieces frame).length) frames

/-- The number of nonces that frames use. -/
def pieceCount : List (List Byte) → Nat
  | [] => 0
  | frame :: frames => (pieces frame).length + pieceCount frames

theorem pieceCount_append (left right : List (List Byte)) :
    pieceCount (left ++ right) = pieceCount left + pieceCount right := by
  induction left with
  | nil => exact (Nat.zero_add _).symm
  | cons frame frames induction =>
    rw [List.cons_append, pieceCount, pieceCount, induction, Nat.add_assoc]

theorem pieces_nil : pieces [] = [] := by
  rw [pieces, dif_pos rfl]

theorem pieces_of_ne_nil {plaintext : List Byte} (nonempty : plaintext ≠ []) :
    pieces plaintext =
      plaintext.take noiseMaxPlaintext ::
        pieces (plaintext.drop noiseMaxPlaintext) := by
  rw [pieces, dif_neg nonempty]

theorem flatten_pieces (plaintext : List Byte) :
    (pieces plaintext).flatten = plaintext := by
  fun_induction pieces plaintext with
  | case1 => rfl
  | case2 plaintext ended shorter induction =>
    rw [List.flatten_cons, induction, List.take_append_drop]

theorem length_le_of_mem_pieces {plaintext piece : List Byte}
    (member : piece ∈ pieces plaintext) :
    piece.length ≤ noiseMaxPlaintext := by
  fun_induction pieces plaintext with
  | case1 => cases member
  | case2 plaintext ended shorter induction =>
    rcases List.mem_cons.mp member with rfl | later
    · exact List.length_take_le _ _
    · exact induction later

theorem length_sealPieces (key : Key) (n : Nat) (parts : List (List Byte)) :
    (sealPieces aead key n parts).length = parts.length := by
  induction parts generalizing n with
  | nil => rfl
  | cons part rest induction =>
    rw [sealPieces, List.length_cons, List.length_cons, induction]

theorem length_counterNonce (n : Nat) : (counterNonce n).length = nonceLen := by
  rw [counterNonce, List.length_append, List.length_replicate, length_leBytes]
  rfl

theorem counterNonce_injective {m : Nat} (left : m ≤ maxNonce)
    (right : n ≤ maxNonce) (same : counterNonce m = counterNonce n) :
    m = n := by
  have top : maxNonce < 256 ^ 8 := by decide
  exact leBytes_injective (left.trans_lt top) (right.trans_lt top)
    (List.append_cancel_left same)

theorem nonceBytes_of_le (fits : n ≤ maxNonce) :
    nonceBytes n = .ok (counterNonce n) :=
  if_neg (Nat.not_lt.mpr fits)

/-- The nonces from `n` on that are used are within range. -/
def NoncesFit (n count : Nat) : Prop :=
  ∀ used, n ≤ used → used < n + count → used ≤ maxNonce

theorem NoncesFit.left {front back : Nat} (fit : NoncesFit n (front + back)) :
    NoncesFit n front :=
  fun used from_ until_ => fit used from_ (by omega)

theorem NoncesFit.right {front back : Nat} (fit : NoncesFit n (front + back)) :
    NoncesFit (n + front) back :=
  fun used from_ until_ => fit used (by omega) (by omega)

/-! ### What was sent -/

theorem encryptSegments_ok {plaintext : List Byte}
    {segments : List (List Byte)} {final : CipherState Key}
    (sent : encryptSegments aead ⟨some key, n⟩ plaintext =
      .ok (segments, final)) :
    segments = sealPieces aead key n (pieces plaintext) ∧
      final = ⟨some key, n + (pieces plaintext).length⟩ ∧
        NoncesFit n (pieces plaintext).length := by
  induction size : plaintext.length using Nat.strong_induction_on
    generalizing plaintext n segments with
  | _ count induction =>
    rw [encryptSegments] at sent
    split at sent
    · next ended =>
        cases sent
        subst ended
        rw [pieces_nil]
        exact ⟨rfl, rfl, fun used from_ until_ => by
          rw [List.length_nil] at until_
          omega⟩
    · next nonempty =>
        change ((nonceBytes n).map _).bind _ = _ at sent
        rw [nonceBytes] at sent
        split at sent
        · cases sent
        · next fits =>
            simp only [Except.map, Except.bind] at sent
            split at sent
            · cases sent
            · next later found =>
                cases sent
                obtain ⟨sealed, ended, fit⟩ := induction _
                  (size ▸ length_drop_lt nonempty) found rfl
                rw [pieces_of_ne_nil nonempty, List.length_cons]
                refine ⟨?_, ?_, fun used from_ until_ => ?_⟩
                · rw [sealPieces, sealed]
                · rw [ended, Nat.add_right_comm, Nat.add_assoc]
                · rcases Nat.eq_or_lt_of_le from_ with rfl | beyond
                  · exact Nat.not_lt.mp fits
                  · exact fit used beyond (by omega)

theorem encryptFrames_ok {wire : List Byte} {final : CipherState Key}
    (sent : encryptFrames aead ⟨some key, n⟩ frames = .ok (wire, final)) :
    wire = segmentFormat.writeAll (sealFrames aead key n frames) ∧
      NoncesFit n (pieceCount frames) := by
  induction frames generalizing n wire with
  | nil =>
    cases sent
    exact ⟨rfl, fun used from_ until_ => by
      rw [pieceCount] at until_
      omega⟩
  | cons frame frames induction =>
    rw [encryptFrames, encryptFrame] at sent
    cases first : encryptSegments aead ⟨some key, n⟩ frame with
    | error reason =>
      rw [first] at sent
      cases sent
    | ok segments =>
      obtain ⟨sealed, cipher, fit⟩ := encryptSegments_ok aead first
      rw [first] at sent
      simp only [Except.map, Except.bind] at sent
      rw [cipher] at sent
      split at sent
      · cases sent
      · next later found =>
          cases sent
          obtain ⟨written, laterFit⟩ := induction found
          refine ⟨?_, fun used from_ until_ => ?_⟩
          · rw [sealFrames, Format.writeAll_append, Format.writeAll_cons,
              written, sealed]
            exact List.append_assoc _ _ _
          · by_cases inside : used < n + (pieces frame).length
            · exact fit used from_ inside
            · rw [pieceCount] at until_
              exact laterFit used (Nat.not_lt.mp inside) (by omega)

section

variable {aead} (correct : aead.Correct)
include correct

theorem ne_nil_of_mem_sealPieces (member : seg ∈ sealPieces aead key n parts) :
    seg ≠ [] := by
  induction parts generalizing n with
  | nil => cases member
  | cons part rest induction =>
    rw [sealPieces] at member
    rcases List.mem_cons.mp member with rfl | later
    · refine List.ne_nil_of_length_pos ?_
      rw [correct.length_encrypt _ _ _ _ (length_counterNonce n), tagLen]
      omega
    · exact induction later

theorem valid_of_mem_sealPieces
    (short : ∀ part ∈ parts, part.length ≤ noiseMaxPlaintext)
    (member : seg ∈ sealPieces aead key n parts) :
    segmentFormat.Valid seg := by
  induction parts generalizing n with
  | nil => cases member
  | cons part rest induction =>
    rw [sealPieces] at member
    rw [List.forall_mem_cons] at short
    rcases List.mem_cons.mp member with rfl | later
    · have bound := short.1
      change List.length _ < 256 ^ 2
      rw [correct.length_encrypt _ _ _ _ (length_counterNonce n)]
      rw [noiseMaxPlaintext, noiseMaxSegment, tagLen] at bound
      rw [tagLen]
      omega
    · exact induction short.2 later

theorem valid_of_mem_sealFrames (member : seg ∈ sealFrames aead key n frames) :
    segmentFormat.Valid seg := by
  induction frames generalizing n with
  | nil => cases member
  | cons frame frames induction =>
    rw [sealFrames] at member
    rcases List.mem_append.mp member with data | ended
    · exact valid_of_mem_sealPieces correct
        (fun part => length_le_of_mem_pieces) data
    · rcases List.mem_cons.mp ended with rfl | later
      · change List.length _ < 256 ^ 2
        norm_num
      · exact induction later

theorem count_sealFrames (key : Key) (n : Nat) (frames : List (List Byte)) :
    (sealFrames aead key n frames).count [] = frames.length := by
  induction frames generalizing n with
  | nil => rfl
  | cons frame frames induction =>
    have none : (sealPieces aead key n (pieces frame)).count [] = 0 :=
      List.count_eq_zero.mpr fun member =>
        ne_nil_of_mem_sealPieces correct member rfl
    rw [sealFrames, List.count_append, none, List.count_cons_self, induction,
      List.length_cons, Nat.zero_add]

/-! ### What is opened -/

/-- Sealed pieces open under the nonces they were sealed with. -/
theorem openSegments_sealPieces (key : Key) (fit : NoncesFit n parts.length)
    (cur rest : List (List Byte)) :
    openSegments aead ⟨some key, n⟩ cur
        (sealPieces aead key n parts ++ rest) =
      openSegments aead ⟨some key, n + parts.length⟩ (cur ++ parts) rest := by
  induction parts generalizing n cur with
  | nil => rw [sealPieces, List.append_nil, List.length_nil]; rfl
  | cons part later induction =>
    have member : aead.encrypt key (counterNonce n) [] part ∈
        sealPieces aead key n (part :: later) := List.mem_cons_self
    have data := ne_nil_of_mem_sealPieces correct member
    have inRange := fit n le_rfl (by rw [List.length_cons]; omega)
    have laterFit : NoncesFit (n + 1) later.length := by
      rw [List.length_cons, Nat.add_comm] at fit
      exact fit.right
    have opened : (CipherState.mk (some key) n).decryptWithAd aead []
        (aead.encrypt key (counterNonce n) [] part) =
          .ok (part, ⟨some key, n + 1⟩) := by
      simp only [CipherState.decryptWithAd, nonceBytes_of_le inRange,
        Except.bind, correct.decrypt_encrypt]
    rw [sealPieces, List.cons_append, openSegments, if_neg data, opened]
    simp only [Except.bind]
    rw [induction laterFit, List.append_assoc, List.length_cons,
      List.singleton_append, Nat.add_right_comm, Nat.add_assoc]

/-- Sealed frames open to themselves, whatever follows. -/
theorem openSegments_sealFrames (fit : NoncesFit n (pieceCount frames))
    (rest : List (List Byte)) :
    openSegments aead ⟨some key, n⟩ []
        (sealFrames aead key n frames ++ rest) =
      (openSegments aead ⟨some key, n + pieceCount frames⟩ [] rest).map
        fun later => (frames ++ later.1, later.2) := by
  induction frames generalizing n with
  | nil =>
    rw [sealFrames, pieceCount, Nat.add_zero, List.nil_append]
    cases openSegments aead ⟨some key, n⟩ [] rest <;> rfl
  | cons frame frames induction =>
    rw [pieceCount] at fit
    rw [sealFrames, List.append_assoc,
      openSegments_sealPieces correct key fit.left, List.nil_append,
      List.cons_append, openSegments, if_pos rfl, induction fit.right,
      flatten_pieces, pieceCount, Nat.add_assoc]
    cases openSegments aead _ [] rest <;> rfl

/-- A piece does not open under a later nonce. -/
theorem openSegments_reread (key : Key) {step : Nat} (part : List Byte)
    (positive : 0 < step) (fits : n ≤ maxNonce) (cur rest : List (List Byte)) :
    ∃ reason, openSegments aead ⟨some key, n + step⟩ cur
      (aead.encrypt key (counterNonce n) [] part :: rest) =
        .error reason := by
  have data : aead.encrypt key (counterNonce n) [] part ≠ [] := by
    refine List.ne_nil_of_length_pos ?_
    rw [correct.length_encrypt _ _ _ _ (length_counterNonce n), tagLen]
    omega
  rw [openSegments, if_neg data, CipherState.decryptWithAd, nonceBytes]
  by_cases beyond : maxNonce < n + step
  · rw [if_pos beyond]
    exact ⟨.nonceOverflow, rfl⟩
  · have other : counterNonce (n + step) ≠ counterNonce n := fun same => by
      have equal := counterNonce_injective (Nat.not_lt.mp beyond) fits same
      omega
    rw [if_neg beyond]
    simp only [Except.bind, correct.other_nonce key _ _ [] part
      (length_counterNonce n) (length_counterNonce (n + step)) other]
    exact ⟨.invalidTag, rfl⟩

/-! ## Chunks -/

/-- The last complete segment received so far, if any, ends a frame. -/
def ClosedCut (received : List Byte) : Prop :=
  Closed (segmentFormat.split received).1

omit correct in
theorem sealPieces_eq_append {front back : List (List Byte)}
    (cut : sealPieces aead key n parts = front ++ back) :
    ∃ opened later, parts = opened ++ later ∧
      front = sealPieces aead key n opened := by
  induction parts generalizing n front with
  | nil =>
    have none := List.append_eq_nil_iff.mp cut.symm
    exact ⟨[], [], rfl, none.1⟩
  | cons part parts induction =>
    cases front with
    | nil => exact ⟨[], part :: parts, rfl, rfl⟩
    | cons seg front =>
      rw [sealPieces, List.cons_append, List.cons.injEq] at cut
      obtain ⟨opened, later, rfl, rfl⟩ := induction cut.2
      exact ⟨part :: opened, later, rfl, by rw [sealPieces, cut.1]⟩

omit correct in
/--
The front of a sealed stream: whole frames, and pieces of the next one that
has not ended.
-/
theorem sealFrames_eq_append {front back : List (List Byte)}
    (cut : sealFrames aead key n frames = front ++ back) :
    ∃ done todo opened, frames = done ++ todo ∧
      front = sealFrames aead key n done ++
        sealPieces aead key (n + pieceCount done) opened ∧
      sealPieces aead key (n + pieceCount done) opened ++ back =
        sealFrames aead key (n + pieceCount done) todo ∧
      (opened = [] ∨ ∃ frame rest later, todo = frame :: rest ∧
        pieces frame = opened ++ later) := by
  induction frames generalizing n front with
  | nil =>
    have none := List.append_eq_nil_iff.mp cut.symm
    refine ⟨[], [], [], rfl, ?_, ?_, Or.inl rfl⟩
    · rw [none.1]; rfl
    · rw [none.2]; rfl
  | cons frame frames induction =>
    have ended : sealFrames aead key n (frame :: frames) =
        (sealPieces aead key n (pieces frame) ++ [[]]) ++
          sealFrames aead key (n + (pieces frame).length) frames := by
      rw [sealFrames, List.append_assoc, List.singleton_append]
    rw [ended] at cut
    rcases List.append_eq_append_iff.mp cut with
      ⟨more, whole, later⟩ | ⟨more, part, later⟩
    · obtain ⟨done, todo, opened, rfl, front, rest, kind⟩ := induction later
      refine ⟨frame :: done, todo, opened, rfl, ?_, ?_, ?_⟩
      · rw [whole, front, sealFrames, pieceCount, Nat.add_assoc,
          List.append_assoc, List.append_assoc, List.singleton_append,
          List.cons_append]
      · rw [pieceCount, ← Nat.add_assoc, rest]
      · exact kind
    · rcases List.eq_nil_or_concat more with rfl | ⟨unread, last, rfl⟩
      · refine ⟨[frame], frames, [], rfl, ?_, ?_, Or.inl rfl⟩
        · rw [List.append_nil] at part
          rw [← part, sealFrames, sealFrames, sealPieces, List.append_nil]
        · rw [later, pieceCount, pieceCount, Nat.add_zero]
          rfl
      · rw [List.concat_eq_append] at part later
        have whole := part
        rw [← List.append_assoc] at whole
        obtain ⟨sealed, -⟩ := List.append_inj' whole rfl
        obtain ⟨opened, unsent, parts, rfl⟩ := sealPieces_eq_append sealed
        refine ⟨[], frame :: frames, opened, rfl, rfl, ?_,
          Or.inr ⟨frame, frames, unsent, rfl, parts⟩⟩
        rw [pieceCount, Nat.add_zero, ended, part, later,
          ← List.append_assoc]

theorem ne_nil_of_mem_unfinished :
    ∀ seg ∈ sealPieces aead key n parts, seg ≠ [] :=
  fun _ member => ne_nil_of_mem_sealPieces correct member

omit correct in
theorem closed_sealFrames (key : Key) (n : Nat) (frames : List (List Byte)) :
    Closed (sealFrames aead key n frames) := by
  induction frames generalizing n with
  | nil =>
    intro last member
    cases member
  | cons frame frames induction =>
    intro last member
    rw [sealFrames, List.getLast?_append_of_ne_nil _ (List.cons_ne_nil _ _)]
      at member
    cases later : sealFrames aead key (n + (pieces frame).length) frames with
    | nil =>
      rw [later] at member
      exact (Option.mem_some.mp member).symm
    | cons seg rest =>
      rw [later, List.getLast?_cons_cons, ← later] at member
      exact induction _ last member

omit correct in
theorem closed_append_iff {front back : List (List Byte)}
    (ended : Closed front) : Closed (front ++ back) ↔ Closed back := by
  by_cases none : back = []
  · subst none
    rw [List.append_nil]
    constructor
    · intro _ last member
      cases member
    · intro _
      exact ended
  · rw [Closed, Closed, List.getLast?_append_of_ne_nil _ none]

/-- One data event on the front of a sealed stream. -/
theorem onData_front {done opened : List (List Byte)}
    (fit : NoncesFit n (pieceCount done + opened.length))
    {ct chunk : List Byte}
    (found : (segmentFormat.split (ct ++ chunk)).1 =
      sealFrames aead key n done ++
        sealPieces aead key (n + pieceCount done) opened) :
    (Receiver.mk ct ⟨some key, n⟩).onData aead chunk =
      .ok (done,
        { ct := segmentFormat.writeAll
              (sealPieces aead key (n + pieceCount done) opened) ++
            (segmentFormat.split (ct ++ chunk)).2,
          recv := ⟨some key, n + pieceCount done + opened.length⟩ }) := by
  have rest := openSegments_sealPieces correct key fit.right [] []
  rw [List.append_nil, List.nil_append, openSegments] at rest
  have loop : decryptLoop aead ⟨some key, n⟩ [] (ct ++ chunk) =
      .ok (done, ⟨some key, n + pieceCount done + opened.length⟩) := by
    rw [decryptLoop_eq, found, openSegments_sealFrames correct fit.left, rest,
      Except.map, List.append_nil]
  have carried := drop_pendingFrameStart (closed_sealFrames key n done)
    (ne_nil_of_mem_unfinished correct) found
  rw [count_sealFrames correct] at carried
  rw [Receiver.onData, decryptFrames, loop]
  simp only [Except.map]
  rw [carried]

/-- After a cut inside a frame the next data event fails. -/
theorem onData_reread (key : Key) {part : List Byte}
    {opened : List (List Byte)}
    (short : ∀ piece ∈ part :: opened, piece.length ≤ noiseMaxPlaintext)
    (fits : n ≤ maxNonce) (tail chunk : List Byte) :
    ∃ reason,
      (Receiver.mk
          (segmentFormat.writeAll (sealPieces aead key n (part :: opened)) ++
            tail)
          ⟨some key, n + (part :: opened).length⟩).onData aead chunk =
        .error reason := by
  have valid := fun seg (member : seg ∈ sealPieces aead key n (part :: opened)) =>
    valid_of_mem_sealPieces correct short member
  obtain ⟨reason, failed⟩ := openSegments_reread correct key part
    (Nat.succ_pos opened.length) fits []
    (sealPieces aead key (n + 1) opened ++
      (segmentFormat.split (tail ++ chunk)).1)
  refine ⟨reason, ?_⟩
  rw [Receiver.onData, decryptFrames, decryptLoop_eq, List.append_assoc,
    Format.split_writeAll_append valid, sealPieces, List.cons_append,
    List.length_cons, failed]
  rfl

omit correct in
/-- A cut after whole frames looks as if the stream began there. -/
theorem closedCut_append_iff {segments : List (List Byte)}
    (valid : ∀ seg ∈ segments, segmentFormat.Valid seg)
    (ended : Closed segments) (rest : List Byte) :
    ClosedCut (segmentFormat.writeAll segments ++ rest) ↔ ClosedCut rest := by
  rw [ClosedCut, Format.split_writeAll_append valid]
  exact closed_append_iff ended

omit correct in
theorem closedCut_of_none {received : List Byte}
    (none : nextSegment received = none) : ClosedCut received := by
  intro last member
  rw [Format.split_eq_nil_iff.mpr none] at member
  cases member

/-- A cut inside a frame is never the end of the stream, and it is fatal. -/
theorem receiveAll_of_unfinished {opened back : List (List Byte)}
    (begun : opened ≠ []) (fit : NoncesFit n opened.length)
    (short : ∀ piece ∈ opened, piece.length ≤ noiseMaxPlaintext)
    (stream : sealPieces aead key n opened ++ back =
      sealFrames aead key n frames) {tail : List Byte}
    {chunks : List (List Byte)}
    (rest : tail ++ chunks.flatten = segmentFormat.writeAll back)
    (fresh : nextSegment tail = none) :
    ∃ reason, receiveAll aead
      ⟨segmentFormat.writeAll (sealPieces aead key n opened) ++ tail,
        ⟨some key, n + opened.length⟩⟩ chunks = .error reason := by
  have data : (sealPieces aead key n opened).count [] = 0 :=
    List.count_eq_zero.mpr fun member =>
      ne_nil_of_mem_sealPieces correct member rfl
  have frameCount := count_sealFrames correct key n frames
  rw [← stream, List.count_append, data, Nat.zero_add] at frameCount
  have valid : ∀ seg ∈ back, segmentFormat.Valid seg := fun seg member => by
    have inStream := List.mem_append_right (sealPieces aead key n opened) member
    rw [stream] at inStream
    exact valid_of_mem_sealFrames correct inStream
  cases chunks with
  | nil =>
    rw [List.flatten_nil, List.append_nil] at rest
    have none := segmentFormat.eq_nil_of_first_writeAll valid (rest ▸ fresh)
    subst none
    have noFrames := List.length_eq_zero_iff.mp frameCount.symm
    subst noFrames
    have size := congrArg List.length stream
    rw [List.append_nil, length_sealPieces, sealFrames, List.length_nil]
      at size
    exact absurd (List.length_eq_zero_iff.mp size) begun
  | cons chunk chunks =>
    cases opened with
    | nil => exact absurd rfl begun
    | cons part opened =>
      have fits := fit n le_rfl (by rw [List.length_cons]; omega)
      obtain ⟨reason, failed⟩ := onData_reread correct key
        short fits tail chunk
      refine ⟨reason, ?_⟩
      rw [receiveAll, failed]
      rfl

theorem not_closed_sealPieces (some : parts ≠ []) :
    ¬ Closed (sealPieces aead key n parts) := by
  intro ended
  have nonempty : sealPieces aead key n parts ≠ [] := fun none => by
    have size := congrArg List.length none
    rw [length_sealPieces] at size
    exact some (List.length_eq_zero_iff.mp size)
  exact ne_nil_of_mem_sealPieces correct (List.getLast_mem nonempty)
    (ended _ (List.getLast?_eq_some_getLast nonempty))

omit correct in
theorem exists_map_append_iff (done todo : List (List Byte))
    (result : Except NoiseError (List (List Byte) × Receiver Key)) :
    (∃ receiver, (result.map fun later => (done ++ later.1, later.2)) =
        .ok (done ++ todo, receiver)) ↔
      ∃ receiver, result = .ok (todo, receiver) := by
  cases result with
  | error reason => simp [Except.map]
  | ok obtained => simp [Except.map, Prod.ext_iff]

/--
Frames arrive from any point of the stream at which a frame begins exactly
when every later cut is closed.
-/
theorem receiveAll_iff (fit : NoncesFit n (pieceCount frames))
    {ct : List Byte} {chunks : List (List Byte)}
    (fresh : nextSegment ct = none)
    (stream : ct ++ chunks.flatten =
      segmentFormat.writeAll (sealFrames aead key n frames)) :
    (∃ receiver, receiveAll aead ⟨ct, ⟨some key, n⟩⟩ chunks =
        .ok (frames, receiver)) ↔
      ∀ count ≤ chunks.length,
        ClosedCut (ct ++ (chunks.take count).flatten) := by
  induction chunks generalizing ct n frames with
  | nil =>
    rw [List.flatten_nil, List.append_nil] at stream
    have none := segmentFormat.eq_nil_of_first_writeAll
      (fun seg => valid_of_mem_sealFrames correct) (stream ▸ fresh)
    have frameCount := count_sealFrames correct key n frames
    rw [none] at frameCount
    have noFrames := List.length_eq_zero_iff.mp frameCount.symm
    subst noFrames
    refine iff_of_true ⟨_, rfl⟩ fun count _ => ?_
    rw [List.take_nil, List.flatten_nil, List.append_nil]
    exact closedCut_of_none fresh
  | cons chunk chunks induction =>
    rw [List.flatten_cons, ← List.append_assoc] at stream
    have valid : ∀ seg ∈ sealFrames aead key n frames,
        segmentFormat.Valid seg :=
      fun seg => valid_of_mem_sealFrames correct
    obtain ⟨back, cut, rest⟩ := Format.split_of_front valid stream
    obtain ⟨rejoined, -, ended⟩ := segmentFormat.writeAll_split (ct ++ chunk)
    obtain ⟨done, todo, opened, rfl, front, later, kind⟩ :=
      sealFrames_eq_append cut
    rw [pieceCount_append] at fit
    rw [front, Format.writeAll_append, List.append_assoc] at rejoined
    have laterCut : ∀ after, ClosedCut (ct ++ (chunk ++ after)) ↔
        ClosedCut (segmentFormat.writeAll
          (sealPieces aead key (n + pieceCount done) opened) ++
            ((segmentFormat.split (ct ++ chunk)).2 ++ after)) := by
      intro after
      have joined := congrArg (· ++ after) rejoined
      simp only [List.append_assoc] at joined
      rw [← joined]
      exact closedCut_append_iff
        (fun seg => valid_of_mem_sealFrames correct)
        (closed_sealFrames key n done) _
    by_cases begun : opened = []
    · -- The event ends where a frame begins, or inside its first segment.
      subst begun
      have data := onData_front correct (show NoncesFit n
        (pieceCount done + ([] : List (List Byte)).length) from fit.left) front
      rw [receiveAll, data]
      refine (exists_map_append_iff done todo _).trans
        ((induction fit.right ended ?_).trans ?_)
      · rw [← later, sealPieces, List.nil_append]
        exact rest
      · constructor
        · intro each count bound
          cases count with
          | zero =>
            rw [List.take_zero, List.flatten_nil, List.append_nil]
            exact closedCut_of_none fresh
          | succ count =>
            rw [List.take_succ_cons, List.flatten_cons]
            exact (laterCut _).mpr (each count (Nat.le_of_succ_le_succ bound))
        · intro each count bound
          have cut := each (count + 1) (Nat.succ_le_succ bound)
          rw [List.take_succ_cons, List.flatten_cons] at cut
          exact (laterCut _).mp cut
    · -- A segment of the unfinished frame is complete: its nonce is spent.
      rcases kind with none | ⟨frame, frames, unsent, rfl, parts⟩
      · exact absurd none begun
      · have short : ∀ piece ∈ opened, piece.length ≤ noiseMaxPlaintext :=
          fun piece member => length_le_of_mem_pieces
            (parts ▸ List.mem_append_left unsent member)
        have openedFit : NoncesFit n (pieceCount done + opened.length) := by
          rw [pieceCount, parts, List.length_append, ← Nat.add_assoc,
            ← Nat.add_assoc, Nat.add_assoc] at fit
          exact fit.left
        obtain ⟨reason, failed⟩ := receiveAll_of_unfinished correct begun
          openedFit.right short later rest ended
        refine iff_of_false ?_ fun each => ?_
        · rintro ⟨receiver, received⟩
          rw [receiveAll, onData_front correct openedFit front] at received
          simp only [Except.bind] at received
          rw [failed] at received
          cases received
        · have cut := each 1 (Nat.succ_le_succ (Nat.zero_le _))
          rw [List.take_succ_cons, List.flatten_cons, laterCut, List.take_zero,
            List.flatten_nil, List.append_nil, ClosedCut,
            Format.split_writeAll_append
              fun seg => valid_of_mem_sealPieces correct short,
            Format.split_of_none ended, List.append_nil] at cut
          exact not_closed_sealPieces correct begun cut

/--
The frames arrive, whole and in order, exactly when at every cut the last
complete segment received ends a frame.
-/
theorem frames_arrive_iff_cuts_closed (key : Key) (n : Nat)
    (frames : List (List Byte)) {wire : List Byte} {final : CipherState Key}
    (sent : encryptFrames aead ⟨some key, n⟩ frames = .ok (wire, final))
    {chunks : List (List Byte)} (cut : chunks.flatten = wire) :
    (∃ receiver, receiveAll aead ⟨[], ⟨some key, n⟩⟩ chunks =
        .ok (frames, receiver)) ↔
      ∀ count ≤ chunks.length, ClosedCut (chunks.take count).flatten := by
  obtain ⟨written, fit⟩ := encryptFrames_ok aead sent
  exact receiveAll_iff correct fit rfl (cut.trans written)

end

end

/-! ## A cipher to run the transport with -/

/-- The nonce, padded, is the tag. -/
def nonceTag : Aead Unit where
  encrypt _ nonce _ plaintext := plaintext ++ (nonce ++ [0, 0, 0, 0])
  decrypt _ nonce _ ciphertext :=
    let size := ciphertext.length - (nonce.length + 4)
    if ciphertext.drop size = nonce ++ [0, 0, 0, 0] then
      some (ciphertext.take size)
    else none

theorem nonceTag_correct : nonceTag.Correct where
  decrypt_encrypt key nonce ad plaintext := by
    simp [nonceTag]
  other_nonce key nonce other ad plaintext fits otherFits differ := by
    have same : other.length = nonce.length := otherFits.trans fits.symm
    simp only [nonceTag, List.length_append, same, List.length_cons,
      List.length_nil, Nat.add_sub_cancel, List.drop_left]
    refine if_neg fun equal => differ ?_
    exact (List.append_cancel_right equal).symm
  length_encrypt key nonce ad plaintext fits := by
    simp [nonceTag, fits, nonceLen, tagLen]

/-- The stream of the frame that holds the byte `1`. -/
def oneFrame : List Byte :=
  [17, 0, 1] ++ List.replicate 18 0

theorem encryptFrames_oneFrame :
    encryptFrames nonceTag ⟨some (), 0⟩ [[1]] =
      .ok (oneFrame, ⟨some (), 1⟩) := by
  decide +kernel

/-- Cut inside its segment the frame arrives, and all cuts are closed. -/
theorem frame_cut_in_segment_arrives :
    encryptFrames nonceTag ⟨some (), 0⟩ [[1]] =
        .ok (oneFrame, ⟨some (), 1⟩) ∧
      ∀ count ≤ [oneFrame.take 9, oneFrame.drop 9].length,
        ClosedCut
          ([oneFrame.take 9, oneFrame.drop 9].take count).flatten := by
  refine ⟨encryptFrames_oneFrame, ?_⟩
  refine (frames_arrive_iff_cuts_closed nonceTag_correct () 0 [[1]]
    encryptFrames_oneFrame (by decide)).mp ?_
  exact ⟨⟨[], ⟨some (), 1⟩⟩, by decide +kernel⟩

/--
Cut before the two bytes that end the frame: the segment is opened twice, the
second time under the next nonce.
-/
theorem cut_before_terminator_fails :
    nonceTag.Correct ∧
      encryptFrames nonceTag ⟨some (), 0⟩ [[1]] =
          .ok (oneFrame, ⟨some (), 1⟩) ∧
        [oneFrame.take 19, oneFrame.drop 19].flatten = oneFrame ∧
          receiveAll nonceTag ⟨[], ⟨some (), 0⟩⟩
            [oneFrame.take 19, oneFrame.drop 19] = .error .invalidTag := by
  refine ⟨nonceTag_correct, encryptFrames_oneFrame, ?_, ?_⟩
  · decide
  · decide +kernel

end B3Chain.Sv2
