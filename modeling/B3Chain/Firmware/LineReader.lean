import B3Chain.Framing.Lines
import B3Chain.Machine.Run
import B3Chain.Words.Memory

/-!
# The line reader of the firmware

`recv_line` takes one byte after the other off the socket and looks at the
clock before each.  The read loop calls it with 500 ms; when they are over,
the call ends and what it has read of a line is gone.  But `recv` blocks for
up to 30 s, so the clock is often late when the first byte of a line arrives.
The parser is handed the lines of a stream exactly if no call ends with text
in its buffer, and if the lines hold neither a carriage return, which is
dropped, nor a zero byte, which ends a C string.
-/

namespace B3Chain.Firmware

open Words
open Framing
open Machine

/-! ## The reader -/

/-- `'\n'`. -/
def newline : Byte := 10

/-- `'\r'`. -/
def carriageReturn : Byte := 13

/-- `sizeof(line)`. -/
def lineSize : Nat := 4096

/-- The time a call is given, in microseconds. -/
def pollTime : Nat := 500 * 1000

/-- `SO_RCVTIMEO`, in microseconds. -/
def receiveTimeout : Nat := 30 * 1000 * 1000

/-- The delay before `recv` is tried again, in microseconds. -/
def retryDelay : Nat := 10 * 1000

/-- Where the read loop is. -/
inductive Place
  | between
  | reading (deadline : Nat) (buf : List Byte)
  | ended (buf : List Byte)

/-- The read loop, the bytes it has taken and the lines it has handed on. -/
structure Reader where
  place : Place
  clock : Nat
  taken : List Byte
  handed : List (List Byte)

/-- The read loop once the handshake is done. -/
def Reader.start : Reader where
  place := .between
  clock := 0
  taken := []
  handed := []

/-- What `recv` comes back with, and when. -/
inductive Received
  | byte (arrived : Nat) (c : Byte)
  | nothing
  | closed

/-- The steps of the read loop, each with the clock it reads. -/
inductive ReaderEvent
  | call (now : Nat)
  | timeout (now : Nat)
  | receive (now : Nat) (result : Received)

/-- What a call has read of a line. -/
def Place.buffer : Place → List Byte
  | .between => []
  | .reading _ buf => buf
  | .ended buf => buf

/-- The buffer as a C string. -/
def cString (buf : List Byte) : List Byte :=
  buf.takeWhile (· ≠ 0)

/-- A line that is not empty goes to the parser. -/
def Reader.hand (reader : Reader) (buf : List Byte) : List (List Byte) :=
  if cString buf = [] then reader.handed else reader.handed ++ [cString buf]

/-- The loop of `recv_line` goes on while there is room. -/
def nextPlace (deadline : Nat) (buf : List Byte) : Place :=
  if buf.length + 1 < lineSize then .reading deadline buf else .ended buf

/-- The rest of the loop's body, from `recv` on. -/
def Reader.receive (reader : Reader) (deadline : Nat) (buf : List Byte)
    (now : Nat) : Received → Option Reader
  | .nothing =>
    some { reader with clock := now + receiveTimeout + retryDelay }
  | .closed => some { reader with place := .ended buf, clock := now }
  | .byte arrived c =>
    if now ≤ arrived ∧ arrived ≤ now + receiveTimeout then
      some
        { clock := arrived
          taken := reader.taken ++ [c]
          place :=
            if c = newline then .between
            else if c = carriageReturn then .reading deadline buf
            else nextPlace deadline (buf ++ [c])
          handed := if c = newline then reader.hand buf else reader.handed }
    else none

/-- A step of the read loop. -/
def Reader.step (reader : Reader) : ReaderEvent → Option Reader
  | .call now =>
    match reader.place with
    | .between =>
      if reader.clock ≤ now then
        some { reader with place := .reading (now + pollTime) [], clock := now }
      else none
    | _ => none
  | .timeout now =>
    match reader.place with
    | .reading deadline _ =>
      if reader.clock ≤ now ∧ deadline < now then
        some { reader with place := .between, clock := now }
      else none
    | _ => none
  | .receive now result =>
    match reader.place with
    | .reading deadline buf =>
      if reader.clock ≤ now ∧ now ≤ deadline then
        reader.receive deadline buf now result
      else none
    | _ => none

/-- What a step does to the buffer, the stream and the lines. -/
inductive Effect (reader : Reader) : ReaderEvent → Reader → Prop
  | called (now : Nat) {next : Reader} :
    reader.place.buffer = [] → next.place.buffer = [] →
      next.taken = reader.taken → next.handed = reader.handed →
        Effect reader (.call now) next
  | timedOut (now : Nat) {next : Reader} :
    next.place = .between → next.taken = reader.taken →
      next.handed = reader.handed → Effect reader (.timeout now) next
  | waited (now : Nat) (result : Received) {next : Reader} :
    (∀ arrived c, result ≠ .byte arrived c) →
      next.place.buffer = reader.place.buffer →
      next.taken = reader.taken → next.handed = reader.handed →
        Effect reader (.receive now result) next
  | ended (now arrived : Nat) {next : Reader} :
    next.place = .between → next.taken = reader.taken ++ [newline] →
      next.handed = reader.hand reader.place.buffer →
        Effect reader (.receive now (.byte arrived newline)) next
  | dropped (now arrived : Nat) {next : Reader} :
    next.place.buffer = reader.place.buffer →
      next.taken = reader.taken ++ [carriageReturn] →
      next.handed = reader.handed →
        Effect reader (.receive now (.byte arrived carriageReturn)) next
  | stored (now arrived : Nat) (c : Byte) {next : Reader} :
    c ≠ newline → c ≠ carriageReturn →
      next.place.buffer = reader.place.buffer ++ [c] →
      next.taken = reader.taken ++ [c] → next.handed = reader.handed →
        Effect reader (.receive now (.byte arrived c)) next

theorem buffer_nextPlace (deadline : Nat) (buf : List Byte) :
    (nextPlace deadline buf).buffer = buf := by
  rw [nextPlace]
  split_ifs <;> rfl

variable {reader next : Reader} {event : ReaderEvent}

theorem Reader.receive_effect {deadline now : Nat} {buf : List Byte}
    {result : Received} (here : reader.place = .reading deadline buf)
    (stepped : reader.receive deadline buf now result = some next) :
    Effect reader (.receive now result) next := by
  have buffer : reader.place.buffer = buf := by
    rw [here, Place.buffer]
  cases result with
  | nothing =>
    cases stepped
    exact .waited now .nothing (fun _ _ => Received.noConfusion) rfl rfl rfl
  | closed =>
    cases stepped
    exact .waited now .closed (fun _ _ => Received.noConfusion) buffer.symm
      rfl rfl
  | byte arrived c =>
    rw [receive] at stepped
    split_ifs at stepped with inTime isEnd isReturn
    · cases stepped
      rw [isEnd, ← buffer]
      exact .ended now arrived rfl rfl rfl
    · cases stepped
      rw [isReturn]
      exact .dropped now arrived buffer.symm rfl rfl
    · cases stepped
      refine .stored now arrived c isEnd isReturn ?_ rfl rfl
      rw [buffer]
      exact buffer_nextPlace deadline _

theorem Reader.step_effect (stepped : reader.step event = some next) :
    Effect reader event next := by
  cases event with
  | call now =>
    rw [step] at stepped
    cases here : reader.place with
    | between =>
      simp only [here] at stepped
      split_ifs at stepped
      cases stepped
      exact .called now (by rw [here, Place.buffer]) rfl rfl rfl
    | reading | ended => simp [here] at stepped
  | timeout now =>
    rw [step] at stepped
    cases here : reader.place with
    | between => simp [here] at stepped
    | reading deadline buf =>
      simp only [here] at stepped
      split_ifs at stepped
      cases stepped
      exact .timedOut now rfl rfl rfl
    | ended buf => simp [here] at stepped
  | receive now result =>
    rw [step] at stepped
    cases here : reader.place with
    | between => simp [here] at stepped
    | reading deadline buf =>
      simp only [here] at stepped
      split_ifs at stepped
      exact receive_effect here stepped
    | ended buf => simp [here] at stepped

/-! ## Lines that are handed on whole -/

/-- The step loses nothing of a line. -/
def KeepsText (reader : Reader) : ReaderEvent → Prop
  | .timeout _ => cString reader.place.buffer = []
  | .receive _ (.byte _ c) => c ≠ carriageReturn ∧ c ≠ 0
  | _ => True

/-- The lines so far are handed on, and the buffer holds the unfinished one. -/
structure Exact (reader : Reader) : Prop where
  handed : reader.handed =
    (lines newline reader.taken).1.filter (· ≠ [])
  buffer : reader.place.buffer = (lines newline reader.taken).2
  plain : (0 : Byte) ∉ reader.place.buffer

theorem cString_of_plain {buf : List Byte} (plain : (0 : Byte) ∉ buf) :
    cString buf = buf := by
  rw [cString, List.takeWhile_eq_self_iff]
  intro c member
  rw [decide_eq_true_iff]
  rintro rfl
  exact plain member

/-- The lines of a stream after one more byte. -/
theorem lines_taken_snoc (taken : List Byte) (c : Byte) :
    lines newline (taken ++ [c]) =
      if c = newline then
        ((lines newline taken).1 ++ [(lines newline taken).2], [])
      else ((lines newline taken).1, (lines newline taken).2 ++ [c]) := by
  rw [lines_append, lines_snoc newline (lines_unfinished newline taken)]
  split_ifs
  · rfl
  · rw [List.append_nil]

theorem Exact.step (precise : Exact reader) (keeps : KeepsText reader event)
    (stepped : reader.step event = some next) : Exact next := by
  have text := cString_of_plain precise.plain
  cases Reader.step_effect stepped with
  | called now before after taken handed =>
    refine ⟨?_, ?_, ?_⟩
    · rw [handed, taken, precise.handed]
    · rw [after, taken, ← precise.buffer, before]
    · rw [after]
      exact List.not_mem_nil
  | timedOut now place taken handed =>
    have empty : reader.place.buffer = [] := text.symm.trans keeps
    refine ⟨?_, ?_, ?_⟩
    · rw [handed, taken, precise.handed]
    · rw [place, taken, ← precise.buffer, empty, Place.buffer]
    · rw [place]
      exact List.not_mem_nil
  | waited now result other buffer taken handed =>
    refine ⟨?_, ?_, ?_⟩
    · rw [handed, taken, precise.handed]
    · rw [buffer, taken, precise.buffer]
    · rw [buffer]
      exact precise.plain
  | ended now arrived place taken handed =>
    refine ⟨?_, ?_, ?_⟩
    · rw [handed, taken, lines_taken_snoc, if_pos rfl, List.filter_append,
        ← precise.handed, ← precise.buffer, Reader.hand, text]
      by_cases empty : reader.place.buffer = []
      · rw [if_pos empty, empty]
        simp
      · rw [if_neg empty]
        simp [empty]
    · rw [place, taken, lines_taken_snoc, if_pos rfl, Place.buffer]
    · rw [place]
      exact List.not_mem_nil
  | dropped now arrived buffer taken handed => exact absurd rfl keeps.1
  | stored now arrived c isText notReturn buffer taken handed =>
    refine ⟨?_, ?_, ?_⟩
    · rw [handed, taken, lines_taken_snoc, if_neg isText, precise.handed]
    · rw [buffer, taken, lines_taken_snoc, if_neg isText, precise.buffer]
    · rw [buffer, List.mem_append, List.mem_singleton]
      rintro (member | zero)
      · exact precise.plain member
      · exact keeps.2 zero.symm

/-! ## What is lost stays lost -/

/-- The bytes of text taken that are neither handed on nor in the buffer. -/
def Reader.loss (reader : Reader) : Int :=
  (reader.taken.filter (· ≠ newline)).length -
    ((reader.handed.map List.length).sum +
      (cString reader.place.buffer).length : Nat)

theorem sum_hand (reader : Reader) (buf : List Byte) :
    ((reader.hand buf).map List.length).sum =
      (reader.handed.map List.length).sum + (cString buf).length := by
  rw [Reader.hand]
  split_ifs with empty
  · rw [empty]
    rfl
  · simp

theorem length_cString_snoc (buf : List Byte) (c : Byte) :
    (cString (buf ++ [c])).length ≤ (cString buf).length + 1 ∧
      (c = 0 → (cString (buf ++ [c])).length = (cString buf).length) := by
  rw [cString, cString]
  induction buf with
  | nil =>
    rw [List.nil_append, List.takeWhile_cons]
    split_ifs with nonzero
    · exact ⟨le_refl _, fun zero => absurd zero (of_decide_eq_true nonzero)⟩
    · exact ⟨Nat.zero_le _, fun _ => rfl⟩
  | cons first rest induction =>
    rw [List.cons_append, List.takeWhile_cons, List.takeWhile_cons]
    split_ifs
    · exact ⟨Nat.succ_le_succ induction.1, fun zero =>
        congrArg Nat.succ (induction.2 zero)⟩
    · exact ⟨Nat.zero_le _, fun _ => rfl⟩

theorem Reader.loss_step (stepped : reader.step event = some next) :
    reader.loss ≤ next.loss ∧
      (next.loss = reader.loss → KeepsText reader event) := by
  rw [loss, loss]
  cases Reader.step_effect stepped with
  | called now before after taken handed =>
    rw [before, after, taken, handed]
    exact ⟨le_refl _, fun _ => trivial⟩
  | timedOut now place taken handed =>
    rw [place, taken, handed, KeepsText, ← List.length_eq_zero_iff]
    have empty : (cString Place.between.buffer).length = 0 := rfl
    omega
  | waited now result other buffer taken handed =>
    rw [buffer, taken, handed]
    refine ⟨le_refl _, fun _ => ?_⟩
    cases result with
    | byte arrived c => exact absurd rfl (other arrived c)
    | nothing => exact trivial
    | closed => exact trivial
  | ended now arrived place taken handed =>
    have empty : (cString Place.between.buffer).length = 0 := rfl
    rw [place, taken, handed, sum_hand, List.filter_append]
    simp only [List.length_append]
    have none : ([newline].filter (· ≠ newline)).length = 0 := by decide
    refine ⟨by omega, fun _ => ⟨by decide, by decide⟩⟩
  | dropped now arrived buffer taken handed =>
    rw [buffer, taken, handed, List.filter_append, List.length_append]
    have one : ([carriageReturn].filter (· ≠ newline)).length = 1 := by decide
    omega
  | stored now arrived c isText notReturn buffer taken handed =>
    obtain ⟨more, same⟩ := length_cString_snoc reader.place.buffer c
    have one : ([c].filter (· ≠ newline)).length = 1 := by simp [isText]
    rw [buffer, taken, handed, List.filter_append, List.length_append]
    refine ⟨by omega, fun unchanged => ⟨notReturn, fun zero => ?_⟩⟩
    have shorter := same zero
    omega

/-! ## The buffer -/

/-- The buffer holds no more than the unfinished line. -/
def Fits (reader : Reader) : Prop :=
  reader.place.buffer.length ≤ (lines newline reader.taken).2.length

theorem Fits.step (fits : Fits reader)
    (stepped : reader.step event = some next) :
    Fits next := by
  rw [Fits] at fits ⊢
  cases Reader.step_effect stepped with
  | called now before after taken handed =>
    rw [after]
    exact Nat.zero_le _
  | timedOut now place taken handed | ended now arrived place taken handed =>
    rw [place]
    exact Nat.zero_le _
  | waited now result other buffer taken handed =>
    rw [buffer, taken]
    exact fits
  | dropped now arrived buffer taken handed =>
    rw [buffer, taken, lines_taken_snoc, if_neg (by decide),
      List.length_append]
    omega
  | stored now arrived c isText notReturn buffer taken handed =>
    rw [buffer, taken, lines_taken_snoc, if_neg isText, List.length_append,
      List.length_append]
    omega

/-- The bytes of lines that each end in a line feed. -/
def streamOf (sent : List (List Byte)) : List Byte :=
  sent.flatMap (· ++ [newline])

theorem sum_nonempty (texts : List (List Byte)) :
    ((texts.filter (· ≠ [])).map List.length).sum =
      (texts.map List.length).sum := by
  induction texts with
  | nil => rfl
  | cons text rest induction =>
    by_cases empty : text = []
    · simpa [empty] using induction
    · simpa [empty] using induction

theorem length_text_streamOf {sent : List (List Byte)}
    (unmarked : ∀ line ∈ sent, newline ∉ line) :
    ((streamOf sent).filter (· ≠ newline)).length =
      (sent.map List.length).sum := by
  induction sent with
  | nil => rfl
  | cons line rest induction =>
    have text : line.filter (· ≠ newline) = line := by
      rw [List.filter_eq_self]
      intro c member
      rw [decide_eq_true_iff]
      rintro rfl
      exact unmarked line List.mem_cons_self member
    have later := induction fun other member =>
      unmarked other (List.mem_cons_of_mem line member)
    rw [streamOf] at later ⊢
    rw [List.flatMap_cons, List.filter_append, List.filter_append, text,
      List.length_append, List.length_append, later]
    simp

/--
Of lines shorter than 4095 bytes the buffer is never full, whatever the timing
of the bytes; and once the whole stream is read, its lines are what the parser
was handed exactly if no step lost a part of one.
-/
theorem lines_handed_iff
    {sent : List (List Byte)}
    (short : ∀ line ∈ sent, newline ∉ line ∧ line.length < 4095)
    {events : List ReaderEvent} {final : Reader}
    (taken : run Reader.step .start events = some final) :
    (final.taken <+: streamOf sent →
        final.place.buffer.length + 1 < lineSize) ∧
      (final.taken = streamOf sent →
        (final.handed = sent.filter (· ≠ []) ↔
          Along Reader.step KeepsText .start events)) := by
  have unmarked : ∀ line ∈ sent, newline ∉ line :=
    fun line member => (short line member).1
  have split := lines_terminated newline unmarked
  refine ⟨?_, fun whole => ⟨fun all => ?_, fun along => ?_⟩⟩
  · rintro ⟨rest, joined⟩
    have always : Along Reader.step (fun _ _ => True) .start events :=
      along_of_forall (fun _ _ _ => trivial) _
    have fits : Fits final :=
      run_invariant (fun _ _ _ holds _ => Fits.step holds) (Nat.zero_le _)
        always taken
    have bounded : (lines newline final.taken).2.length ≤ 4094 := by
      apply length_unfinished_le_of_append newline rest
      · rw [joined, streamOf, split]
        intro line member
        exact Nat.le_of_lt_succ (short line member).2
      · rw [joined, streamOf, split]
        exact Nat.zero_le _
    rw [Fits] at fits
    rw [lineSize]
    omega
  · have grown := along_of_unchanged
      (fun _ _ _ => Reader.loss_step) taken
    apply grown.2
    have none : Reader.start.loss = 0 := rfl
    rw [none] at grown ⊢
    have lost := grown.1
    rw [Reader.loss, whole, length_text_streamOf unmarked, all,
      sum_nonempty] at lost ⊢
    omega
  · have last : Exact final :=
      run_invariant (fun _ _ _ => Exact.step)
        ⟨rfl, rfl, List.not_mem_nil⟩ along taken
    rw [last.handed, whole, streamOf, split]

/-- The bytes of `{}`, which arrive 600 ms after the call. -/
def lateBraces : List ReaderEvent :=
  [.call 0, .receive 0 (.byte 600000 0x7b), .timeout 600000, .call 600000,
    .receive 600000 (.byte 600000 0x7d),
    .receive 600000 (.byte 600000 newline)]

/-- The same bytes, without a pause. -/
def promptBraces : List ReaderEvent :=
  [.call 0, .receive 0 (.byte 0 0x7b), .receive 0 (.byte 0 0x7d),
    .receive 0 (.byte 0 newline)]

theorem prompt_line_handed :
    ∃ final, run Reader.step .start promptBraces = some final ∧
      (final.handed = [[0x7b, 0x7d]] ↔
        Along Reader.step KeepsText .start promptBraces) ∧
      final.handed = [[0x7b, 0x7d]] := by
  have short : ∀ line ∈ [([0x7b, 0x7d] : List Byte)],
      newline ∉ line ∧ line.length < 4095 := by
    decide
  exact ⟨_, rfl, (lines_handed_iff short rfl).2 rfl, rfl⟩

/-- A line that comes after half a second of quiet loses its first byte. -/
theorem late_line_loses_first_byte :
    ∃ final, run Reader.step .start lateBraces = some final ∧
      final.taken = streamOf [[0x7b, 0x7d]] ∧ final.handed = [[0x7d]] :=
  ⟨_, rfl, rfl, rfl⟩

end B3Chain.Firmware
