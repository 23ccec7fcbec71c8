import B3Chain.Framing.Lines
import B3Chain.Machine.Run
import B3Chain.Words.Utf8

/-!
# The lines of a session of the GPU miner

The main loop of `run_one_session` waits for a line of the pool and for a share
at the same time.  `read_line` takes bytes off the reader as they arrive; if a
share is ready before the line is complete, its future is dropped together
with them.  All lines of a stream are read exactly if no share is taken while
the future holds bytes, and if each line is valid UTF-8, since another one
ends the session.
-/

namespace B3Chain.GpuMiner

open Words
open Framing
open Machine

/-! ## The loop -/

/-- The line feed. -/
def newline : Byte := 10

/-- The reader, the future of `read_line` and the lines it came back with. -/
structure Session where
  arrived : List Byte
  available : List Byte
  held : List Byte
  read : List (List Byte)
  closed : Bool
  ended : Bool

/-- The loop is entered. -/
def Session.start : Session where
  arrived := []
  available := []
  held := []
  read := []
  closed := false
  ended := false

/-- What happens to a session. -/
inductive SessionEvent
  | arrive (chunk : List Byte)
  | close
  | poll
  | submit

/-- `char::is_whitespace`. -/
def isWhite (scalar : Nat) : Bool :=
  (9 ≤ scalar ∧ scalar ≤ 13) ∨ scalar = 32 ∨ scalar = 0x85 ∨
    scalar = 0xa0 ∨ scalar = 0x1680 ∨
      (0x2000 ≤ scalar ∧ scalar ≤ 0x200a) ∨ scalar = 0x2028 ∨
        scalar = 0x2029 ∨ scalar = 0x202f ∨ scalar = 0x205f ∨
          scalar = 0x3000

/-- `line_buf.trim()`, if there is something to parse. -/
def textToParse (line : List Byte) : Option (List Nat) :=
  (Utf8.readScalars line).bind fun scalars =>
    let text :=
      ((scalars.dropWhile isWhite).reverse.dropWhile isWhite).reverse
    if text = [] then none else some text

/-- What is handed to `serde_json::from_str`. -/
def Session.parsed (session : Session) : List (List Nat) :=
  session.read.filterMap textToParse

/-- What `read_line` comes back with when it is polled, and what it leaves. -/
def Session.nextLine (session : Session) :
    Option (List Byte × List Byte) :=
  match cutLine newline session.available with
  | some (line, rest) => some (session.held ++ line ++ [newline], rest)
  | none =>
    if session.closed then some (session.held ++ session.available, [])
    else none

/-- `read_line` is polled; no bytes are the end of the stream, and bytes that
are no text are an error. -/
def Session.poll (session : Session) : Session :=
  match session.nextLine with
  | none =>
    { session with
      held := session.held ++ session.available, available := [] }
  | some (line, rest) =>
    if line ≠ [] ∧ (Utf8.readScalars line).isSome then
      { session with
        held := [], available := rest, read := session.read ++ [line] }
    else { session with held := [], available := rest, ended := true }

/-- A step of a session; a share that is taken drops the future. -/
def Session.step (session : Session) : SessionEvent → Option Session
  | .arrive chunk =>
    if session.closed then none
    else
      some
        { session with
          arrived := session.arrived ++ chunk
          available := session.available ++ chunk }
  | .close => some { session with closed := true }
  | .poll => if session.ended then none else some session.poll
  | .submit =>
    if session.ended then none else some { session with held := [] }

/-! ## What is lost stays lost -/

/-- The step drops no byte. -/
def DropsNothing (session : Session) : SessionEvent → Prop
  | .submit => session.held = []
  | .poll => ∀ line rest, session.nextLine = some (line, rest) →
      line ≠ [] → (Utf8.readScalars line).isSome
  | _ => True

/-- The bytes that arrived and are nowhere any more. -/
def Session.loss (session : Session) : Int :=
  session.arrived.length -
    (session.read.flatten.length + session.held.length +
      session.available.length : Nat)

/-- A line is what was held and the front of what was available. -/
theorem Session.nextLine_parts {session : Session} {line rest : List Byte}
    (next : session.nextLine = some (line, rest)) :
    session.held ++ session.available = line ++ rest ∧
      ((∃ text, newline ∉ text ∧ line = session.held ++ text ++ [newline]) ∨
        (session.closed = true ∧ rest = [] ∧
          newline ∉ session.available)) := by
  rw [nextLine] at next
  cases cut : cutLine newline session.available with
  | some parts =>
    rw [cut] at next
    cases next
    obtain ⟨split, unmarked⟩ := eq_of_cutLine newline cut
    refine ⟨?_, Or.inl ⟨parts.1, unmarked, rfl⟩⟩
    rw [split]
    simp
  | none =>
    rw [cut] at next
    dsimp only at next
    split_ifs at next with closed
    cases next
    exact ⟨(List.append_nil _).symm, Or.inr
      ⟨closed, rfl, (cutLine_eq_none_iff newline).mp cut⟩⟩

theorem Session.loss_poll (session : Session) :
    session.loss ≤ session.poll.loss ∧
      (session.poll.loss = session.loss →
        DropsNothing session .poll) := by
  rw [loss, loss, poll]
  cases next : session.nextLine with
  | none =>
    refine ⟨?_, fun _ line rest found => by cases next.symm.trans found⟩
    simp
    omega
  | some parts =>
    obtain ⟨line, rest⟩ := parts
    have sizes := congrArg List.length (nextLine_parts next).1
    rw [List.length_append, List.length_append] at sizes
    dsimp only
    split_ifs with good
    · refine ⟨?_, fun _ other left found _ => ?_⟩
      · simp
        omega
      · cases next.symm.trans found
        exact good.2
    · refine ⟨by simp; omega, fun same other left found nonempty => ?_⟩
      cases next.symm.trans found
      have positive := List.length_pos_of_ne_nil nonempty
      simp at same
      omega

theorem Session.loss_step {session next : Session} {event : SessionEvent}
    (stepped : session.step event = some next) :
    session.loss ≤ next.loss ∧
      (next.loss = session.loss → DropsNothing session event) := by
  cases event with
  | arrive chunk =>
    rw [step] at stepped
    split_ifs at stepped
    cases stepped
    refine ⟨?_, fun _ => trivial⟩
    rw [loss, loss]
    simp
    omega
  | close =>
    cases stepped
    exact ⟨le_refl _, fun _ => trivial⟩
  | poll =>
    rw [step] at stepped
    split_ifs at stepped
    cases stepped
    exact session.loss_poll
  | submit =>
    rw [step] at stepped
    split_ifs at stepped
    cases stepped
    rw [DropsNothing, ← List.length_eq_zero_iff, loss, loss]
    simp only [List.length_nil]
    omega

/-! ## A session that drops nothing -/

/-- The bytes of lines that each end in a line feed. -/
def streamOf (sent : List (List Byte)) : List Byte :=
  sent.flatMap (· ++ [newline])

/-- What `read_line` comes back with for complete lines and one without a line
feed. -/
def linesOf (complete : List (List Byte)) (last : List Byte) :
    List (List Byte) :=
  complete.map (· ++ [newline]) ++ if last = [] then [] else [last]

/-- All that arrived is read, held or available; only the end of the stream
ends a line without a line feed. -/
structure Lossless (session : Session) (complete : List (List Byte))
    (last : List Byte) : Prop where
  all : session.arrived =
    streamOf complete ++ last ++ session.held ++ session.available
  read : session.read = linesOf complete last
  unmarked : ∀ line ∈ complete, newline ∉ line
  unfinished : newline ∉ last ++ session.held
  closed : last ≠ [] → session.closed = true ∧
    session.held ++ session.available = []

/-- Nothing that arrived is lost. -/
def Whole (session : Session) : Prop :=
  ∃ complete last, Lossless session complete last

theorem Lossless.poll {session : Session} {complete : List (List Byte)}
    {last : List Byte} (whole : Lossless session complete last)
    (drops : DropsNothing session .poll) :
    Whole session.poll := by
  rw [Session.poll]
  cases next : session.nextLine with
  | none =>
    have uncut : newline ∉ session.available := by
      rw [Session.nextLine] at next
      cases cut : cutLine newline session.available with
      | some parts =>
        rw [cut] at next
        cases next
      | none => exact (cutLine_eq_none_iff newline).mp cut
    refine ⟨complete, last, ?_, whole.read, whole.unmarked, ?_, ?_⟩
    · rw [whole.all]
      simp
    · have before := whole.unfinished
      simp only [List.mem_append, not_or] at before ⊢
      exact ⟨before.1, before.2, uncut⟩
    · intro nonempty
      obtain ⟨closed, empty⟩ := whole.closed nonempty
      exact ⟨closed, by rw [List.append_nil]; exact empty⟩
  | some parts =>
    obtain ⟨line, rest⟩ := parts
    obtain ⟨split, kind⟩ := Session.nextLine_parts next
    have joined : session.arrived =
        streamOf complete ++ last ++ (line ++ rest) := by
      rw [whole.all, ← split]
      simp
    dsimp only
    by_cases empty : line = []
    · -- The end of the stream.
      rw [if_neg fun good => good.1 empty]
      refine ⟨complete, last, ?_, whole.read, whole.unmarked, ?_, ?_⟩
      · rw [joined, empty]
        simp
      · have before := whole.unfinished
        rw [List.mem_append, not_or] at before
        rw [List.append_nil]
        exact before.1
      · intro nonempty
        obtain ⟨closed, none⟩ := whole.closed nonempty
        rw [split, empty] at none
        exact ⟨closed, none⟩
    · rw [if_pos ⟨empty, drops line rest next empty⟩]
      have first : last = [] := by
        by_contra nonempty
        have none := (whole.closed nonempty).2
        rw [split] at none
        exact empty (List.append_eq_nil_iff.mp none).1
      have read := whole.read
      rw [linesOf, if_pos first, List.append_nil] at read
      have before := whole.unfinished
      rw [first, List.nil_append] at before
      rcases kind with ⟨text, unmarked, isLine⟩ | ⟨closed, none, uncut⟩
      · refine ⟨complete ++ [session.held ++ text], [], ?_, ?_, ?_,
          List.not_mem_nil, fun nonempty => absurd rfl nonempty⟩
        · rw [joined, first, isLine]
          simp [streamOf]
        · rw [read, isLine]
          simp [linesOf]
        · intro other member
          rcases List.mem_append.mp member with earlier | new
          · exact whole.unmarked other earlier
          · rw [List.mem_singleton.mp new, List.mem_append, not_or]
            exact ⟨before, unmarked⟩
      · rw [none, List.append_nil] at split
        refine ⟨complete, line, ?_, ?_, whole.unmarked, ?_, fun _ =>
          ⟨closed, none⟩⟩
        · rw [joined, first, none]
          simp
        · rw [read, linesOf, if_neg empty]
        · rw [List.append_nil, ← split, List.mem_append, not_or]
          exact ⟨before, uncut⟩

theorem Whole.step {session next : Session} {event : SessionEvent}
    (whole : Whole session) (drops : DropsNothing session event)
    (stepped : session.step event = some next) : Whole next := by
  obtain ⟨complete, last, whole⟩ := whole
  cases event with
  | arrive chunk =>
    rw [Session.step] at stepped
    split_ifs at stepped with isOpen
    cases stepped
    refine ⟨complete, last, ?_, whole.read, whole.unmarked, whole.unfinished,
      fun nonempty => absurd (whole.closed nonempty).1 isOpen⟩
    rw [whole.all]
    simp
  | close =>
    cases stepped
    exact ⟨complete, last, whole.all, whole.read, whole.unmarked,
      whole.unfinished, fun nonempty => ⟨rfl, (whole.closed nonempty).2⟩⟩
  | poll =>
    rw [Session.step] at stepped
    split_ifs at stepped
    cases stepped
    exact whole.poll drops
  | submit =>
    rw [Session.step] at stepped
    split_ifs at stepped
    cases stepped
    have same : { session with held := [] } = session := by
      rw [← show session.held = [] from drops]
    rw [same]
    exact ⟨complete, last, whole⟩

/--
Once all bytes of a stream are taken off the reader, and none of a last line
without a line feed is held, the lines read are those of the stream exactly if
no step dropped a byte, and then the texts parsed are those of its lines.
-/
theorem session_lines_iff
    {sent : List (List Byte)} {last : List Byte}
    (unmarked : ∀ line ∈ sent, newline ∉ line) (unfinished : newline ∉ last)
    {events : List SessionEvent} {final : Session}
    (taken : run Session.step .start events = some final)
    (stream : final.arrived = streamOf sent ++ last)
    (drained : final.available = []) (released : last = [] ∨ final.held = []) :
    (final.read = linesOf sent last ↔
        Along Session.step DropsNothing .start events) ∧
      (Along Session.step DropsNothing .start events →
        final.parsed = (linesOf sent last).filterMap textToParse) := by
  have reads (along : Along Session.step DropsNothing .start events) :
      final.read = linesOf sent last := by
    have first : Whole .start :=
      ⟨[], [], rfl, rfl, fun _ member => absurd member List.not_mem_nil,
        List.not_mem_nil, fun nonempty => absurd rfl nonempty⟩
    obtain ⟨complete, rest, whole⟩ : Whole final :=
      run_invariant (fun _ _ _ => Whole.step) first along taken
    have all := whole.all
    rw [stream, drained, List.append_nil, List.append_assoc] at all
    have split := congrArg (lines newline) all
    rw [streamOf, lines_append, lines_terminated newline unmarked,
      List.nil_append, lines_of_not_mem newline unfinished, streamOf,
      lines_append, lines_terminated newline whole.unmarked, List.nil_append,
      lines_of_not_mem newline whole.unfinished, List.append_nil,
      List.append_nil, Prod.mk.injEq] at split
    dsimp only at split
    have same : last = rest := by
      rcases released with none | none
      · rw [none] at split ⊢
        exact (List.append_eq_nil_iff.mp split.2.symm).1.symm
      · rw [split.2, none, List.append_nil]
    rw [whole.read, split.1, same]
  refine ⟨⟨fun all => ?_, reads⟩, fun along => ?_⟩
  · have grown := along_of_unchanged
      (fun _ _ _ => Session.loss_step) taken
    apply grown.2
    have none : Session.start.loss = 0 := rfl
    have lost := grown.1
    have size : final.read.flatten.length = final.arrived.length := by
      rw [all, stream, streamOf, linesOf, List.flatten_append,
        List.flatMap_def]
      split_ifs with empty <;> simp [empty]
    rw [none] at lost ⊢
    rw [Session.loss, size] at lost ⊢
    omega
  · rw [Session.parsed, reads along]

/-- A line in two pieces, a share, and a last line without a line feed. -/
def wholeBraces : List SessionEvent :=
  [.arrive [0x7b], .poll, .arrive [0x7d, newline], .poll, .submit,
    .arrive [0x5b, 0x5d], .poll, .close, .poll]

/-- A share is taken between the two pieces of the line. -/
def cutBraces : List SessionEvent :=
  [.arrive [0x7b], .poll, .submit, .arrive [0x7d, newline], .poll]

theorem whole_lines_read :
    ∃ final, run Session.step .start wholeBraces = some final ∧
      final.read = [[0x7b, 0x7d, newline], [0x5b, 0x5d]] ∧
      Along Session.step DropsNothing .start wholeBraces := by
  have unmarked : ∀ line ∈ [([0x7b, 0x7d] : List Byte)], newline ∉ line := by
    decide
  have unfinished : newline ∉ ([0x5b, 0x5d] : List Byte) := by decide
  refine ⟨_, rfl, rfl, ?_⟩
  exact (session_lines_iff unmarked unfinished rfl rfl rfl
    (Or.inr rfl)).1.mp rfl

theorem share_drops_half_a_line :
    ∃ final, run Session.step .start cutBraces = some final ∧
      final.arrived = streamOf [[0x7b, 0x7d]] ∧ final.available = [] ∧
      final.read = [[0x7d, newline]] ∧ final.parsed = [[0x7d]] :=
  ⟨_, rfl, rfl, rfl, rfl, by decide⟩

end B3Chain.GpuMiner
