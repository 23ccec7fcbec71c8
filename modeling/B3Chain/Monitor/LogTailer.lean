import B3Chain.Framing.Lines
import B3Chain.Machine.Run

/-!
# The log tailer of the attack monitor

`_LogTailer` keeps the log open and returns the lines that were added since
the last poll.  When the file at the path is another one than the opened one,
it reads the rest of the old file and opens the new one at its end.  So what
was written to the new file before that poll is never read.  Every line is
returned once and unbroken if nothing is written between a rotation and the
next poll and if no carriage return is written, which a text file reads as a
line end.
-/

namespace B3Chain.Monitor

open Framing
open Machine

/-! ## The tailer -/

/-- A file, known by its inode. -/
structure LogFile where
  inode : Nat
  text : List Char
  deriving DecidableEq

/-- `_MAX_READ_PER_POLL`. -/
def maxReadPerPoll : Nat := 4 * 1024 * 1024

/-- The file at the path and the tailer, with what was written since the tailer
was made: to earlier files, to the file at the path, and since the last
poll. -/
structure Tail where
  atPath : LogFile
  opened : LogFile
  position : Nat
  unfinished : List Char
  returned : List (List Char)
  earlier : List (List Char)
  written : List Char
  recent : Nat

/-- `_LogTailer(path)`. -/
def Tail.start (file : LogFile) : Tail where
  atPath := file
  opened := file
  position := file.text.length
  unfinished := []
  returned := []
  earlier := []
  written := []
  recent := 0

/-- What happens to the log. -/
inductive TailEvent
  | append (text : List Char)
  | rotate
  | poll

/-- `read(limit)` of a text file, which reads each kind of line end as a line
feed, and the text behind it. -/
def readText : Nat → List Char → List Char × List Char
  | 0, text => ([], text)
  | _ + 1, [] => ([], [])
  | limit + 1, '\r' :: '\n' :: rest =>
    ('\n' :: (readText limit rest).1, (readText limit rest).2)
  | limit + 1, '\r' :: rest =>
    ('\n' :: (readText limit rest).1, (readText limit rest).2)
  | limit + 1, letter :: rest =>
    (letter :: (readText limit rest).1, (readText limit rest).2)

/-- The text of the opened file behind the tailer's position. -/
def Tail.unread (tail : Tail) : List Char :=
  tail.opened.text.drop tail.position

/-- `_drain`; the lines are added to those returned. -/
def Tail.drain (tail : Tail) : Tail :=
  let chunk := readText maxReadPerPoll tail.unread
  if chunk.1 = [] then tail
  else
    let parts := lines '\n' (tail.unfinished ++ chunk.1)
    { tail with
      position := tail.opened.text.length - chunk.2.length
      unfinished := parts.2
      returned := tail.returned ++ parts.1 }

/-- `_open_at_end`. -/
def Tail.openAtEnd (tail : Tail) : Tail :=
  { tail with
    opened := tail.atPath
    position := tail.atPath.text.length
    unfinished := [] }

/-- `iter_new_lines`. -/
def Tail.iterNewLines (tail : Tail) : Tail :=
  let tail := tail.drain
  if tail.atPath.inode ≠ tail.opened.inode then tail.drain.openAtEnd
  else tail

/-- Text is added to the file at the path, which may be the opened one. -/
def Tail.append (tail : Tail) (text : List Char) : Tail :=
  let longer : LogFile :=
    { tail.atPath with text := tail.atPath.text ++ text }
  { tail with
    atPath := longer
    opened :=
      if tail.opened.inode = tail.atPath.inode then longer else tail.opened
    written := tail.written ++ text
    recent := tail.recent + text.length }

/-- The file is renamed and a new one is made; the inode of a file that is
open is not used again. -/
def Tail.rotate (tail : Tail) : Tail :=
  { tail with
    atPath := ⟨tail.atPath.inode + tail.opened.inode + 1, []⟩
    earlier := tail.earlier ++ [tail.written]
    written := [] }

/-- A step of the log or of the tailer. -/
def Tail.step (tail : Tail) : TailEvent → Option Tail
  | .append text => some (tail.append text)
  | .rotate => some tail.rotate
  | .poll => some { tail.iterNewLines with recent := 0 }

/-- The complete lines written since the tailer was made, file by file. -/
def Tail.linesWritten (tail : Tail) : List (List Char) :=
  tail.earlier.flatMap (fun text => (lines '\n' text).1) ++
    (lines '\n' tail.written).1

/-- At most `_MAX_READ_PER_POLL` characters are added between two polls. -/
def Moderate (tail : Tail) : TailEvent → Prop
  | .append text => tail.recent + text.length ≤ maxReadPerPoll
  | _ => True

/-- Nothing is written between a rotation and the next poll, and no carriage
return at all. -/
def Calm (tail : Tail) : TailEvent → Prop
  | .append text =>
    '\r' ∉ text ∧ (tail.opened.inode ≠ tail.atPath.inode → text = [])
  | _ => True

instance (tail : Tail) : (event : TailEvent) →
    Decidable (Moderate tail event ∧ Calm tail event)
  | .append _ => inferInstanceAs (Decidable (_ ≤ _ ∧ _ ∉ _ ∧ (_ → _)))
  | .rotate | .poll => isTrue ⟨trivial, trivial⟩

/-! ## Lines that are returned -/

theorem readText_plain {limit : Nat} {text : List Char}
    (plain : '\r' ∉ text) (short : text.length ≤ limit) :
    readText limit text = (text, []) := by
  induction text generalizing limit with
  | nil => cases limit <;> rfl
  | cons letter rest induction =>
    rw [List.mem_cons, not_or] at plain
    cases limit with
    | zero => cases short
    | succ limit =>
      have later := induction plain.2 (Nat.le_of_succ_le_succ short)
      rw [readText]
      · rw [later]
      · rintro _ rfl
        exact absurd rfl plain.1
      · rintro rfl
        exact absurd rfl plain.1

/-- What is known of the tailer between two steps. -/
structure Follows (tail : Tail) : Prop where
  plain : '\r' ∉ tail.unread
  within : tail.position ≤ tail.opened.text.length
  bounded : tail.unread.length ≤ tail.recent ∧ tail.recent ≤ maxReadPerPoll
  unfinished : lines '\n' tail.unfinished = ([], tail.unfinished)
  all : tail.linesWritten =
    tail.returned ++ (lines '\n' (tail.unfinished ++ tail.unread)).1
  same : tail.opened.inode = tail.atPath.inode →
    tail.opened = tail.atPath ∧ (lines '\n' tail.written).2 =
      (lines '\n' (tail.unfinished ++ tail.unread)).2
  other : tail.opened.inode ≠ tail.atPath.inode →
    tail.atPath.text = [] ∧ tail.written = []

theorem Follows.drain {tail : Tail} (follows : Follows tail) :
    tail.drain =
      { tail with
        position := tail.opened.text.length
        unfinished := (lines '\n' (tail.unfinished ++ tail.unread)).2
        returned := tail.returned ++
          (lines '\n' (tail.unfinished ++ tail.unread)).1 } := by
  have whole := readText_plain follows.plain
    (follows.bounded.1.trans follows.bounded.2)
  rw [Tail.drain, whole]
  dsimp only
  split_ifs with empty
  · have size := congrArg List.length empty
    have within := follows.within
    rw [Tail.unread, List.length_drop, List.length_nil] at size
    rw [empty, List.append_nil, follows.unfinished, List.append_nil,
      show tail.opened.text.length = tail.position by omega]
  · rfl

theorem unread_of_end {tail : Tail}
    (atEnd : tail.position = tail.opened.text.length) :
    tail.unread = [] := by
  rw [Tail.unread, atEnd, List.drop_length]

/-- A tailer that has read the file at the path to its end. -/
theorem Follows.atEnd {tail : Tail}
    (bounded : tail.recent ≤ maxReadPerPoll)
    (atEnd : tail.position = tail.opened.text.length)
    (file : tail.opened = tail.atPath)
    (unfinished : lines '\n' tail.unfinished = ([], tail.unfinished))
    (all : tail.linesWritten = tail.returned)
    (joined : (lines '\n' tail.written).2 = tail.unfinished) :
    Follows tail := by
  have unread := unread_of_end atEnd
  refine ⟨?_, le_of_eq atEnd, ⟨?_, bounded⟩, unfinished, ?_, fun _ =>
    ⟨file, ?_⟩, fun differ => absurd (congrArg LogFile.inode file) differ⟩
  · rw [unread]
    exact List.not_mem_nil
  · rw [unread]
    exact Nat.zero_le _
  · rw [unread, List.append_nil, unfinished, List.append_nil]
    exact all
  · rw [unread, List.append_nil, unfinished]
    exact joined

/-- A poll returns all complete lines. -/
theorem Follows.poll {tail : Tail} (follows : Follows tail) :
    Follows { tail.iterNewLines with recent := 0 } ∧
      tail.iterNewLines.returned = tail.iterNewLines.linesWritten := by
  have first := follows.drain
  have done := lines_unfinished '\n' (tail.unfinished ++ tail.unread)
  by_cases same : tail.opened.inode = tail.atPath.inode
  · obtain ⟨file, joined⟩ := follows.same same
    have poll : tail.iterNewLines = tail.drain := by
      rw [Tail.iterNewLines, first]
      exact if_neg (not_not.mpr same.symm)
    rw [poll, first]
    exact ⟨.atEnd (Nat.zero_le _) rfl file done follows.all joined,
      follows.all.symm⟩
  · obtain ⟨empty, nothing⟩ := follows.other same
    have rest : tail.drain.unread = [] := by
      rw [first]
      exact unread_of_end rfl
    -- The second read of the old file finds nothing.
    have second : tail.drain.drain = tail.drain := by
      have none : (readText maxReadPerPoll tail.drain.unread).1 = [] := by
        rw [rest]
        rfl
      rw [Tail.drain, if_pos none]
    have poll : tail.iterNewLines = tail.drain.openAtEnd := by
      rw [Tail.iterNewLines, second, first]
      exact if_pos (Ne.symm same)
    rw [poll, first, Tail.openAtEnd]
    refine ⟨.atEnd (Nat.zero_le _) rfl rfl rfl follows.all ?_,
      follows.all.symm⟩
    exact congrArg (fun text => (lines '\n' text).2) nothing

theorem Follows.append {tail : Tail} {text : List Char}
    (follows : Follows tail) (moderate : Moderate tail (.append text))
    (calm : Calm tail (.append text)) : Follows (tail.append text) := by
  have moderate : tail.recent + text.length ≤ maxReadPerPoll := moderate
  by_cases same : tail.opened.inode = tail.atPath.inode
  · obtain ⟨file, joined⟩ := follows.same same
    have opened : (tail.append text).opened =
        { tail.opened with text := tail.opened.text ++ text } := by
      rw [Tail.append, if_pos same, file]
    have unread : (tail.append text).unread = tail.unread ++ text := by
      rw [Tail.unread, opened, Tail.unread]
      exact List.drop_append_of_le_length follows.within
    have parts := lines_append '\n' (tail.unfinished ++ tail.unread) text
    have more := lines_append '\n' tail.written text
    rw [joined] at more
    refine ⟨?_, ?_, ?_, follows.unfinished, ?_, fun _ => ⟨?_, ?_⟩,
      fun differ => ?_⟩
    · rw [unread, List.mem_append, not_or]
      exact ⟨follows.plain, calm.1⟩
    · rw [opened, List.length_append]
      exact follows.within.trans (Nat.le_add_right _ _)
    · rw [unread, List.length_append]
      exact ⟨Nat.add_le_add_right follows.bounded.1 _, moderate⟩
    · have before := follows.all
      rw [Tail.linesWritten] at before ⊢
      rw [unread]
      dsimp only [Tail.append]
      rw [more, ← List.append_assoc, before, ← List.append_assoc, parts,
        List.append_assoc]
    · rw [opened, Tail.append, file]
    · rw [unread]
      dsimp only [Tail.append]
      rw [more, ← List.append_assoc, parts]
    · rw [opened] at differ
      exact absurd same differ
  · have nothing := calm.2 same
    have unchanged : tail.append text = tail := by
      rw [Tail.append, if_neg same, nothing]
      simp
    rw [unchanged]
    exact follows

theorem Follows.rotate {tail : Tail} (follows : Follows tail) :
    Follows tail.rotate := by
  refine ⟨follows.plain, follows.within, follows.bounded,
    follows.unfinished, ?_, fun same => ?_, fun _ => ⟨rfl, rfl⟩⟩
  · refine Eq.trans ?_ follows.all
    simp [Tail.linesWritten, Tail.rotate, lines]
  · have equal : tail.opened.inode =
        tail.atPath.inode + tail.opened.inode + 1 := same
    omega

theorem Follows.step {tail next : Tail} {event : TailEvent}
    (follows : Follows tail)
    (allowed : Moderate tail event ∧ Calm tail event)
    (stepped : tail.step event = some next) : Follows next := by
  cases event with
  | append text =>
    cases stepped
    exact follows.append allowed.1 allowed.2
  | rotate =>
    cases stepped
    exact follows.rotate
  | poll =>
    cases stepped
    exact follows.poll.1

/--
With at most `_MAX_READ_PER_POLL` characters added between two polls, nothing
written between a rotation and the next poll and no carriage return written,
every complete line written since the tailer was made is returned once and
unbroken, in the order of writing, by the time a poll is done.
-/
theorem tailer_returns_every_line
    (file : LogFile) {events : List TailEvent} {final : Tail}
    (taken : run Tail.step (.start file) events = some final)
    (allowed : Along Tail.step
      (fun tail event => Moderate tail event ∧ Calm tail event)
      (.start file) events) :
    final.iterNewLines.returned = final.iterNewLines.linesWritten := by
  have first : Follows (.start file) :=
    .atEnd (Nat.zero_le _) rfl rfl rfl rfl rfl
  have last : Follows final :=
    run_invariant (fun _ _ _ => Follows.step) first allowed taken
  exact last.poll.2

/-- A line is written in two parts, and one to a new log that was polled. -/
def quietLog : List TailEvent :=
  [.append ['x'], .poll, .append ['y', '\n', 'u'], .rotate, .poll,
    .append ['z', '\n']]

/-- A line is written to a new log before it is polled. -/
def rotatedLog : List TailEvent := [.rotate, .append ['x', '\n']]

theorem quiet_log_returned :
    ∃ final, run Tail.step (.start ⟨0, []⟩) quietLog = some final ∧
      final.iterNewLines.returned = final.iterNewLines.linesWritten ∧
      final.iterNewLines.linesWritten = [['x', 'y'], ['z']] := by
  have allowed : Along Tail.step
      (fun tail event => Moderate tail event ∧ Calm tail event)
      (.start ⟨0, []⟩) quietLog := by
    decide +kernel
  refine ⟨_, rfl, tailer_returns_every_line ⟨0, []⟩ rfl allowed, ?_⟩
  decide +kernel

/-- The line is behind the tailer's position and never returned. -/
theorem line_in_new_log_skipped :
    ∃ final, run Tail.step (.start ⟨0, []⟩) rotatedLog = some final ∧
      final.iterNewLines.linesWritten = [['x']] ∧
      final.iterNewLines.returned = [] ∧ final.iterNewLines.unread = [] :=
  ⟨_, rfl, by decide, by decide, by decide⟩

end B3Chain.Monitor
