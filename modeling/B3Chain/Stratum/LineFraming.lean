import B3Chain.Framing.Lines
import B3Chain.Stratum.Json

/-!
# Lines of a Stratum V1 client

`onData` of `StratumClient` appends a chunk to the buffer, closes the
connection if the buffer is then longer than 16384 characters, and otherwise
takes the complete lines off it.  The limit is on the buffer before the lines
are taken off, so it also meets short lines that arrive together.  A stream is
framed alike however it is cut exactly if it fits the buffer as a whole, or if
it has a line that exceeds the limit with its line feed and no message before
it.
-/

namespace B3Chain.Stratum

open Words
open Framing

/-! ## The reader -/

/-- The code unit of the line feed. -/
def lineFeed : UInt16 := 10

/-- `1024 * 16`. -/
def maxBuffer : Nat := 1024 * 16

/-- The buffer and the socket of a client. -/
structure LineBuffer where
  buf : JsString
  destroyed : Bool

/-- The message a line is emitted as, if it is one. -/
def lineMessage (runtime : Runtime) (line : JsString) : List Json :=
  let line := JsString.trim line
  if line = [] then [] else (runtime.parse line).toList

/-- The lines a buffer is taken apart into, and what stays in it. -/
def bufferedLines (buf : JsString) : List JsString × JsString :=
  takeLines lineFeed buf.length buf

/-- `onData`: the messages emitted; a destroyed socket has no data events. -/
def LineBuffer.onData (runtime : Runtime) (client : LineBuffer)
    (chunk : JsString) : List Json × LineBuffer :=
  if client.destroyed then ([], client)
  else
    let buf := client.buf ++ chunk
    if buf.length > maxBuffer then ([], ⟨buf, true⟩)
    else
      let taken := bufferedLines buf
      (taken.1.flatMap (lineMessage runtime), ⟨taken.2, false⟩)

/-- The messages of a sequence of data events, and whether they closed the
connection. -/
def LineBuffer.receive (runtime : Runtime) :
    LineBuffer → List JsString → List Json × Bool
  | client, [] => ([], client.destroyed)
  | client, chunk :: rest =>
    let event := client.onData runtime chunk
    let later := receive runtime event.2 rest
    (event.1 ++ later.1, later.2)

variable (runtime : Runtime)

theorem receive_destroyed (buf : JsString) (chunks : List JsString) :
    (LineBuffer.mk buf true).receive runtime chunks = ([], true) := by
  induction chunks with
  | nil => rfl
  | cons chunk rest induction =>
    rw [LineBuffer.receive, LineBuffer.onData, if_pos rfl]
    exact induction

theorem receive_overflow {buf chunk : JsString} (rest : List JsString)
    (long : maxBuffer < (buf ++ chunk).length) :
    (LineBuffer.mk buf false).receive runtime (chunk :: rest) =
      ([], true) := by
  rw [LineBuffer.receive, LineBuffer.onData, if_neg Bool.false_ne_true]
  dsimp only
  rw [if_pos long]
  exact receive_destroyed runtime _ rest

theorem receive_cons {buf chunk : JsString} (rest : List JsString)
    (short : (buf ++ chunk).length ≤ maxBuffer) :
    (LineBuffer.mk buf false).receive runtime (chunk :: rest) =
      let taken := lines lineFeed (buf ++ chunk)
      let later := (LineBuffer.mk taken.2 false).receive runtime rest
      (taken.1.flatMap (lineMessage runtime) ++ later.1, later.2) := by
  rw [LineBuffer.receive, LineBuffer.onData, if_neg Bool.false_ne_true]
  dsimp only
  rw [if_neg (not_lt.mpr short), bufferedLines, takeLines_eq lineFeed le_rfl]

/-! ## Streams that fit the buffer -/

/-- However a stream that fits is cut, its lines are taken. -/
theorem receive_of_fits {buf : JsString} {chunks : List JsString}
    (fits : (buf ++ chunks.flatten).length ≤ maxBuffer)
    (unfinished : lines lineFeed buf = ([], buf)) :
    (LineBuffer.mk buf false).receive runtime chunks =
      ((lines lineFeed (buf ++ chunks.flatten)).1.flatMap
        (lineMessage runtime), false) := by
  induction chunks generalizing buf with
  | nil =>
    rw [List.flatten_nil, List.append_nil, unfinished]
    rfl
  | cons chunk rest induction =>
    rw [List.flatten_cons, ← List.append_assoc] at fits ⊢
    have total := length_lines lineFeed (buf ++ chunk)
    simp only [List.length_append] at fits total
    rw [receive_cons runtime rest (by rw [List.length_append]; omega)]
    dsimp only
    rw [induction (by rw [List.length_append]; omega)
        (lines_unfinished lineFeed _),
      lines_append lineFeed (buf ++ chunk), List.flatMap_append]

/-! ## Streams with a line that does not fit -/

/-- The stream has a line that exceeds the limit with its line feed, and no
line before it is a message. -/
def SilentOverflow (text : JsString) : Prop :=
  ∃ before line after,
    (lines lineFeed text).1 = before ++ line :: after ∧
      line.length = maxBuffer ∧
      before.flatMap (lineMessage runtime) = []

/-- Such a stream closes the connection before any message. -/
theorem receive_of_silentOverflow {buf : JsString} {chunks : List JsString}
    (unfinished : lines lineFeed buf = ([], buf))
    (overflow : SilentOverflow runtime (buf ++ chunks.flatten)) :
    (LineBuffer.mk buf false).receive runtime chunks = ([], true) := by
  induction chunks generalizing buf with
  | nil =>
    obtain ⟨before, line, after, split, -⟩ := overflow
    rw [List.flatten_nil, List.append_nil, unfinished] at split
    simp at split
  | cons chunk rest induction =>
    by_cases long : maxBuffer < (buf ++ chunk).length
    · exact receive_overflow runtime rest long
    · obtain ⟨before, line, after, split, size, silent⟩ := overflow
      rw [List.flatten_cons, ← List.append_assoc, lines_append] at split
      -- No line of this buffer is the long one, so all come before it.
      have absent : line ∉ (lines lineFeed (buf ++ chunk)).1 := by
        intro member
        have shorter := length_lt_of_mem_lines lineFeed member
        omega
      obtain ⟨others, taken, left⟩ : ∃ others,
          before = (lines lineFeed (buf ++ chunk)).1 ++ others ∧
            (lines lineFeed ((lines lineFeed (buf ++ chunk)).2 ++
              rest.flatten)).1 = others ++ line :: after := by
        rcases List.append_eq_append_iff.mp split with found | ⟨more, all, left⟩
        · exact found
        · cases more with
          | nil =>
            rw [List.append_nil] at all
            exact ⟨[], by rw [all, List.append_nil], left.symm⟩
          | cons first more =>
            cases (List.cons.inj left).1
            exact absurd (all ▸ List.mem_append_right _ List.mem_cons_self)
              absent
      rw [taken, List.flatMap_append, List.append_eq_nil_iff] at silent
      rw [receive_cons runtime rest (not_lt.mp long)]
      dsimp only
      rw [induction (lines_unfinished lineFeed _)
        ⟨others, line, after, left, size, silent.2⟩, silent.1]
      rfl

/-! ## Single characters -/

/-- Cut into single characters, a stream of short lines closes the connection
only at a line that exceeds the limit with its line feed. -/
theorem silentOverflow_of_single {buf text : JsString}
    (unfinished : lines lineFeed buf = ([], buf))
    (short : ∀ line ∈ (lines lineFeed (buf ++ text)).1,
      line.length ≤ maxBuffer)
    (tail : (lines lineFeed (buf ++ text)).2.length ≤ maxBuffer)
    (closed : (LineBuffer.mk buf false).receive runtime
      (text.map fun unit => [unit]) = ([], true)) :
    SilentOverflow runtime (buf ++ text) := by
  induction text generalizing buf with
  | nil => cases closed
  | cons unit rest induction =>
    have joined : buf ++ unit :: rest = buf ++ [unit] ++ rest := by simp
    rw [joined] at short tail ⊢
    have one := lines_snoc lineFeed unfinished unit
    have size : (buf ++ [unit]).length = buf.length + 1 := by simp
    by_cases feed : unit = lineFeed
    · rw [if_pos feed] at one
      have split : lines lineFeed (buf ++ [unit] ++ rest) =
          (buf :: (lines lineFeed ([] ++ rest)).1,
            (lines lineFeed ([] ++ rest)).2) := by
        rw [lines_append, one]
        rfl
      rw [split] at short tail
      have lineShort := short buf List.mem_cons_self
      by_cases long : buf.length = maxBuffer
      · exact ⟨[], buf, _, by rw [split]; rfl, long, rfl⟩
      · rw [List.map_cons, receive_cons runtime _ (by omega), one] at closed
        dsimp only at closed
        rw [Prod.mk.injEq, List.append_eq_nil_iff] at closed
        obtain ⟨before, line, after, found, full, silent⟩ :=
          induction rfl (fun line member =>
            short line (List.mem_cons_of_mem buf member)) tail
            (Prod.ext closed.1.2 closed.2)
        refine ⟨buf :: before, line, after, ?_, full, ?_⟩
        · rw [split, found]
          rfl
        · rw [List.flatMap_cons, silent]
          simpa using closed.1.1
    · rw [if_neg feed] at one
      have fits := length_unfinished_le lineFeed one rest short tail
      rw [List.map_cons, receive_cons runtime _ fits, one] at closed
      exact induction one short tail closed

/-! ## Framing -/

/-- Every line of the stream is at most 16384 characters long. -/
def LinesShort (text : JsString) : Prop :=
  (∀ line ∈ (lines lineFeed text).1, line.length ≤ maxBuffer) ∧
    (lines lineFeed text).2.length ≤ maxBuffer

/-- All ways to cut the stream into data events have the same messages and
close the connection alike. -/
def FramedAlike (text : JsString) : Prop :=
  ∀ chunks others : List JsString, chunks.flatten = text →
    others.flatten = text →
      (LineBuffer.mk [] false).receive runtime chunks =
        (LineBuffer.mk [] false).receive runtime others

/-- A stream of short lines is framed alike exactly if it fits the buffer as a
whole, or closes the connection before any message. -/
theorem framed_alike_iff (text : JsString) (short : LinesShort text) :
    FramedAlike runtime text ↔
      text.length ≤ maxBuffer ∨ SilentOverflow runtime text := by
  constructor
  · intro alike
    by_cases fits : text.length ≤ maxBuffer
    · exact .inl fits
    · -- As one chunk the stream closes the connection at once.
      have whole : (LineBuffer.mk [] false).receive runtime [text] =
          ([], true) := receive_overflow runtime [] (not_le.mp fits)
      have single := alike [text] (text.map fun unit => [unit])
        List.flatten_singleton (List.flatMap_singleton' text)
      rw [whole] at single
      rw [← List.nil_append text] at short ⊢
      exact .inr (silentOverflow_of_single runtime rfl short.1 short.2
        single.symm)
  · rintro (fits | overflow) chunks others rfl same
    · rw [receive_of_fits runtime fits rfl,
        receive_of_fits runtime (by rw [same]; exact fits) rfl, same]
    · rw [receive_of_silentOverflow runtime rfl overflow,
        receive_of_silentOverflow runtime rfl (by rw [same]; exact overflow)]

/-- A single short line is framed alike. -/
theorem one_short_line_framed_alike :
    LinesShort [49, 10] ∧ ∀ runtime, FramedAlike runtime [49, 10] := by
  have short : LinesShort [49, 10] := ⟨by decide, by decide⟩
  exact ⟨short, fun runtime =>
    (framed_alike_iff runtime [49, 10] short).mpr (.inl (by decide))⟩

/-- A line that fills the buffer with its line feed. -/
def fullLine : JsString := List.replicate (maxBuffer - 1) 120

theorem lines_fullLine :
    lines lineFeed (fullLine ++ [lineFeed]) = ([fullLine], []) := by
  have unfinished : ∀ count, lines lineFeed (List.replicate count 120) =
      ([], List.replicate count 120) := by
    intro count
    induction count with
    | zero => rfl
    | succ count induction =>
      rw [List.replicate_succ, lines, if_neg (by decide), induction]
  rw [fullLine, lines_snoc lineFeed (unfinished _), if_pos rfl]

/-- Two short lines close the connection in one data event and do not in
two. -/
theorem two_short_lines_framed_apart :
    LinesShort (fullLine ++ [lineFeed] ++ [49, 10]) ∧ ∀ runtime,
      ((LineBuffer.mk [] false).receive runtime
        [fullLine ++ [lineFeed] ++ [49, 10]]).2 = true ∧
      ((LineBuffer.mk [] false).receive runtime
        [fullLine ++ [lineFeed], [49, 10]]).2 = false := by
  have size : (fullLine ++ [lineFeed]).length = maxBuffer := by
    rw [List.length_append, fullLine, List.length_replicate]
    rfl
  refine ⟨?_, fun runtime => ⟨?_, ?_⟩⟩
  · rw [LinesShort, lines_append, lines_fullLine]
    refine ⟨fun line member => ?_, by decide⟩
    rcases List.mem_cons.mp member with rfl | last
    · rw [fullLine, List.length_replicate]
      exact Nat.sub_le _ _
    · rw [List.mem_singleton.mp last]
      decide
  · rw [receive_overflow runtime [] (by
      rw [List.nil_append, List.length_append, size]
      decide)]
  · rw [receive_cons runtime _ (by rw [List.nil_append, size]),
      List.nil_append, lines_fullLine]
    dsimp only
    rw [receive_cons runtime _ (by decide)]
    rfl

end B3Chain.Stratum
