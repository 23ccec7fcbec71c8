import Mathlib

/-!
# Lines of a stream

A stream is cut into lines at a mark; what follows the last mark is an
unfinished line.  A reader that takes complete lines off the front of its
buffer, one after the other, ends with the unfinished one, and how the stream
reached the buffer does not matter.
-/

namespace B3Chain.Framing

universe u

variable {Letter : Type u} [DecidableEq Letter] (mark : Letter)

/-- The text before the first mark and the text behind it. -/
def cutLine : List Letter → Option (List Letter × List Letter)
  | [] => none
  | letter :: rest =>
    if letter = mark then some ([], rest)
    else (cutLine rest).map fun cut => (letter :: cut.1, cut.2)

/-- The complete lines, and the unfinished one. -/
def lines : List Letter → List (List Letter) × List Letter
  | [] => ([], [])
  | letter :: rest =>
    if letter = mark then ([] :: (lines rest).1, (lines rest).2)
    else
      match (lines rest).1 with
      | [] => ([], letter :: (lines rest).2)
      | line :: others => ((letter :: line) :: others, (lines rest).2)

/-- The loop that takes lines off the buffer. -/
def takeLines : Nat → List Letter → List (List Letter) × List Letter
  | 0, buffer => ([], buffer)
  | rounds + 1, buffer =>
    match cutLine mark buffer with
    | none => ([], buffer)
    | some (line, rest) =>
      (line :: (takeLines rounds rest).1, (takeLines rounds rest).2)

variable {text : List Letter}

theorem cutLine_eq_none_iff :
    cutLine mark text = none ↔ mark ∉ text := by
  induction text with
  | nil => exact iff_of_true rfl List.not_mem_nil
  | cons letter rest induction =>
    rw [cutLine, List.mem_cons, not_or, ← induction]
    by_cases same : letter = mark
    · rw [if_pos same]
      exact iff_of_false (Option.some_ne_none _) fun both => both.1 same.symm
    · rw [if_neg same, Option.map_eq_none_iff]
      exact ⟨fun uncut => ⟨Ne.symm same, uncut⟩, fun both => both.2⟩

theorem eq_of_cutLine {line rest : List Letter}
    (cut : cutLine mark text = some (line, rest)) :
    text = line ++ mark :: rest ∧ mark ∉ line := by
  induction text generalizing line with
  | nil => cases cut
  | cons letter more induction =>
    rw [cutLine] at cut
    split_ifs at cut with same
    · cases cut
      exact ⟨by rw [same, List.nil_append], List.not_mem_nil⟩
    · obtain ⟨⟨before, after⟩, later, joined⟩ :=
        Option.map_eq_some_iff.mp cut
      cases joined
      obtain ⟨split, unmarked⟩ := induction later
      rw [List.mem_cons, not_or]
      exact ⟨by rw [split, List.cons_append], Ne.symm same, unmarked⟩

theorem lines_of_cutLine_none (uncut : cutLine mark text = none) :
    lines mark text = ([], text) := by
  induction text with
  | nil => rfl
  | cons letter rest induction =>
    rw [cutLine] at uncut
    split_ifs at uncut with same
    rw [Option.map_eq_none_iff] at uncut
    rw [lines, if_neg same, induction uncut]

theorem lines_of_cutLine_some {line rest : List Letter}
    (cut : cutLine mark text = some (line, rest)) :
    lines mark text = (line :: (lines mark rest).1, (lines mark rest).2) ∧
      rest.length < text.length := by
  induction text generalizing line with
  | nil => cases cut
  | cons letter more induction =>
    rw [cutLine] at cut
    rw [lines]
    split_ifs at cut ⊢ with same
    · cases cut
      exact ⟨rfl, Nat.lt_succ_self _⟩
    · obtain ⟨⟨before, after⟩, later, joined⟩ :=
        Option.map_eq_some_iff.mp cut
      cases joined
      obtain ⟨split, shorter⟩ := induction later
      rw [split]
      exact ⟨rfl, Nat.lt_succ_of_lt shorter⟩

/-- Enough rounds take all complete lines. -/
theorem takeLines_eq {rounds : Nat} {buffer : List Letter}
    (enough : buffer.length ≤ rounds) :
    takeLines mark rounds buffer = lines mark buffer := by
  induction rounds generalizing buffer with
  | zero =>
    rw [List.length_eq_zero_iff.mp (Nat.le_zero.mp enough)]
    rfl
  | succ rounds induction =>
    rw [takeLines]
    cases cut : cutLine mark buffer with
    | none => exact (lines_of_cutLine_none mark cut).symm
    | some parts =>
      obtain ⟨split, shorter⟩ := lines_of_cutLine_some mark cut
      rw [split, ← induction (by omega : parts.2.length ≤ rounds)]

/-- Of two pieces, the second continues the unfinished line of the first. -/
theorem lines_append (first second : List Letter) :
    lines mark (first ++ second) =
      ((lines mark first).1 ++
          (lines mark ((lines mark first).2 ++ second)).1,
        (lines mark ((lines mark first).2 ++ second)).2) := by
  induction first with
  | nil => rfl
  | cons letter rest induction =>
    rw [List.cons_append, lines, induction]
    by_cases same : letter = mark
    · rw [if_pos same, lines, if_pos same]
      rfl
    · rw [if_neg same, lines, if_neg same]
      cases (lines mark rest).1 with
      | nil =>
        dsimp only
        rw [List.nil_append, List.nil_append, List.cons_append, lines,
          if_neg same]
      | cons line others => rfl

/-- The length of a text is that of its lines, each with its mark. -/
theorem length_lines (text : List Letter) :
    text.length = ((lines mark text).1.map fun line => line.length + 1).sum +
      (lines mark text).2.length := by
  induction text with
  | nil => rfl
  | cons letter rest induction =>
    rw [List.length_cons, induction, lines]
    split_ifs
    · simp
      omega
    · cases (lines mark rest).1 with
      | nil => simp
      | cons line others =>
        simp
        omega

/-- A complete line and its mark are in the text. -/
theorem length_lt_of_mem_lines {line : List Letter}
    (member : line ∈ (lines mark text).1) : line.length < text.length := by
  have total := length_lines mark text
  have part := List.le_sum_of_mem (List.mem_map_of_mem
    (f := fun line : List Letter => line.length + 1) member)
  omega

/-- The unfinished line has no complete one. -/
theorem lines_unfinished (text : List Letter) :
    lines mark (lines mark text).2 = ([], (lines mark text).2) := by
  induction text with
  | nil => rfl
  | cons letter rest induction =>
    rw [lines]
    split_ifs with same
    · exact induction
    · cases complete : (lines mark rest).1 with
      | nil =>
        dsimp only
        rw [lines, if_neg same, induction]
      | cons line others => exact induction

/-- One more letter ends the unfinished line or continues it. -/
theorem lines_snoc (unfinished : lines mark text = ([], text))
    (letter : Letter) :
    lines mark (text ++ [letter]) =
      if letter = mark then ([text], []) else ([], text ++ [letter]) := by
  induction text with
  | nil =>
    rw [List.nil_append, lines]
    rfl
  | cons first rest induction =>
    rw [lines] at unfinished
    split_ifs at unfinished with same
    · cases unfinished
    · have before : lines mark rest = ([], rest) := by
        cases complete : (lines mark rest).1 with
        | nil =>
          rw [complete] at unfinished
          have same := (Prod.ext_iff.mp unfinished).2
          exact Prod.ext complete (List.cons.inj same).2
        | cons line others =>
          rw [complete] at unfinished
          cases unfinished
      rw [List.cons_append, lines, if_neg same, induction before]
      split_ifs <;> rfl

/-- An unfinished line is no longer than the line it becomes. -/
theorem length_unfinished_le {bound : Nat}
    (unfinished : lines mark text = ([], text)) (rest : List Letter)
    (complete : ∀ line ∈ (lines mark (text ++ rest)).1, line.length ≤ bound)
    (last : (lines mark (text ++ rest)).2.length ≤ bound) :
    text.length ≤ bound := by
  induction rest generalizing text with
  | nil =>
    rw [List.append_nil, unfinished] at last
    exact last
  | cons letter rest induction =>
    have one := lines_snoc mark unfinished letter
    have joined : text ++ letter :: rest = text ++ [letter] ++ rest := by
      simp
    rw [joined] at complete last
    split_ifs at one with same
    · rw [lines_append, one] at complete
      exact complete text (List.mem_append_left _ List.mem_cons_self)
    · have longer := induction one complete last
      rw [List.length_append] at longer
      omega

/-- A text without the mark is one unfinished line. -/
theorem lines_of_not_mem (unmarked : mark ∉ text) :
    lines mark text = ([], text) := by
  induction text with
  | nil => rfl
  | cons letter rest induction =>
    rw [List.mem_cons, not_or] at unmarked
    rw [lines, if_neg (Ne.symm unmarked.1), induction unmarked.2]

/-- Lines that each end in the mark are read off as they were written. -/
theorem lines_terminated {written : List (List Letter)}
    (unmarked : ∀ line ∈ written, mark ∉ line) :
    lines mark (written.flatMap (· ++ [mark])) = (written, []) := by
  induction written with
  | nil => rfl
  | cons line rest induction =>
    have unfinished := lines_of_not_mem mark (unmarked line List.mem_cons_self)
    have one := lines_snoc mark unfinished mark
    rw [if_pos rfl] at one
    have later := induction fun other member =>
      unmarked other (List.mem_cons_of_mem line member)
    rw [List.flatMap_cons, lines_append, one, List.nil_append, later]
    rfl

/-- Lines of a longer text continue those of its beginning. -/
theorem length_unfinished_le_of_append {first : List Letter}
    (second : List Letter) {bound : Nat}
    (complete : ∀ line ∈ (lines mark (first ++ second)).1,
      line.length ≤ bound)
    (last : (lines mark (first ++ second)).2.length ≤ bound) :
    (lines mark first).2.length ≤ bound := by
  rw [lines_append] at complete last
  exact length_unfinished_le mark (lines_unfinished mark first) second
    (fun line member => complete line (List.mem_append_right _ member)) last

end B3Chain.Framing
