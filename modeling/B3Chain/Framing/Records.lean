import Mathlib

/-!
# Records in a stream

A stream of symbols is a sequence of records, each written so that its end can
be told from its own symbols.  Splitting a buffer takes records off its front
as long as a complete one is there.  A buffer that is a prefix of a written
stream splits into a prefix of the records written, and the part left over is
where the next record begins.
-/

namespace B3Chain.Framing

universe u v

variable {Symbol : Type u} {Record : Type v}

/--
How records are written.  `first` takes one complete record off the front of a
buffer; it finds exactly what `write` wrote, and what follows is untouched.
-/
structure Format (Symbol : Type u) (Record : Type v) where
  first : List Symbol → Option (Record × List Symbol)
  write : Record → List Symbol
  Valid : Record → Prop
  write_ne_nil : ∀ record, write record ≠ []
  first_write : ∀ record rest, Valid record →
    first (write record ++ rest) = some (record, rest)
  of_first : ∀ input record rest, first input = some (record, rest) →
    Valid record ∧ input = write record ++ rest

namespace Format

variable (format : Format Symbol Record)

theorem shorter_of_first {input rest : List Symbol} {record : Record}
    (found : format.first input = some (record, rest)) :
    rest.length < input.length := by
  obtain ⟨-, rfl⟩ := format.of_first input record rest found
  have written := List.length_pos_of_ne_nil (format.write_ne_nil record)
  rw [List.length_append]
  omega

/-- The complete records of a buffer, and what is left over. -/
def split (input : List Symbol) : List Record × List Symbol :=
  match found : format.first input with
  | none => ([], input)
  | some (record, rest) =>
    have := format.shorter_of_first found
    let later := split rest
    (record :: later.1, later.2)
termination_by input.length

/-- The stream that holds the given records. -/
def writeAll (records : List Record) : List Symbol :=
  records.flatMap format.write

variable {format}

theorem split_of_none {input : List Symbol}
    (found : format.first input = none) :
    format.split input = ([], input) := by
  rw [split]
  split
  · rfl
  · next other => cases found.symm.trans other

theorem split_of_first {input rest : List Symbol} {record : Record}
    (found : format.first input = some (record, rest)) :
    format.split input =
      (record :: (format.split rest).1, (format.split rest).2) := by
  rw [split]
  split
  · next other => cases found.symm.trans other
  · next other =>
      cases found.symm.trans other
      rfl

theorem split_eq_nil_iff {input : List Symbol} :
    (format.split input).1 = [] ↔ format.first input = none := by
  cases found : format.first input with
  | none => simp [split_of_none found]
  | some pair => simp [split_of_first found]

theorem first_of_split_eq_cons {input : List Symbol} {record : Record}
    {later : List Record}
    (found : (format.split input).1 = record :: later) :
    ∃ rest, format.first input = some (record, rest) ∧
      (format.split rest).1 = later := by
  cases next : format.first input with
  | none =>
    rw [split_of_none next] at found
    cases found
  | some pair =>
    rw [split_of_first next, List.cons.injEq] at found
    obtain ⟨rfl, rfl⟩ := found
    exact ⟨pair.2, rfl, rfl⟩

theorem split_nil : format.split [] = ([], []) := by
  cases found : format.first [] with
  | none => exact split_of_none found
  | some pair => cases format.shorter_of_first found

@[simp]
theorem writeAll_nil : format.writeAll [] = [] := rfl

@[simp]
theorem writeAll_cons (record : Record) (records : List Record) :
    format.writeAll (record :: records) =
      format.write record ++ format.writeAll records := rfl

@[simp]
theorem writeAll_append (left right : List Record) :
    format.writeAll (left ++ right) =
      format.writeAll left ++ format.writeAll right :=
  List.flatMap_append

/-- A written record is complete. -/
theorem eq_nil_of_first_writeAll {records : List Record}
    (valid : ∀ record ∈ records, format.Valid record)
    (none : format.first (format.writeAll records) = none) :
    records = [] := by
  cases records with
  | nil => rfl
  | cons record records =>
    have found := format.first_write record (format.writeAll records)
      (valid record List.mem_cons_self)
    cases none.symm.trans found

/-- Written records are split off again, whatever follows them. -/
theorem split_writeAll_append {records : List Record}
    (valid : ∀ record ∈ records, format.Valid record)
    (rest : List Symbol) :
    format.split (format.writeAll records ++ rest) =
      (records ++ (format.split rest).1, (format.split rest).2) := by
  induction records with
  | nil => rfl
  | cons record records induction =>
    have found := format.first_write record
      (format.writeAll records ++ rest) (valid record List.mem_cons_self)
    rw [writeAll_cons, List.append_assoc, split_of_first found,
      induction fun later member =>
        valid later (List.mem_cons_of_mem record member)]
    rfl

/-- A buffer is its complete records and what is left over. -/
theorem writeAll_split (input : List Symbol) :
    format.writeAll (format.split input).1 ++ (format.split input).2 =
        input ∧
      (∀ record ∈ (format.split input).1, format.Valid record) ∧
        format.first (format.split input).2 = none := by
  induction size : input.length using Nat.strong_induction_on
    generalizing input with
  | _ count induction =>
    cases found : format.first input with
    | none =>
      rw [split_of_none found]
      exact ⟨rfl, by simp, found⟩
    | some pair =>
      obtain ⟨record, rest⟩ := pair
      obtain ⟨valid, written⟩ := format.of_first _ _ _ found
      have shorter := format.shorter_of_first found
      obtain ⟨rejoined, others, ended⟩ :=
        induction rest.length (size ▸ shorter) rest rfl
      rw [split_of_first found]
      refine ⟨?_, ?_, ended⟩
      · rw [writeAll_cons, List.append_assoc, rejoined, written]
      · rw [List.forall_mem_cons]
        exact ⟨valid, others⟩

/--
A buffer that is the front of a written stream splits into the first records,
and the rest of the stream continues the part left over.
-/
theorem split_of_front {records : List Record} {front back : List Symbol}
    (valid : ∀ record ∈ records, format.Valid record)
    (stream : front ++ back = format.writeAll records) :
    ∃ later, records = (format.split front).1 ++ later ∧
      (format.split front).2 ++ back = format.writeAll later := by
  obtain ⟨rejoined, fits, -⟩ := format.writeAll_split front
  obtain ⟨again, -, -⟩ := format.writeAll_split ((format.split front).2 ++ back)
  have whole : format.writeAll (format.split front).1 ++
      ((format.split front).2 ++ back) = format.writeAll records := by
    rw [← List.append_assoc, rejoined, stream]
  have both := split_writeAll_append fits ((format.split front).2 ++ back)
  have plain := split_writeAll_append valid []
  rw [List.append_nil, split_nil, List.append_nil] at plain
  rw [whole, plain, Prod.mk.injEq] at both
  refine ⟨_, both.1, ?_⟩
  rw [← both.2, List.append_nil] at again
  exact again.symm

/-! ## Chunks -/

/-- The records of chunks that arrive one after the other.  What is left over
stands in front of the next chunk. -/
def splitChunks (format : Format Symbol Record) (kept : List Symbol) :
    List (List Symbol) → List Record × List Symbol
  | [] => ([], kept)
  | chunk :: rest =>
    let first := format.split (kept ++ chunk)
    let later := format.splitChunks first.2 rest
    (first.1 ++ later.1, later.2)

/--
However a written stream is cut into chunks, its records come out and nothing
is left over.
-/
theorem splitChunks_writeAll {records : List Record} {kept : List Symbol}
    {chunks : List (List Symbol)}
    (valid : ∀ record ∈ records, format.Valid record)
    (incomplete : format.first kept = none)
    (stream : kept ++ chunks.flatten = format.writeAll records) :
    format.splitChunks kept chunks = (records, []) := by
  induction chunks generalizing kept records with
  | nil =>
    rw [List.flatten_nil, List.append_nil] at stream
    rw [stream] at incomplete
    have empty := eq_nil_of_first_writeAll valid incomplete
    rw [splitChunks, stream, empty]
    rfl
  | cons chunk rest induction =>
    rw [List.flatten_cons, ← List.append_assoc] at stream
    obtain ⟨later, parts, remaining⟩ := split_of_front valid stream
    have ended := (format.writeAll_split (kept ++ chunk)).2.2
    have others := induction
      (fun record member => valid record
        (parts ▸ List.mem_append_right _ member))
      ended remaining
    rw [splitChunks, others, parts]

end Format

end B3Chain.Framing
