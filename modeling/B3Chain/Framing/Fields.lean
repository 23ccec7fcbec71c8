import B3Chain.Words.LittleEndian
import B3Chain.Words.Utf8

/-!
# Fields of a byte string

A reader takes fields off the front of a byte string and fails once there are
too few bytes.  A writer puts fields one after the other, unless one of them
cannot be written.  A field is carried by a writer and a reader if the reader
takes from the bytes, whatever follows them, what the writer was given.
-/

namespace B3Chain.Framing

open Words

/-! ## Readers -/

/-- How far has been read, and what is left. -/
structure Cursor where
  off : Nat
  rest : List Byte
  deriving DecidableEq

/-- Why a field cannot be read. -/
inductive ReadError
  | truncated (need offset available : Nat)
  | malformedText
  | refused (message : String)
  deriving DecidableEq, Repr

/-- A reader of fields. -/
abbrev Reader (α : Type) := StateT Cursor (Except ReadError) α

namespace Reader

variable {α β : Type}

/-- The given number of bytes. -/
def bytes (count : Nat) : Reader (List Byte) := fun cursor =>
  if cursor.rest.length < count then
    .error (.truncated count cursor.off cursor.rest.length)
  else
    .ok (cursor.rest.take count,
      ⟨cursor.off + count, cursor.rest.drop count⟩)

/-- A number of the given number of bytes, lowest first. -/
def word (width : Nat) : Reader Nat := do
  return leValue (← bytes width)

/-- Bytes with their count in front of them. -/
def counted (width : Nat) : Reader (List Byte) := do
  bytes (← word width)

/-- A field the given number of times. -/
def times (item : Reader α) : Nat → Reader (List α)
  | 0 => return []
  | count + 1 => do
      let first ← item
      let others ← times item count
      return first :: others

/-- A list with its length in front of it. -/
def sequence (width : Nat) (item : Reader α) : Reader (List α) := do
  times item (← word width)

/-- What the fields at the front of a byte string are. -/
def decode (reader : Reader α) (input : List Byte) : Except ReadError α :=
  (reader.run ⟨0, input⟩).map Prod.fst

end Reader

/-! ## Writing -/

/-- The fields one after the other, unless one of them cannot be written. -/
def written (fields : List (Except String (List Byte))) :
    Except String (List Byte) := do
  return (← fields.mapM id).flatten

@[simp]
theorem written_nil : written [] = .ok [] := rfl

theorem written_cons (field : Except String (List Byte))
    (fields : List (Except String (List Byte))) :
    written (field :: fields) = do
      let first ← field
      let others ← written fields
      return first ++ others := by
  rw [written, List.mapM_cons]
  cases field with
  | error thrown => rfl
  | ok bytes =>
    rw [written]
    cases fields.mapM id with
    | error thrown => rfl
    | ok others => rfl

theorem written_cons_ok {field : Except String (List Byte)}
    {fields : List (Except String (List Byte))} {output : List Byte} :
    written (field :: fields) = .ok output ↔
      ∃ first others, field = .ok first ∧ written fields = .ok others ∧
        output = first ++ others := by
  rw [written_cons]
  cases field with
  | error thrown =>
    constructor
    · intro impossible
      cases impossible
    · rintro ⟨first, others, impossible, -⟩
      cases impossible
  | ok bytes =>
    cases written fields with
    | error thrown =>
      constructor
      · intro impossible
        cases impossible
      · rintro ⟨first, others, -, impossible, -⟩
        cases impossible
    | ok later =>
      constructor
      · rintro ⟨⟩
        exact ⟨bytes, later, rfl, rfl, rfl⟩
      · rintro ⟨first, others, ⟨⟩, ⟨⟩, rfl⟩
        rfl

/-- Fields that are written can each be written. -/
theorem ok_of_written {fields : List (Except String (List Byte))}
    {output : List Byte} (done : written fields = .ok output)
    {field : Except String (List Byte)} (member : field ∈ fields) :
    ∃ bytes, field = .ok bytes := by
  induction fields generalizing output with
  | nil => cases member
  | cons head rest induction =>
    obtain ⟨first, others, made, later, -⟩ := written_cons_ok.mp done
    rcases List.mem_cons.mp member with rfl | inside
    · exact ⟨first, made⟩
    · exact induction later inside

/-- The field can be written, with at most so many bytes. -/
def Fits (bound : Nat) (field : Except String (List Byte)) : Prop :=
  ∃ bytes, field = .ok bytes ∧ bytes.length ≤ bound

theorem written_fits {bounds : List Nat}
    {fields : List (Except String (List Byte))}
    (each : List.Forall₂ Fits bounds fields) :
    Fits bounds.sum (written fields) := by
  induction each with
  | nil => exact ⟨[], written_nil, le_rfl⟩
  | @cons bound field bounds fields first _ others =>
    obtain ⟨bytes, rfl, short⟩ := first
    obtain ⟨later, made, bounded⟩ := others
    refine ⟨bytes ++ later,
      written_cons_ok.mpr ⟨bytes, later, rfl, made, rfl⟩, ?_⟩
    rw [List.length_append, List.sum_cons]
    omega

/-! ## What is written and read -/

/-- The reader takes exactly these bytes and makes the value of them. -/
def Reads {α : Type} (reader : Reader α) (input : List Byte) (value : α) :
    Prop :=
  ∀ off rest, reader.run ⟨off, input ++ rest⟩ =
    .ok (value, ⟨off + input.length, rest⟩)

/-- If the field is written, the reader takes the value from its bytes. -/
def Carries {α : Type} (reader : Reader α)
    (field : Except String (List Byte)) (value : α) : Prop :=
  ∀ bytes, field = .ok bytes → Reads reader bytes value

section

variable {α β : Type} {reader : Reader α} {next : α → Reader β}
  {value : α} {result : β}

theorem decode_of_reads {input : List Byte}
    (reads : Reads reader input value) : reader.decode input = .ok value := by
  have taken := reads 0 []
  rw [List.append_nil] at taken
  rw [Reader.decode, taken]
  rfl

theorem reads_bind {input later : List Byte} (first : Reads reader input value)
    (others : Reads (next value) later result) :
    Reads (reader >>= next) (input ++ later) result := by
  intro off rest
  have second := others (off + input.length) rest
  rw [List.append_assoc, StateT.run_bind, first off (later ++ rest),
    List.length_append, ← Nat.add_assoc]
  exact second

/-- The last field of a record. -/
theorem reads_last (make : α → β) {input : List Byte}
    (first : Reads reader input value) :
    Reads (reader >>= fun value => pure (make value)) input (make value) := by
  have both : Reads (reader >>= fun value => pure (make value))
      (input ++ []) (make value) :=
    reads_bind first fun _ _ => rfl
  rwa [List.append_nil] at both

theorem reads_bytes (input : List Byte) :
    Reads (Reader.bytes input.length) input input := by
  intro off rest
  change Reader.bytes _ _ = _
  rw [Reader.bytes, if_neg, List.take_left, List.drop_left]
  rw [List.length_append]
  omega

theorem reads_word {width number : Nat} (fits : number < 256 ^ width) :
    Reads (Reader.word width) (leBytes width number) number := by
  have taken := reads_bytes (leBytes width number)
  rw [length_leBytes] at taken
  have read := reads_last leValue taken
  rw [leValue_leBytes, Nat.mod_eq_of_lt fits] at read
  exact read

/-- A record without further fields. -/
theorem carries_nil (value : α) :
    Carries (pure value : Reader α) (written []) value := by
  rintro bytes ⟨⟩
  exact fun _ _ => rfl

/-- A record is carried field by field. -/
theorem carries_cons {field : Except String (List Byte)}
    {fields : List (Except String (List Byte))}
    (first : Carries reader field value)
    (others : Carries (next value) (written fields) result) :
    Carries (reader >>= next) (written (field :: fields)) result := by
  intro bytes made
  obtain ⟨front, later, isFront, isLater, rfl⟩ := written_cons_ok.mp made
  exact reads_bind (first front isFront) (others later isLater)

theorem carries_times {item : Reader α}
    {write : α → Except String (List Byte)}
    (each : ∀ one, Carries item (write one) one) (items : List α) :
    Carries (Reader.times item items.length) (written (items.map write))
      items := by
  induction items with
  | nil => exact carries_nil []
  | cons one rest induction =>
    intro bytes made
    obtain ⟨front, later, isFront, isLater, rfl⟩ := written_cons_ok.mp made
    exact reads_bind (each one front isFront)
      (reads_last (one :: ·) (induction later isLater))

end

end B3Chain.Framing
