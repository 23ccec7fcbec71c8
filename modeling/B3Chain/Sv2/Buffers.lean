import B3Chain.Framing.Fields
import B3Chain.Machine.Throwing
import B3Chain.Words.JsNumber
import B3Chain.Words.Utf8

/-!
# The types of Stratum V2 on the wire

`WriteBuf` and `ReadBuf`: numbers are little-endian, byte strings and lists
have their length in front of them.  A writer cuts numbers to their width and
throws if a byte string is too long; a reader throws if there are too few
bytes.
-/

namespace B3Chain.Sv2

open Words Framing

/-! ## Writing -/

namespace WriteBuf

/-- `u8`. -/
def u8 (v : Int) : Except String (List Byte) :=
  .ok (leBytes 1 (JsNumber.bits v).toNat)

/-- `u16`. -/
def u16 (v : Int) : Except String (List Byte) :=
  .ok (leBytes 2 (JsNumber.bits v).toNat)

/-- `u32`. -/
def u32 (v : Int) : Except String (List Byte) :=
  .ok (leBytes 4 (JsNumber.bits v).toNat)

/-- `u64`. -/
def u64 (v : Nat) : Except String (List Byte) :=
  .ok (leBytes 8 v)

/-- `bool`. -/
def bool (v : Bool) : Except String (List Byte) :=
  u8 (if v then 1 else 0)

/-- `u256`. -/
def u256 (b : List Byte) : Except String (List Byte) :=
  if b.length ≠ 32 then
    .error ("U256 must be 32 bytes, got " ++ toString b.length)
  else .ok b

/-- Bytes with a length of the given width in front of them. -/
def sized (width : Nat) (type : String) (b : List Byte) :
    Except String (List Byte) :=
  if 256 ^ width ≤ b.length then
    .error (type ++ " length " ++ toString b.length ++ " > " ++
      toString (256 ^ width - 1))
  else .ok (leBytes width b.length ++ b)

/-- `b0_255`. -/
def b0_255 (b : List Byte) : Except String (List Byte) :=
  sized 1 "B0_255" b

/-- `b0_64k`. -/
def b0_64k (b : List Byte) : Except String (List Byte) :=
  sized 2 "B0_64K" b

/-- `str0_255`. -/
def str0_255 (s : JsString) : Except String (List Byte) :=
  b0_255 (Utf8.encode s)

/-- A list with a length of the given width in front of it. -/
def listed {Item : Type} (width : Nat) (type : String) (items : List Item)
    (encOne : Item → Except String (List Byte)) : Except String (List Byte) :=
  if 256 ^ width ≤ items.length then
    .error (type ++ " length " ++ toString items.length ++ " > " ++
      toString (256 ^ width - 1))
  else written (.ok (leBytes width items.length) :: items.map encOne)

/-- `seq0_255`. -/
def seq0_255 {Item : Type} (items : List Item)
    (encOne : Item → Except String (List Byte)) : Except String (List Byte) :=
  listed 1 "SEQ0_255" items encOne

end WriteBuf

/-! ## Reading -/

namespace ReadBuf

/-- `u8`. -/
def u8 : Reader Nat := Reader.word 1

/-- `u16`. -/
def u16 : Reader Nat := Reader.word 2

/-- `u32`. -/
def u32 : Reader Nat := Reader.word 4

/-- `u64`. -/
def u64 : Reader Nat := Reader.word 8

/-- `bool`. -/
def bool : Reader Bool := return (← u8) ≠ 0

/-- `bytesRaw`. -/
def bytesRaw (n : Nat) : Reader (List Byte) := Reader.bytes n

/-- `u256`. -/
def u256 : Reader (List Byte) := bytesRaw 32

/-- `b0_255`. -/
def b0_255 : Reader (List Byte) := Reader.counted 1

/-- `b0_64k`. -/
def b0_64k : Reader (List Byte) := Reader.counted 2

/-- `str0_255`. -/
def str0_255 : Reader JsString := do
  match Utf8.decode (← b0_255) with
  | none => throw .malformedText
  | some text => return text

/-- `seq0_255`. -/
def seq0_255 {Item : Type} (decOne : Reader Item) : Reader (List Item) :=
  Reader.sequence 1 decOne

/-- `seq0_64k`. -/
def seq0_64k {Item : Type} (decOne : Reader Item) : Reader (List Item) :=
  Reader.sequence 2 decOne

end ReadBuf

/-! ## What is written -/

theorem sized_eq_ok_iff {width : Nat} {type : String}
    {b output : List Byte} :
    WriteBuf.sized width type b = .ok output ↔
      b.length < 256 ^ width ∧ output = leBytes width b.length ++ b := by
  rw [WriteBuf.sized]
  by_cases long : 256 ^ width ≤ b.length
  · rw [if_pos long]
    exact iff_of_false nofun fun found => by omega
  · rw [if_neg long, Except.ok.injEq]
    exact ⟨fun same => ⟨by omega, same.symm⟩, fun found => found.2.symm⟩

/-! ## What is written and read -/

theorem carries_u32 (v : Int) :
    Carries ReadBuf.u32 (WriteBuf.u32 v) (JsNumber.bits v).toNat := by
  rintro bytes ⟨⟩
  exact reads_word (JsNumber.bits v).isLt

theorem carries_bool (v : Bool) :
    Carries ReadBuf.bool (WriteBuf.bool v) v := by
  rintro bytes ⟨⟩
  cases v with
  | false => exact fun _ _ => rfl
  | true => exact fun _ _ => rfl

theorem carries_u256 (b : List Byte) :
    Carries ReadBuf.u256 (WriteBuf.u256 b) b := by
  intro bytes made
  obtain ⟨size, ⟨⟩⟩ := Machine.check_eq_ok_iff.mp made
  have read := reads_bytes b
  rw [not_not.mp size] at read
  exact read

theorem carries_sized (width : Nat) (type : String) (b : List Byte) :
    Carries (Reader.counted width) (WriteBuf.sized width type b) b := by
  intro bytes made
  obtain ⟨short, rfl⟩ := sized_eq_ok_iff.mp made
  exact reads_bind (reads_word short) (reads_bytes b)

theorem carries_listed {Item : Type} {item : Reader Item}
    {write : Item → Except String (List Byte)}
    (each : ∀ one, Carries item (write one) one) (width : Nat)
    (type : String) (items : List Item) :
    Carries (Reader.sequence width item)
      (WriteBuf.listed width type items write) items := by
  intro bytes made
  obtain ⟨short, made⟩ := Machine.check_eq_ok_iff.mp made
  refine carries_cons ?_ (carries_times each items) bytes made
  rintro front ⟨⟩
  exact reads_word (not_le.mp short)

/-! ## What can be written -/

theorem fits_u32 (v : Int) : Fits 4 (WriteBuf.u32 v) :=
  ⟨_, rfl, (length_leBytes 4 _).le⟩

theorem fits_u64 (v : Nat) : Fits 8 (WriteBuf.u64 v) :=
  ⟨_, rfl, (length_leBytes 8 _).le⟩

theorem fits_sized {width : Nat} {b : List Byte} (type : String)
    (short : b.length < 256 ^ width) :
    Fits (width + 256 ^ width) (WriteBuf.sized width type b) := by
  refine ⟨_, sized_eq_ok_iff.mpr ⟨short, rfl⟩, ?_⟩
  rw [List.length_append, length_leBytes]
  omega

end B3Chain.Sv2
