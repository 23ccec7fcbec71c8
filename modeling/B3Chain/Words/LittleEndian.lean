import B3Chain.Words.Memory

/-!
# Little-endian numbers in byte lists

A number is written as a given count of bytes, lowest first, and read back
from any list of bytes.  Writing keeps the number modulo `256 ^ count`; on
lists of that length the two directions are inverse to each other.
-/

namespace B3Chain.Words

/-- The value of a list of bytes, lowest first. -/
def leValue : List Byte → Nat
  | [] => 0
  | byte :: rest => byte.toNat + 256 * leValue rest

/-- The lowest `count` bytes of a number, lowest first. -/
def leBytes : Nat → Nat → List Byte
  | 0, _ => []
  | count + 1, value => BitVec.ofNat 8 value :: leBytes count (value / 256)

@[simp]
theorem length_leBytes (count value : Nat) :
    (leBytes count value).length = count := by
  induction count generalizing value with
  | zero => rfl
  | succ count induction => rw [leBytes, List.length_cons, induction]

theorem leValue_leBytes (count value : Nat) :
    leValue (leBytes count value) = value % 256 ^ count := by
  induction count generalizing value with
  | zero => simp [leBytes, leValue, Nat.mod_one]
  | succ count induction =>
    rw [leBytes, leValue, induction, BitVec.toNat_ofNat,
      pow_succ' 256, Nat.mod_mul]

theorem leValue_lt (bytes : List Byte) :
    leValue bytes < 256 ^ bytes.length := by
  induction bytes with
  | nil => simp [leValue]
  | cons byte rest induction =>
    have low := byte.isLt
    rw [leValue, List.length_cons, pow_succ']
    omega

theorem leBytes_leValue (bytes : List Byte) :
    leBytes bytes.length (leValue bytes) = bytes := by
  induction bytes with
  | nil => rfl
  | cons byte rest induction =>
    have low : byte.toNat < 256 := byte.isLt
    have quotient : (byte.toNat + 256 * leValue rest) / 256 = leValue rest := by
      omega
    rw [List.length_cons, leBytes, leValue, quotient, induction]
    refine congrArg (· :: rest) (BitVec.eq_of_toNat_eq ?_)
    rw [BitVec.toNat_ofNat]
    omega

theorem leValue_zeros (count : Nat) :
    leValue (List.replicate count 0) = 0 := by
  induction count with
  | zero => rfl
  | succ count induction =>
    rw [List.replicate_succ, leValue, induction]
    rfl

/-- A number that was written is read off the front again. -/
theorem leValue_take_leBytes {count value : Nat} (fits : value < 256 ^ count)
    (rest : List Byte) :
    leValue ((leBytes count value ++ rest).take count) = value := by
  rw [List.take_left' (length_leBytes count value), leValue_leBytes,
    Nat.mod_eq_of_lt fits]

theorem drop_leBytes (count value : Nat) (rest : List Byte) :
    (leBytes count value ++ rest).drop count = rest :=
  List.drop_left' (length_leBytes count value)

/-- A number that was read off the front fits, and its bytes stood there. -/
theorem leBytes_leValue_take {count : Nat} {buf : List Byte}
    (long : count ≤ buf.length) :
    leValue (buf.take count) < 256 ^ count ∧
      leBytes count (leValue (buf.take count)) ++ buf.drop count = buf := by
  have size : (buf.take count).length = count := by simpa using long
  have small := leValue_lt (buf.take count)
  have bytes := leBytes_leValue (buf.take count)
  rw [size] at small bytes
  exact ⟨small, by rw [bytes, List.take_append_drop]⟩

/-- Numbers that fit are told apart by their bytes. -/
theorem leBytes_injective {count left right : Nat}
    (leftFits : left < 256 ^ count) (rightFits : right < 256 ^ count)
    (same : leBytes count left = leBytes count right) : left = right := by
  have values := congrArg leValue same
  rwa [leValue_leBytes, leValue_leBytes, Nat.mod_eq_of_lt leftFits,
    Nat.mod_eq_of_lt rightFits] at values

end B3Chain.Words
