import Mathlib

/-!
# Integers of ECMAScript

A number of the language that happens to be an integer.  The bit operators
take their operands modulo `2 ^ 32` and give a signed 32-bit result, except
`>>>`, which gives an unsigned one.  A sum is rounded to the nearest double,
which changes nothing up to `2 ^ 53`.
-/

namespace B3Chain.Words.JsNumber

/-- `ToInt32` and `ToUint32`, as the bits they share. -/
def bits (x : Int) : BitVec 32 := BitVec.ofInt 32 x

/-- `x | y`. -/
def bitOr (x y : Int) : Int := (bits x ||| bits y).toInt

/-- `x & y`. -/
def bitAnd (x y : Int) : Int := (bits x &&& bits y).toInt

/-- `x ^ y`. -/
def bitXor (x y : Int) : Int := (bits x ^^^ bits y).toInt

/-- `x << n`. -/
def shl (x : Int) (n : Nat) : Int := (bits x <<< (n % 32)).toInt

/-- `x >>> n`. -/
def ushr (x : Int) (n : Nat) : Int := (bits x >>> (n % 32)).toNat

/-- The byte stored by an assignment to a `Uint8Array`. -/
def toUint8 (x : Int) : BitVec 8 := BitVec.ofInt 8 x

/-- The nearest double, ties to even. -/
def roundDouble (x : Int) : Int :=
  if x.natAbs ≤ 2 ^ 53 then x
  else
    let unit := 2 ^ (x.natAbs.log2 - 52)
    let below := x.natAbs / unit
    let rest := x.natAbs % unit
    let rounded :=
      if 2 * rest < unit ∨ (2 * rest = unit ∧ below % 2 = 0) then below
      else below + 1
    x.sign * (rounded * unit : Nat)

/-- `x + y`. -/
def add (x y : Int) : Int := roundDouble (x + y)

/-! ## Numbers that hold a word -/

@[simp]
theorem bits_natCast (word : BitVec 32) : bits (word.toNat : Int) = word := by
  rw [bits, BitVec.ofInt_natCast, BitVec.ofNat_toNat, BitVec.setWidth_eq]

@[simp]
theorem bits_toInt (word : BitVec 32) : bits word.toInt = word :=
  BitVec.ofInt_toInt

@[simp]
theorem bits_byte (byte : BitVec 8) :
    bits (byte.toNat : Int) = byte.setWidth 32 := by
  rw [bits, BitVec.ofInt_natCast, BitVec.ofNat_toNat]

theorem ushr_zero (x : Int) : ushr x 0 = (bits x).toNat := by
  simp [ushr]

/-- The sum of two words is exact. -/
theorem ushr_add (left right : BitVec 32) :
    ushr (add left.toNat right.toNat) 0 = (left + right).toNat := by
  have exact : add left.toNat right.toNat = left.toNat + right.toNat := by
    rw [add, roundDouble, if_pos]
    have := left.isLt
    have := right.isLt
    omega
  rw [exact, ushr_zero, bits, ← Int.natCast_add, BitVec.ofInt_natCast,
    BitVec.ofNat_add, BitVec.ofNat_toNat, BitVec.ofNat_toNat,
    BitVec.setWidth_eq, BitVec.setWidth_eq]

/-- Storing a bit operation's result keeps its lowest byte. -/
theorem toUint8_toInt (word : BitVec 32) :
    toUint8 word.toInt = word.setWidth 8 := by
  apply BitVec.eq_of_toNat_eq
  rw [toUint8, BitVec.toNat_ofInt, BitVec.toNat_setWidth,
    BitVec.toInt_eq_toNat_cond]
  split <;> omega

/-- One byte of a word, cut out with a shift and a mask. -/
theorem toUint8_bitAnd (word : BitVec 32) {place : Nat}
    (inside : place < 32) :
    toUint8 (bitAnd (ushr word.toNat place) 0xff) =
      word.extractLsb' place 8 := by
  rw [bitAnd, toUint8_toInt, ushr, bits_natCast, bits_natCast,
    Nat.mod_eq_of_lt inside]
  apply BitVec.eq_of_getLsbD_eq
  intro bit low
  have mask : (bits 0xff).getLsbD bit = true := by
    interval_cases bit <;> decide
  simp [mask, low]

end B3Chain.Words.JsNumber
