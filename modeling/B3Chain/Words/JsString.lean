import B3Chain.Words.JsNumber
import B3Chain.Words.Memory

/-!
# Strings of ECMAScript and hexadecimal text

A string is a list of 16-bit code units.  `parseInt` with radix 16 skips
leading white space, takes a sign and a `0x`, and reads as many hexadecimal
digits as there are; the number it gives is rounded to a double.  Bytes are
read from pairs of code units with it, so text that is not hexadecimal still
gives bytes.
-/

namespace B3Chain.Words

/-- A string as its code units. -/
abbrev JsString := List UInt16

namespace JsString

/-- The code units of a text of the basic plane. -/
def ofString (text : String) : JsString :=
  text.toList.map fun letter => letter.val.toUInt16

/-- The value of a hexadecimal digit of either case. -/
def hexDigit (unit : UInt16) : Option Nat :=
  if 48 ≤ unit ∧ unit ≤ 57 then some (unit.toNat - 48)
  else if 97 ≤ unit ∧ unit ≤ 102 then some (unit.toNat - 87)
  else if 65 ≤ unit ∧ unit ≤ 70 then some (unit.toNat - 55)
  else none

/-- White space and line ends, which `parseInt` skips. -/
def isWhite (unit : UInt16) : Bool :=
  (9 ≤ unit ∧ unit ≤ 13) ∨ unit = 32 ∨ unit = 160 ∨ unit = 0x1680 ∨
    (0x2000 ≤ unit ∧ unit ≤ 0x200a) ∨ unit = 0x2028 ∨ unit = 0x2029 ∨
      unit = 0x202f ∨ unit = 0x205f ∨ unit = 0x3000 ∨ unit = 0xfeff

/-- `text.trim()`. -/
def trim (text : JsString) : JsString :=
  ((text.dropWhile isWhite).reverse.dropWhile isWhite).reverse

/-- The value of the digits at the front, highest first. -/
def readDigits : Nat → JsString → Nat
  | value, [] => value
  | value, unit :: rest =>
    match hexDigit unit with
    | none => value
    | some digit => readDigits (16 * value + digit) rest

/-- The magnitude `parseInt` reads once the sign is taken. -/
def readMagnitude (text : JsString) : Option Nat :=
  let digits :=
    match text with
    | 48 :: 120 :: rest => rest
    | 48 :: 88 :: rest => rest
    | _ => text
  match digits with
  | [] => none
  | unit :: _ => (hexDigit unit).map fun _ => readDigits 0 digits

/-- The integer `parseInt(text, 16)` reads; `none` is `NaN`. -/
def readInteger (text : JsString) : Option Int :=
  match text.dropWhile isWhite with
  | 45 :: rest => (readMagnitude rest).map fun value => -(value : Int)
  | 43 :: rest => (readMagnitude rest).map fun value => (value : Int)
  | rest => (readMagnitude rest).map fun value => (value : Int)

/-- The least magnitude that rounds to infinity. -/
def overflowBound : Nat := 2 ^ 1024 - 2 ^ 970

/-- `parseInt(text, 16)` if it is finite. -/
def parseInt (text : JsString) : Option Int :=
  (readInteger text).bind fun value =>
    if value.natAbs < overflowBound then some (JsNumber.roundDouble value)
    else none

/-! ## Bytes -/

/-- The byte stored for a pair of code units; `NaN` is stored as zero. -/
def pairByte (high low : UInt16) : Byte :=
  match parseInt [high, low] with
  | none => 0
  | some value => JsNumber.toUint8 value

/-- The bytes of consecutive pairs. -/
def pairBytes : JsString → List Byte
  | high :: low :: rest => pairByte high low :: pairBytes rest
  | _ => []

/-- The text without a leading `0x`. -/
def cleanHex : JsString → JsString
  | 48 :: 120 :: rest => rest
  | text => text

/-- `hexToBytes`. -/
def hexToBytes (hex : JsString) : Except String (List Byte) :=
  if (cleanHex hex).length % 2 ≠ 0 then .error "odd-length hex"
  else .ok (pairBytes (cleanHex hex))

/-- A hexadecimal digit of lower case. -/
def digitUnit (digit : Nat) : UInt16 :=
  if digit < 10 then UInt16.ofNat (48 + digit) else UInt16.ofNat (87 + digit)

/-- `bytesToHex`: two digits a byte. -/
def bytesToHex (bytes : List Byte) : JsString :=
  bytes.flatMap fun byte =>
    [digitUnit (byte.toNat / 16), digitUnit (byte.toNat % 16)]

/-! ## Text of bytes -/

theorem pairByte_digits (byte : Byte) :
    pairByte (digitUnit (byte.toNat / 16)) (digitUnit (byte.toNat % 16)) =
      byte := by
  revert byte
  decide +kernel

theorem digitUnit_ne_x (byte : Byte) :
    digitUnit (byte.toNat % 16) ≠ 120 := by
  revert byte
  decide +kernel

theorem pairBytes_bytesToHex (bytes : List Byte) :
    pairBytes (bytesToHex bytes) = bytes := by
  induction bytes with
  | nil => rfl
  | cons byte rest induction =>
    rw [bytesToHex, List.flatMap_cons, List.cons_append, List.cons_append,
      List.nil_append, pairBytes, pairByte_digits]
    exact congrArg _ induction

theorem cleanHex_bytesToHex (bytes : List Byte) :
    cleanHex (bytesToHex bytes) = bytesToHex bytes := by
  cases bytes with
  | nil => rfl
  | cons byte rest =>
    rw [bytesToHex, List.flatMap_cons, List.cons_append, List.cons_append]
    unfold cleanHex
    split
    · next marked =>
        rw [List.cons.injEq, List.cons.injEq] at marked
        exact absurd marked.2.1 (digitUnit_ne_x byte)
    · rfl

theorem length_bytesToHex (bytes : List Byte) :
    (bytesToHex bytes).length = 2 * bytes.length := by
  induction bytes with
  | nil => rfl
  | cons byte rest induction =>
    rw [bytesToHex, List.flatMap_cons, List.length_append]
    change 2 + (bytesToHex rest).length = _
    rw [induction, List.length_cons]
    omega

/-- The text of bytes reads back as these bytes. -/
theorem hexToBytes_bytesToHex (bytes : List Byte) :
    hexToBytes (bytesToHex bytes) = .ok bytes := by
  rw [hexToBytes, cleanHex_bytesToHex, length_bytesToHex, if_neg (by omega),
    pairBytes_bytesToHex]

end JsString

end B3Chain.Words
