import B3Chain.Words.JsString

/-!
# UTF-8 text

A string of 16-bit code units is written as UTF-8 by `TextEncoder`, which puts
U+FFFD for a surrogate that stands alone, and read back by a `TextDecoder` that
refuses everything that is not UTF-8 and drops a byte order mark.
-/

namespace B3Chain.Words

namespace Utf8

/-- The scalar value of a pair of surrogates. -/
def pairScalar (high low : UInt16) : Nat :=
  0x10000 + (high.toNat - 0xd800) * 0x400 + (low.toNat - 0xdc00)

/-- The first half of a pair. -/
def isHigh (unit : UInt16) : Bool :=
  0xd800 ≤ unit ∧ unit ≤ 0xdbff

/-- The second half of a pair. -/
def isLow (unit : UInt16) : Bool :=
  0xdc00 ≤ unit ∧ unit ≤ 0xdfff

/-- The scalar values of a string. -/
def scalars : JsString → List Nat
  | [] => []
  | [unit] => [if isHigh unit ∨ isLow unit then 0xfffd else unit.toNat]
  | unit :: next :: rest =>
    if isHigh unit then
      if isLow next then pairScalar unit next :: scalars rest
      else 0xfffd :: scalars (next :: rest)
    else if isLow unit then 0xfffd :: scalars (next :: rest)
    else unit.toNat :: scalars (next :: rest)

/-- The code units of a scalar value. -/
def units (scalar : Nat) : JsString :=
  if scalar < 0x10000 then [UInt16.ofNat scalar]
  else
    [UInt16.ofNat (0xd800 + (scalar - 0x10000) / 0x400),
      UInt16.ofNat (0xdc00 + (scalar - 0x10000) % 0x400)]

/-- The bytes of a scalar value. -/
def scalarBytes (scalar : Nat) : List Byte :=
  if scalar < 0x80 then [BitVec.ofNat 8 scalar]
  else if scalar < 0x800 then
    [BitVec.ofNat 8 (0xc0 + scalar / 0x40),
      BitVec.ofNat 8 (0x80 + scalar % 0x40)]
  else if scalar < 0x10000 then
    [BitVec.ofNat 8 (0xe0 + scalar / 0x1000),
      BitVec.ofNat 8 (0x80 + scalar / 0x40 % 0x40),
      BitVec.ofNat 8 (0x80 + scalar % 0x40)]
  else
    [BitVec.ofNat 8 (0xf0 + scalar / 0x40000),
      BitVec.ofNat 8 (0x80 + scalar / 0x1000 % 0x40),
      BitVec.ofNat 8 (0x80 + scalar / 0x40 % 0x40),
      BitVec.ofNat 8 (0x80 + scalar % 0x40)]

/-- `new TextEncoder().encode(text)`. -/
def encode (text : JsString) : List Byte :=
  (scalars text).flatMap scalarBytes

/-- A byte after the first one of a character. -/
def isTail (byte : Byte) : Bool :=
  0x80 ≤ byte.toNat ∧ byte.toNat ≤ 0xbf

/-- The second byte of a character of three bytes. -/
def isSecondOfThree (first second : Byte) : Bool :=
  isTail second ∧ (first.toNat = 0xe0 → 0xa0 ≤ second.toNat) ∧
    (first.toNat = 0xed → second.toNat ≤ 0x9f)

/-- The second byte of a character of four bytes. -/
def isSecondOfFour (first second : Byte) : Bool :=
  isTail second ∧ (first.toNat = 0xf0 → 0x90 ≤ second.toNat) ∧
    (first.toNat = 0xf4 → second.toNat ≤ 0x8f)

/-- The six bits of a byte after the first one. -/
def low (byte : Byte) : Nat :=
  byte.toNat % 0x40

/-- The scalar values written as these bytes. -/
def readScalars : List Byte → Option (List Nat)
  | [] => some []
  | first :: rest =>
    if first.toNat < 0x80 then
      (readScalars rest).map (first.toNat :: ·)
    else if 0xc2 ≤ first.toNat ∧ first.toNat ≤ 0xdf then
      match rest with
      | second :: rest =>
        if isTail second then
          (readScalars rest).map
            (((first.toNat - 0xc0) * 0x40 + low second) :: ·)
        else none
      | _ => none
    else if 0xe0 ≤ first.toNat ∧ first.toNat ≤ 0xef then
      match rest with
      | second :: third :: rest =>
        if isSecondOfThree first second ∧ isTail third then
          (readScalars rest).map
            (((first.toNat - 0xe0) * 0x1000 + low second * 0x40 +
              low third) :: ·)
        else none
      | _ => none
    else if 0xf0 ≤ first.toNat ∧ first.toNat ≤ 0xf4 then
      match rest with
      | second :: third :: fourth :: rest =>
        if isSecondOfFour first second ∧ isTail third ∧
            isTail fourth then
          (readScalars rest).map
            (((first.toNat - 0xf0) * 0x40000 + low second * 0x1000 +
              low third * 0x40 + low fourth) :: ·)
        else none
      | _ => none
    else none

/-- The scalar values without a byte order mark in front of them. -/
def withoutMark : List Nat → List Nat
  | 0xfeff :: rest => rest
  | scalars => scalars

/-- `new TextDecoder("utf-8", fatal).decode(bytes)`; `none` is an error. -/
def decode (bytes : List Byte) : Option JsString :=
  (readScalars bytes).map fun scalars => (withoutMark scalars).flatMap units

end Utf8

end B3Chain.Words
