import B3Chain.Words.Memory

/-!
# JSON texts

A JSON text as a tree that keeps everything the grammar leaves open: white
space, the spelling of strings and numbers, the order of members.  Every tree
has a text, and every JSON text is the text of a tree, so a property of all
JSON texts is one of all trees.
-/

namespace B3Chain.Framing

open Words

/-- The quotation mark. -/
def quote : Byte := 34

/-- The backslash. -/
def backslash : Byte := 92

/-- White space. -/
structure Blank where
  text : List Byte
  legal : ∀ byte ∈ text, byte = 9 ∨ byte = 10 ∨ byte = 13 ∨ byte = 32

/-- A character of a string as it is spelled.  Beyond ASCII a character is
spelled as several bytes. -/
inductive Letter
  | plain (byte : Byte)
      (legal : 32 ≤ byte.toNat ∧ byte ≠ quote ∧ byte ≠ backslash)
  | escape (sign : Byte) (stands : Byte)
      (legal : (sign, stands) ∈
        ([(34, 34), (92, 92), (47, 47), (98, 8), (102, 12), (110, 10),
          (114, 13), (116, 9)] : List (Byte × Byte)))
  | unicode (digits : Fin 4 → Fin 16) (capital : Fin 4 → Bool)

/-- A hexadecimal digit of either case. -/
def hexByte (digit : Fin 16) (capital : Bool) : Byte :=
  if digit.val < 10 then BitVec.ofNat 8 (48 + digit.val)
  else if capital then BitVec.ofNat 8 (55 + digit.val)
  else BitVec.ofNat 8 (87 + digit.val)

/-- The bytes of a character. -/
def Letter.text : Letter → List Byte
  | .plain byte _ => [byte]
  | .escape sign _ _ => [backslash, sign]
  | .unicode digits capital =>
    backslash :: 117 ::
      List.ofFn fun place => hexByte (digits place) (capital place)

/-- What a character stands for: a byte of the string, or a code unit beyond
ASCII. -/
def Letter.stands : Letter → Byte ⊕ Nat
  | .plain byte _ => .inl byte
  | .escape _ stands _ => .inl stands
  | .unicode digits _ =>
    let unit := 4096 * (digits 0).val + 256 * (digits 1).val +
      16 * (digits 2).val + (digits 3).val
    if unit < 128 then .inl (BitVec.ofNat 8 unit) else .inr unit

/-- The bytes between the quotation marks. -/
def lettersText (letters : List Letter) : List Byte :=
  letters.flatMap Letter.text

/-- The string these characters spell is this text. -/
def Spells (letters : List Letter) (text : List Byte) : Prop :=
  letters.map Letter.stands = text.map .inl

/-- The text in quotation marks. -/
def quoted (text : List Byte) : List Byte :=
  quote :: text ++ [quote]

/-- A number as it is spelled: sign, digits without leading zeros, fraction and
exponent. -/
structure NumberText where
  negative : Bool
  first : Fin 10
  whole : List (Fin 10)
  legal : first = 0 → whole = []
  fraction : List (Fin 10)
  exponent : Option (Bool × Option Bool × Fin 10 × List (Fin 10))

/-- A decimal digit. -/
def digitByte (digit : Fin 10) : Byte :=
  BitVec.ofNat 8 (48 + digit.val)

/-- The bytes of an exponent. -/
def exponentText : Bool × Option Bool × Fin 10 × List (Fin 10) → List Byte
  | (capital, sign, first, rest) =>
    let letter : Byte := if capital then 69 else 101
    let signs : List Byte :=
      match sign with
      | none => []
      | some true => [45]
      | some false => [43]
    letter :: signs ++ (first :: rest).map digitByte

/-- The bytes of a number. -/
def NumberText.text (number : NumberText) : List Byte :=
  (if number.negative then [45] else []) ++
    (number.first :: number.whole).map digitByte ++
    (if number.fraction = [] then []
      else 46 :: number.fraction.map digitByte) ++
    (number.exponent.map exponentText).getD []

/-- A value in an array, with the white space around it. -/
structure Item (Value : Type) where
  lead : Blank
  value : Value
  trail : Blank

/-- A member of an object, with the white space around its parts. -/
structure Member (Value : Type) where
  lead : Blank
  name : List Letter
  beforeColon : Blank
  afterColon : Blank
  value : Value
  trail : Blank

/-- A value.  The white space `inner` counts if there are no items or
members. -/
inductive Node
  | null
  | bool (value : Bool)
  | number (digits : NumberText)
  | string (letters : List Letter)
  | array (inner : Blank) (items : List (Item Node))
  | object (inner : Blank) (members : List (Member Node))

/-- The texts with commas between them, or the white space if there are
none. -/
def separated (inner : Blank) : List (List Byte) → List Byte
  | [] => inner.text
  | first :: rest => first ++ rest.flatMap fun text => 44 :: text

mutual

/-- The bytes of a value. -/
def Node.text : Node → List Byte
  | .null => [110, 117, 108, 108]
  | .bool true => [116, 114, 117, 101]
  | .bool false => [102, 97, 108, 115, 101]
  | .number digits => digits.text
  | .string letters => quoted (lettersText letters)
  | .array inner items => 91 :: separated inner (itemTexts items) ++ [93]
  | .object inner members =>
    123 :: separated inner (memberTexts members) ++ [125]

/-- The bytes of each item. -/
def itemTexts : List (Item Node) → List (List Byte)
  | [] => []
  | item :: rest => item.text :: itemTexts rest

/-- The bytes of an item. -/
def Item.text : Item Node → List Byte
  | ⟨lead, value, trail⟩ => lead.text ++ value.text ++ trail.text

/-- The bytes of each member. -/
def memberTexts : List (Member Node) → List (List Byte)
  | [] => []
  | member :: rest => member.text :: memberTexts rest

/-- The bytes of a member. -/
def Member.text : Member Node → List Byte
  | ⟨lead, name, beforeColon, afterColon, value, trail⟩ =>
    lead.text ++ quoted (lettersText name) ++ beforeColon.text ++
      58 :: afterColon.text ++ value.text ++ trail.text

end

/-- An object as a whole text. -/
structure ObjectText where
  lead : Blank
  inner : Blank
  members : List (Member Node)
  trail : Blank

/-- The bytes of an object text. -/
def ObjectText.text (document : ObjectText) : List Byte :=
  document.lead.text ++ (Node.object document.inner document.members).text ++
    document.trail.text

end B3Chain.Framing
