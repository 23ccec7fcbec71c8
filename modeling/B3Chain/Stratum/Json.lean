import B3Chain.Words.JsString

/-!
# JSON values as the server sees them

`JSON.parse` gives a value of any JSON type, and the handlers read it with the
property access, the conversions and the destructuring of ECMAScript.  Some of
these throw: reading a property of `null`, destructuring what is not iterable,
and making a string of an object that carries a member `toString` of its own,
which no JSON text can make callable.
-/

namespace B3Chain.Stratum

open Words

/-- What the handlers throw. -/
inductive JsError
  | typeError
  /-- The call stack is exhausted. -/
  | rangeError
  | error (message : JsString)
  /-- `job ${jobId} share difficulty ${d} is below 0.000001`. -/
  | jobDifficulty (jobId : JsString) (d : ℚ)
  deriving DecidableEq

/-- A number of the language. -/
inductive Numeric
  | finite (value : ℚ)
  | infinite (negative : Bool)
  | nan
  deriving DecidableEq

/-- What `JSON.parse` returns. -/
inductive Json
  | null
  | bool (value : Bool)
  | num (value : Numeric)
  | str (text : JsString)
  | arr (items : List Json)
  | obj (members : List (JsString × Json))

/-- The parts of the language the server relies on. -/
structure Runtime where
  parse : JsString → Option Json
  numberText : Numeric → JsString
  textNumber : JsString → Numeric
  toLowerCase : JsString → JsString

namespace Json

/-- The value is `null`. -/
def isNull : Json → Bool
  | .null => true
  | _ => false

/-- `value.name`; of two members with one name the later one counts. -/
def property (value : Json) (name : String) :
    Except JsError (Option Json) :=
  match value with
  | .null => .error .typeError
  | .obj members => .ok (members.reverse.lookup (JsString.ofString name))
  | _ => .ok none

/-- `value[index]` of a value that is neither `null` nor undefined. -/
def element (value : Json) (index : Nat) : Option Json :=
  match value with
  | .arr items => items[index]?
  | .str text => (text[index]?).map fun unit => .str [unit]
  | .obj members =>
    members.reverse.lookup (JsString.ofString (toString index))
  | _ => none

/-- `value ?? fallback`. -/
def orElse : Option Json → Json → Json
  | none, fallback => fallback
  | some .null, fallback => fallback
  | some value, _ => value

/-- The characters of a string; a surrogate pair is one of them. -/
def characters : JsString → List JsString
  | [] => []
  | [unit] => [[unit]]
  | high :: low :: rest =>
    if 0xd800 ≤ high ∧ high ≤ 0xdbff ∧ 0xdc00 ≤ low ∧ low ≤ 0xdfff then
      [high, low] :: characters rest
    else [high] :: characters (low :: rest)

/-- The items array destructuring takes from a value. -/
def iterate : Json → Except JsError (List Json)
  | .arr items => .ok items
  | .str text => .ok ((characters text).map .str)
  | _ => .error .typeError

mutual

/-- `String(value)`. -/
def toText (runtime : Runtime) : Json → Except JsError JsString
  | .null => .ok (JsString.ofString "null")
  | .bool value => .ok (JsString.ofString (if value then "true" else "false"))
  | .num value => .ok (runtime.numberText value)
  | .str text => .ok text
  | .arr items => joinTexts runtime items
  | .obj members =>
    if members.any fun entry => entry.1 = JsString.ofString "toString" then
      .error .typeError
    else .ok (JsString.ofString "[object Object]")

/-- `items.join(",")`; `null` is joined as an empty text. -/
def joinTexts (runtime : Runtime) : List Json → Except JsError JsString
  | [] => .ok []
  | item :: rest => do
      let text ← toText runtime item
      let shown := if item.isNull then [] else text
      match rest with
      | [] => return shown
      | next :: later => do
          let others ← joinTexts runtime (next :: later)
          return shown ++ JsString.ofString "," ++ others

end

/-- `Number(value)`. -/
def toNumber (runtime : Runtime) : Json → Except JsError Numeric
  | .null => .ok (.finite 0)
  | .bool value => .ok (.finite (if value then 1 else 0))
  | .num value => .ok value
  | .str text => .ok (runtime.textNumber text)
  | .arr items => (toText runtime (.arr items)).map runtime.textNumber
  | .obj members => (toText runtime (.obj members)).map runtime.textNumber

end Json

end B3Chain.Stratum
