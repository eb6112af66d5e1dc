import Mathlib.Data.Int.Log
import Mathlib.Data.Rat.Floor
import FleetWorkflow.Python.Json

/-!
# Values of JavaScript

What `JSON.parse` returns. A string is its UTF-16 code units and a number is a double: a numeral is
rounded to the nearest one, ties to even. A value of Python is meant by the JavaScript value with the
same texts, numbers, items and members.
-/

namespace FleetWorkflow.Web

open Python

/-- A number, which is a double. -/
inductive JsNumber where
  | finite (value : ℚ)
  | negativeZero
  | infinity (negative : Bool)
  | nan
deriving DecidableEq

/-- A value; the members of an object are kept in the order of their insertion. -/
inductive JsValue where
  | null
  | bool (b : Bool)
  | number (x : JsNumber)
  | string (units : List ℕ)
  | array (items : List JsValue)
  | object (fields : List (List ℕ × JsValue))

/-- The nearest integer, ties to even. -/
def roundHalfEven (q : ℚ) : ℤ :=
  if q - ⌊q⌋ < 1 / 2 then ⌊q⌋
  else if 1 / 2 < q - ⌊q⌋ then ⌊q⌋ + 1
  else if ⌊q⌋ % 2 = 0 then ⌊q⌋ else ⌊q⌋ + 1

/-- The exponent of the last place of the double nearest to a positive magnitude. -/
def lastPlace (magnitude : ℚ) : ℤ := max (Int.log 2 magnitude - 52) (-1074)

/-- The double nearest to a number that is given by its sign and magnitude. -/
def nearestDouble (negative : Bool) (magnitude : ℚ) : JsNumber :=
  let rounded := if magnitude = 0 then 0
    else roundHalfEven (magnitude / 2 ^ lastPlace magnitude) * (2 : ℚ) ^ lastPlace magnitude
  if rounded = 0 then (if negative then .negativeZero else .finite 0)
  else if (2 : ℚ) ^ 1024 ≤ rounded then .infinity negative
  else .finite (if negative then -rounded else rounded)

/-- The number of a numeral `±digits · 10^exponent`. -/
def numberOf (negative : Bool) (digits : ℕ) (exponent : ℤ) : JsNumber :=
  nearestDouble negative (digits * (10 : ℚ) ^ exponent)

/-- The code units of a character. -/
def utf16Char (c : Char) : List ℕ :=
  if c.toNat < 0x10000 then [c.toNat]
  else [0xD800 + (c.toNat - 0x10000) / 1024, 0xDC00 + (c.toNat - 0x10000) % 1024]

/-- The code units of a text. -/
def utf16 (text : List Char) : List ℕ := text.flatMap utf16Char

/-- The number that a float is. -/
def floatNumber : PyFloat → JsNumber
  | .decimal negative digits exponent => numberOf negative digits exponent
  | .infinity negative => .infinity negative
  | .nan => .nan

mutual

/-- The value that a value of Python is. -/
def ofPython : Json → JsValue
  | .null => .null
  | .bool b => .bool b
  | .int n => .number (numberOf (n < 0) n.natAbs 0)
  | .float x => .number (floatNumber x)
  | .str s => .string (utf16 s.toList)
  | .arr items => .array (ofItems items)
  | .obj fields => .object (ofFields fields)

/-- The items of a list. -/
def ofItems : List Json → List JsValue
  | [] => []
  | item :: rest => ofPython item :: ofItems rest

/-- The members of a dictionary. -/
def ofFields : List (String × Json) → List (List ℕ × JsValue)
  | [] => []
  | (key, value) :: rest => (utf16 key.toList, ofPython value) :: ofFields rest

end

end FleetWorkflow.Web
