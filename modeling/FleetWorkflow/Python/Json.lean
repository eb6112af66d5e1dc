import FleetWorkflow.Python.Text

/-!
# JSON values

The values that `json.loads` returns and that request bodies and emitted documents are made of.
A floating-point number is kept as the decimal numeral it was written as, so that no rounding
is modelled: nothing here computes with one.
-/

namespace FleetWorkflow.Python

/-- A float as its numeral `±digits · 10^exponent`, or one of the three special values. -/
inductive PyFloat where
  | decimal (negative : Bool) (digits : ℕ) (exponent : ℤ)
  | infinity (negative : Bool)
  | nan
deriving DecidableEq, Repr

/-- `x <= y` on numerals, compared exactly; nothing compares with a NaN. -/
def PyFloat.le : PyFloat → PyFloat → Bool
  | .nan, _ | _, .nan => false
  | .infinity true, _ | _, .infinity false => true
  | .infinity false, _ | _, .infinity true => false
  | .decimal negative digits exponent, .decimal negative' digits' exponent' =>
    let scale := min exponent exponent'
    let value (negative : Bool) (digits : ℕ) (exponent : ℤ) : ℤ :=
      (if negative then -1 else 1) * (digits * 10 ^ (exponent - scale).toNat : ℕ)
    value negative digits exponent ≤ value negative' digits' exponent'

/-- `x == 0`. -/
def PyFloat.isZero : PyFloat → Bool
  | .decimal _ digits _ => digits = 0
  | _ => false

/-- A JSON value; an object keeps the insertion order of its keys. -/
inductive Json where
  | null
  | bool (b : Bool)
  | int (n : ℤ)
  | float (x : PyFloat)
  | str (s : String)
  | arr (items : List Json)
  | obj (fields : List (String × Json))
deriving Repr, Inhabited

namespace Json

/-- `isinstance(value, int | float)`; a Python `bool` is an `int`. -/
def isNumber : Json → Bool
  | bool _ | int _ | float _ => true
  | _ => false

/-- `dict.get(key)` on a decoded object. -/
def get? (fields : List (String × Json)) (key : String) : Option Json :=
  (fields.find? fun field => field.1 = key).map Prod.snd

/-- `dict[key] = value`: an existing key keeps its place. -/
def insert (fields : List (String × Json)) (key : String) (value : Json) : List (String × Json) :=
  if fields.any (fun field => field.1 = key) then
    fields.map fun field => if field.1 = key then (key, value) else field
  else fields ++ [(key, value)]

/-! ## Decoding -/

/-- The whitespace that JSON allows between tokens. -/
def isJsonSpace (c : Char) : Bool := c = ' ' || c = '\t' || c = '\n' || c = '\r'

/-- Drop the whitespace before the next token. -/
def skipSpace (cs : List Char) : List Char := cs.dropWhile isJsonSpace

/-- The value of a hexadecimal digit. -/
def hexDigit? (c : Char) : Option ℕ :=
  if isAsciiDigit c then some (c.toNat - 48)
  else if 'a' ≤ c && c ≤ 'f' then some (c.toNat - 87)
  else if 'A' ≤ c && c ≤ 'F' then some (c.toNat - 55)
  else none

/-- The code unit written by four hexadecimal digits. -/
def unit4? : List Char → Option (ℕ × List Char)
  | a :: b :: c :: d :: rest => do
    let a ← hexDigit? a
    let b ← hexDigit? b
    let c ← hexDigit? c
    let d ← hexDigit? d
    return (((a * 16 + b) * 16 + c) * 16 + d, rest)
  | _ => none

/-- The character of a `\u` escape; a lone surrogate becomes the replacement character. -/
def escapedUnit? (cs : List Char) : Option (Char × List Char) := do
  let (high, rest) ← unit4? cs
  if 0xD800 ≤ high && high ≤ 0xDBFF then
    match rest with
    | '\\' :: 'u' :: more =>
      match unit4? more with
      | some (low, rest') =>
        if 0xDC00 ≤ low && low ≤ 0xDFFF then
          return (Char.ofNat (0x10000 + (high - 0xD800) * 1024 + (low - 0xDC00)), rest')
        else return (Char.ofNat 0xFFFD, rest)
      | none => return (Char.ofNat 0xFFFD, rest)
    | _ => return (Char.ofNat 0xFFFD, rest)
  else if 0xDC00 ≤ high && high ≤ 0xDFFF then return (Char.ofNat 0xFFFD, rest)
  else return (Char.ofNat high, rest)

/-- The character of a one-letter escape. -/
def escapedLetter? : Char → Option Char
  | '"' => some '"'
  | '\\' => some '\\'
  | '/' => some '/'
  | 'b' => some (Char.ofNat 8)
  | 'f' => some (Char.ofNat 12)
  | 'n' => some '\n'
  | 'r' => some '\r'
  | 't' => some '\t'
  | _ => none

/-- The rest of a string literal after its opening quote; control characters are rejected. -/
def scanString : ℕ → List Char → List Char → Option (String × List Char)
  | 0, _, _ => none
  | _ + 1, _, [] => none
  | fuel + 1, acc, c :: rest =>
    if c = '"' then some (String.ofList acc.reverse, rest)
    else if c = '\\' then
      match rest with
      | 'u' :: more =>
        match escapedUnit? more with
        | some (decoded, rest') => scanString fuel (decoded :: acc) rest'
        | none => none
      | letter :: more =>
        match escapedLetter? letter with
        | some decoded => scanString fuel (decoded :: acc) more
        | none => none
      | [] => none
    else if c.toNat < 32 then none
    else scanString fuel (c :: acc) rest

/-- The value of a run of decimal digits. -/
def digitsValue (ds : List Char) : ℕ := ds.foldl (fun n d => n * 10 + (d.toNat - 48)) 0

/-- An optional fraction: its digits and the text after it. -/
def scanFraction : List Char → List Char × List Char
  | '.' :: rest =>
    match rest.takeWhile isAsciiDigit with
    | [] => ([], '.' :: rest)
    | digits => (digits, rest.dropWhile isAsciiDigit)
  | cs => ([], cs)

/-- An optional exponent and the text after it. -/
def scanExponent : List Char → Option ℤ × List Char
  | [] => (none, [])
  | e :: rest =>
    if e = 'e' || e = 'E' then
      let (negative, body) := match rest with
        | '-' :: more => (true, more)
        | '+' :: more => (false, more)
        | more => (false, more)
      match body.takeWhile isAsciiDigit with
      | [] => (none, e :: rest)
      | digits =>
        let value : ℤ := digitsValue digits
        (some (if negative then -value else value), body.dropWhile isAsciiDigit)
    else (none, e :: rest)

/-- Why `json.loads` fails: `JSONDecodeError`, or the `ValueError` of an integer with more digits
than `int` converts. -/
inductive LoadsError where
  | decode
  | intDigits
deriving DecidableEq, Repr

/-- How many digits `int` converts. -/
def maxIntDigits : ℕ := 4300

/-- A number token `-?(0|[1-9][0-9]*)(\.[0-9]+)?([eE][-+]?[0-9]+)?`. -/
def scanNumber (cs : List Char) : Except LoadsError (Json × List Char) :=
  let (negative, body) := match cs with
    | '-' :: more => (true, more)
    | more => (false, more)
  let whole : List Char := match body with
    | '0' :: _ => ['0']
    | more => more.takeWhile isAsciiDigit
  if whole = [] then .error .decode
  else
    let afterWhole := body.drop whole.length
    let (fraction, afterFraction) := scanFraction afterWhole
    let (exponent, rest) := scanExponent afterFraction
    if fraction = [] && exponent = none then
      if maxIntDigits < whole.length then .error .intDigits
      else
        let value : ℤ := digitsValue whole
        .ok (int (if negative then -value else value), rest)
    else
      .ok (float (.decimal negative (digitsValue (whole ++ fraction))
        (exponent.getD 0 - fraction.length)), rest)

/-- The constants of `json.loads`, which include the three non-standard ones. -/
def constants : List (List Char × Json) :=
  [("null".toList, null), ("true".toList, bool true), ("false".toList, bool false),
    ("NaN".toList, float .nan), ("Infinity".toList, float (.infinity false)),
    ("-Infinity".toList, float (.infinity true))]

/-- A constant at the start of the text. -/
def scanConstant (cs : List Char) : Option (Json × List Char) :=
  constants.findSome? fun constant =>
    if constant.1.isPrefixOf cs then some (constant.2, cs.drop constant.1.length) else none

/-- A string token after its opening quote. -/
def scanText (cs : List Char) : Except LoadsError (String × List Char) :=
  match scanString (cs.length + 1) [] cs with
  | some scanned => .ok scanned
  | none => .error .decode

mutual

/-- One value at the start of the text and the text after it. -/
def scanValue : ℕ → List Char → Except LoadsError (Json × List Char)
  | 0, _ => .error .decode
  | fuel + 1, cs =>
    match cs with
    | '"' :: rest => (scanText rest).map fun r => (str r.1, r.2)
    | '{' :: rest =>
      match skipSpace rest with
      | '}' :: more => .ok (obj [], more)
      | body => (scanFields fuel [] body).map fun r => (obj r.1, r.2)
    | '[' :: rest =>
      match skipSpace rest with
      | ']' :: more => .ok (arr [], more)
      | body => (scanItems fuel [] body).map fun r => (arr r.1, r.2)
    | _ =>
      match scanConstant cs with
      | some scanned => .ok scanned
      | none => scanNumber cs

/-- The members of an object after `{`; a repeated key keeps the last value. -/
def scanFields : ℕ → List (String × Json) → List Char →
    Except LoadsError (List (String × Json) × List Char)
  | 0, _, _ => .error .decode
  | fuel + 1, acc, cs =>
    match cs with
    | '"' :: rest => do
      let (key, afterKey) ← scanText rest
      match skipSpace afterKey with
      | ':' :: more =>
        let (value, afterValue) ← scanValue fuel (skipSpace more)
        match skipSpace afterValue with
        | '}' :: rest' => .ok (insert acc key value, rest')
        | ',' :: rest' => scanFields fuel (insert acc key value) (skipSpace rest')
        | _ => .error .decode
      | _ => .error .decode
    | _ => .error .decode

/-- The items of an array after `[`. -/
def scanItems : ℕ → List Json → List Char → Except LoadsError (List Json × List Char)
  | 0, _, _ => .error .decode
  | fuel + 1, acc, cs => do
    let (value, afterValue) ← scanValue fuel cs
    match skipSpace afterValue with
    | ']' :: rest => .ok (acc ++ [value], rest)
    | ',' :: rest => scanItems fuel (acc ++ [value]) (skipSpace rest)
    | _ => .error .decode

end

/-- `json.loads`. -/
def loads (text : String) : Except LoadsError Json := do
  let cs := text.toList
  let (value, rest) ← scanValue (2 * cs.length + 2) (skipSpace cs)
  if skipSpace rest = [] then return value else .error .decode

end Json

end FleetWorkflow.Python

/-!
## Equality of JSON values

Whether two values are the same can be computed.
-/

namespace FleetWorkflow.Python.Json

mutual

/-- Two values are the same. -/
def same : Json → Json → Bool
  | null, null => true
  | bool b, bool b' => b = b'
  | int n, int n' => n = n'
  | float x, float x' => x = x'
  | str s, str s' => s = s'
  | arr items, arr items' => sameItems items items'
  | obj fields, obj fields' => sameFields fields fields'
  | _, _ => false

/-- Two lists hold the same values. -/
def sameItems : List Json → List Json → Bool
  | [], [] => true
  | item :: rest, item' :: rest' => same item item' && sameItems rest rest'
  | _, _ => false

/-- Two objects have the same members in the same order. -/
def sameFields : List (String × Json) → List (String × Json) → Bool
  | [], [] => true
  | (key, value) :: rest, (key', value') :: rest' => key = key' && same value value' && sameFields rest rest'
  | _, _ => false

end

mutual

/-- The comparison finds what is equal. -/
theorem same_iff : ∀ value other : Json, same value other = true ↔ value = other
  | null, other => by cases other <;> simp [same]
  | bool b, other => by cases other <;> simp [same]
  | int n, other => by cases other <;> simp [same]
  | float x, other => by cases other <;> simp [same]
  | str s, other => by cases other <;> simp [same]
  | arr items, other => by
    cases other with
    | arr items' => simp [same, sameItems_iff items items']
    | _ => simp [same]
  | obj fields, other => by
    cases other with
    | obj fields' => simp [same, sameFields_iff fields fields']
    | _ => simp [same]

/-- The comparison of lists finds what is equal. -/
theorem sameItems_iff : ∀ items other : List Json, sameItems items other = true ↔ items = other
  | [], other => by cases other <;> simp [sameItems]
  | item :: rest, other => by
    cases other with
    | nil => simp [sameItems]
    | cons item' rest' => simp [sameItems, same_iff item item', sameItems_iff rest rest']

/-- The comparison of objects finds what is equal. -/
theorem sameFields_iff : ∀ fields other : List (String × Json), sameFields fields other = true ↔ fields = other
  | [], other => by cases other <;> simp [sameFields]
  | (key, value) :: rest, other => by
    match other with
    | [] => simp [sameFields]
    | (key', value') :: rest' => simp [sameFields, same_iff value value', sameFields_iff rest rest', and_assoc]

end

instance : DecidableEq Json := fun value other => decidable_of_iff _ (same_iff value other)

end FleetWorkflow.Python.Json
