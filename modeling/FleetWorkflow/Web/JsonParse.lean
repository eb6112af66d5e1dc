import FleetWorkflow.Python.JsonText
import FleetWorkflow.Web.JsValue

/-!
# JSON.parse

The texts of the JSON grammar and their values. Every value that the encoder of the API writes is read
back as the value that is meant by it: a text unit by unit, a number as the double nearest to it, an
object with its members in order.
-/

namespace FleetWorkflow.Web

open Python

/-- The unit of a one-letter escape. -/
def escapedUnit? (letter : Char) : Option ℕ := (Json.escapedLetter? letter).map Char.toNat

/-- The rest of a string literal after its opening quote. -/
def scanString : ℕ → List ℕ → List Char → Option (List ℕ × List Char)
  | 0, _, _ => none
  | _ + 1, _, [] => none
  | fuel + 1, units, c :: rest =>
    if c = '"' then some (units, rest)
    else if c = '\\' then
      match rest with
      | 'u' :: more =>
        match Json.unit4? more with
        | some (unit, rest') => scanString fuel (units ++ [unit]) rest'
        | none => none
      | letter :: more =>
        match escapedUnit? letter with
        | some unit => scanString fuel (units ++ [unit]) more
        | none => none
      | [] => none
    else if c.toNat < 32 then none
    else scanString fuel (units ++ utf16Char c) rest

/-- A string token after its opening quote. -/
def scanText (cs : List Char) : Option (List ℕ × List Char) := scanString (cs.length + 1) [] cs

/-- The digits of a number before its point: a zero stands alone. -/
def wholePart : List Char → List Char
  | '0' :: _ => ['0']
  | body => body.takeWhile isAsciiDigit

/-- A number token after its sign. -/
def scanMagnitude (negative : Bool) (body : List Char) : Option (JsValue × List Char) :=
  let whole := wholePart body
  if whole = [] then none
  else
    let fraction := Json.scanFraction (body.drop whole.length)
    let exponent := Json.scanExponent fraction.2
    some (.number (numberOf negative (Json.digitsValue (whole ++ fraction.1))
      (exponent.1.getD 0 - fraction.1.length)), exponent.2)

/-- A number token. -/
def scanNumber : List Char → Option (JsValue × List Char)
  | '-' :: body => scanMagnitude true body
  | body => scanMagnitude false body

/-- Create a property, or overwrite the one of the same name. -/
def defineProperty (fields : List (List ℕ × JsValue)) (key : List ℕ) (value : JsValue) : List (List ℕ × JsValue) :=
  if fields.any (fun field => field.1 = key) then
    fields.map fun field => if field.1 = key then (key, value) else field
  else fields ++ [(key, value)]

mutual

/-- One value at the start of the text and the text after it. -/
def scanValue : ℕ → List Char → Option (JsValue × List Char)
  | 0, _ => none
  | fuel + 1, cs =>
    match cs with
    | '"' :: rest => (scanText rest).map fun r => (.string r.1, r.2)
    | '\x7b' :: rest =>
      match Json.skipSpace rest with
      | '\x7d' :: more => some (.object [], more)
      | body => (scanFields fuel [] body).map fun r => (.object r.1, r.2)
    | '[' :: rest =>
      match Json.skipSpace rest with
      | ']' :: more => some (.array [], more)
      | body => (scanItems fuel [] body).map fun r => (.array r.1, r.2)
    | 'n' :: 'u' :: 'l' :: 'l' :: rest => some (.null, rest)
    | 't' :: 'r' :: 'u' :: 'e' :: rest => some (.bool true, rest)
    | 'f' :: 'a' :: 'l' :: 's' :: 'e' :: rest => some (.bool false, rest)
    | _ => scanNumber cs

/-- The members of an object. -/
def scanFields : ℕ → List (List ℕ × JsValue) → List Char → Option (List (List ℕ × JsValue) × List Char)
  | 0, _, _ => none
  | fuel + 1, fields, cs =>
    match cs with
    | '"' :: rest => do
      let (key, afterKey) ← scanText rest
      match Json.skipSpace afterKey with
      | ':' :: more =>
        let (value, afterValue) ← scanValue fuel (Json.skipSpace more)
        match Json.skipSpace afterValue with
        | '\x7d' :: rest' => some (defineProperty fields key value, rest')
        | ',' :: rest' => scanFields fuel (defineProperty fields key value) (Json.skipSpace rest')
        | _ => none
      | _ => none
    | _ => none

/-- The items of an array. -/
def scanItems : ℕ → List JsValue → List Char → Option (List JsValue × List Char)
  | 0, _, _ => none
  | fuel + 1, items, cs => do
    let (value, afterValue) ← scanValue fuel cs
    match Json.skipSpace afterValue with
    | ']' :: rest => some (items ++ [value], rest)
    | ',' :: rest => scanItems fuel (items ++ [value]) (Json.skipSpace rest)
    | _ => none

end

/-- `JSON.parse(text)`; a text that is not JSON is a `SyntaxError`. -/
def jsonParse (text : List Char) : Option JsValue := do
  let (value, rest) ← scanValue (text.length + 1) (Json.skipSpace text)
  if Json.skipSpace rest = [] then some value else none

/-! ## Texts -/

/-- A one-letter escape. -/
theorem scanString_letter {letter c : Char} (hletter : escapedUnit? letter = some c.toNat) (hc : c.toNat < 0x10000)
    (fuel : ℕ) (units : List ℕ) (rest : List Char) :
    scanString (fuel + (utf16Char c).length) units (['\\', letter] ++ rest) =
      scanString fuel (units ++ utf16Char c) rest := by
  have hu : letter ≠ 'u' := by
    rintro rfl
    cases hletter
  rw [utf16Char, if_pos hc, List.length_singleton, List.cons_append, scanString.eq_def]
  simp only [List.cons_append, List.nil_append]
  rw [if_neg (by decide), if_pos trivial, hletter]

/-- A `\u` escape. -/
theorem scanString_unit {n : ℕ} (hn : n < 0x10000) (fuel : ℕ) (units : List ℕ) (rest : List Char) :
    scanString (fuel + 1) units ('\\' :: 'u' :: (hex4 n ++ rest)) = scanString fuel (units ++ [n]) rest := by
  rw [scanString.eq_def]
  simp [unit4?_hex4 hn]

/-- An escaped character is read as its units. -/
theorem scanString_escapeChar (c : Char) (fuel : ℕ) (units : List ℕ) (rest : List Char) :
    scanString (fuel + (utf16Char c).length) units (escapeChar c ++ rest) =
      scanString fuel (units ++ utf16Char c) rest := by
  have hrange := toNat_not_surrogate c
  have hcode : ∀ n, c.toNat = n → c = Char.ofNat n := by
    rintro n rfl
    exact (Char.ofNat_toNat c).symm
  rw [escapeChar]
  split
  · subst_vars
    exact scanString_letter rfl (by decide) fuel units rest
  split
  · subst_vars
    exact scanString_letter rfl (by decide) fuel units rest
  split
  · subst_vars
    exact scanString_letter rfl (by decide) fuel units rest
  split
  · subst_vars
    exact scanString_letter rfl (by decide) fuel units rest
  split
  · subst_vars
    exact scanString_letter rfl (by decide) fuel units rest
  split
  · rename_i h
    obtain rfl := hcode _ h
    exact scanString_letter rfl (by decide) fuel units rest
  split
  · rename_i h
    obtain rfl := hcode _ h
    exact scanString_letter rfl (by decide) fuel units rest
  split
  · rename_i hquote hslash _ _ _ _ _ hprintable
    rw [Bool.and_eq_true, decide_eq_true_eq, decide_eq_true_eq] at hprintable
    have hunit : utf16Char c = [c.toNat] := if_pos (by omega)
    rw [hunit, List.length_singleton, List.singleton_append, scanString.eq_def]
    simp only [if_neg hquote, if_neg hslash, if_neg (Nat.not_lt.mpr hprintable.1), hunit]
  split
  · rename_i hbasic
    rw [utf16Char, if_pos hbasic]
    exact scanString_unit hbasic fuel units rest
  · rename_i hbasic
    have hhigh : 0xD800 + (c.toNat - 0x10000) / 1024 < 0x10000 := by omega
    have hlow : 0xDC00 + (c.toNat - 0x10000) % 1024 < 0x10000 := by omega
    rw [utf16Char, if_neg hbasic]
    simp only [List.append_assoc, List.cons_append, List.nil_append, List.length_cons, List.length_nil]
    rw [scanString_unit hhigh, scanString_unit hlow, List.append_assoc, List.singleton_append]

/-- A character has no more units than its escaped form has characters. -/
theorem length_utf16Char_le (c : Char) : (utf16Char c).length ≤ (escapeChar c).length := by
  have hpos := List.length_pos_iff.mpr (escapeChar_ne_nil c)
  rw [utf16Char]
  split
  · rw [List.length_singleton]
    omega
  · rename_i hbasic
    have hprintable : ¬ (32 ≤ c.toNat && c.toNat ≤ 126) = true := by
      rw [Bool.and_eq_true, decide_eq_true_eq, decide_eq_true_eq]
      omega
    rw [escapeChar]
    simp only [if_neg hprintable]
    repeat' split
    all_goals simp

/-- A literal's characters are read up to its closing quote. -/
theorem scanString_escaped (cs : List Char) {fuel : ℕ} (h : (utf16 cs).length < fuel) (units : List ℕ)
    (rest : List Char) :
    scanString fuel units (cs.flatMap escapeChar ++ '"' :: rest) = some (units ++ utf16 cs, rest) := by
  induction cs generalizing fuel units with
  | nil =>
    obtain ⟨fuel, rfl⟩ := Nat.exists_eq_add_of_lt h
    simp [scanString, utf16]
  | cons c cs ih =>
    rw [utf16, List.flatMap_cons, List.length_append] at h
    obtain ⟨less, rfl⟩ : ∃ less, fuel = less + (utf16Char c).length := ⟨fuel - (utf16Char c).length, by omega⟩
    have hless : (utf16 cs).length < less := by
      rw [utf16]
      omega
    rw [List.flatMap_cons, List.append_assoc, scanString_escapeChar, ih hless, List.append_assoc, utf16, utf16,
      List.flatMap_cons]

/-- An encoded text is read after its opening quote. -/
theorem scanText_escaped (text : List Char) (rest : List Char) :
    scanText (text.flatMap escapeChar ++ '"' :: rest) = some (utf16 text, rest) := by
  have hlength : ∀ cs : List Char, (utf16 cs).length ≤ (cs.flatMap escapeChar).length := by
    intro cs
    induction cs with
    | nil => exact Nat.le_refl 0
    | cons c cs ih =>
      have hc := length_utf16Char_le c
      rw [utf16] at ih ⊢
      rw [List.flatMap_cons, List.flatMap_cons, List.length_append, List.length_append]
      omega
  have hfuel := hlength text
  rw [scanText, scanString_escaped text (by rw [List.length_append]; omega), List.nil_append]

end FleetWorkflow.Web
