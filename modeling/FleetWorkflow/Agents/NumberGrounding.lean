import FleetWorkflow.Agents.InsightsPublisher
import FleetWorkflow.Core.PiiScrub
import FleetWorkflow.Flow.Fallible

/-!
# Numbers of a draft

The check after drafting: every number in a draft has to be close to a value in the rows that the draft was written
from. Numbers are read with either use of points and commas, and also out of the texts in the rows; they are doubles,
and the comparison is that of doubles.
-/

namespace FleetWorkflow.Agents.InsightsPublisher

open Python Core Flow

/-! ## Reading numbers -/

/-- `_NUMBER_RE`. -/
def numberRe : Re :=
  .all [.maybe (· = '%'), .maybe isSpace, .one isDecimal,
    .chars (fun c => isDecimal c || c = '.' || c = ',') 0 none]

/-- `_NUMBER_RE.findall(text)`; the pattern has no word boundary. -/
def numberTokens (text : String) : List (List Char) := numberRe.findall (fun _ => false) text.toList

/-- `re.search(r",\d{1,2}$", t)`, on a text without a final newline. -/
def endsInDecimals (t : List Char) : Bool :=
  match t.reverse with
  | d :: ',' :: _ => isDecimal d
  | d :: e :: ',' :: _ => isDecimal d && isDecimal e
  | _ => false

/-- The number that decimal digits write. -/
def decimalNumber (digits : List Char) : ℕ := digits.foldl (fun n d => n * 10 + decimalValue d) 0

/-- `float(t)` on digits and points; a second point makes it fail. -/
def floatOfText (t : List Char) : Option Float :=
  let whole := t.takeWhile isDecimal
  match t.dropWhile isDecimal with
  | [] => if whole = [] then none else some (Float.ofScientific (decimalNumber whole) false 0)
  | '.' :: fraction =>
    if fraction.all isDecimal && whole ++ fraction ≠ [] then
      some (Float.ofScientific (decimalNumber (whole ++ fraction)) true fraction.length)
    else none
  | _ => none

/-- The text that `_normalise` converts: a comma before one or two last digits is the point, else points and commas
only group. -/
def normalText (token : List Char) : List Char :=
  let t := stripChars (token.filter fun c => c ≠ '%' && c ≠ ' ')
  if endsInDecimals t then (t.filter (· ≠ '.')).map fun c => if c = ',' then '.' else c
  else t.filter fun c => c ≠ ',' && c ≠ '.'

/-- `_normalise(token)`. -/
def normalise (token : List Char) : Option Float := floatOfText (normalText token)

/-- `extract_numbers(text)`. -/
def extractNumbers (text : String) : List Float := (numberTokens text).filterMap normalise

example : (numberTokens "1.250.000 TL, %12,5 ve 7,1,25").map normalText =
    [['1', '2', '5', '0', '0', '0', '0'], ['1', '2', '.', '5'], ['7', '.', '1', '.', '2', '5']] := by decide +kernel

/-! ## Values of the rows -/

/-- `float(n)`, which refuses an integer beyond the doubles. -/
def floatOfInt (n : ℤ) : Except Exc Float :=
  let x := Float.ofInt n
  if x.isInf then .error ⟨.overflowError, "int too large to convert to float"⟩ else .ok x

/-- The double that a float is. -/
def doubleOf : PyFloat → Float
  | .decimal negative digits exponent =>
    let magnitude := Float.ofScientific digits (exponent < 0) exponent.natAbs
    if negative then -magnitude else magnitude
  | .infinity negative => if negative then -1 / 0 else 1 / 0
  | .nan => 0 / 0

/-- The values in one cell; a truth value is no number. -/
def cellValues : Json → Except Exc (List Float)
  | .int n => do return [← floatOfInt n]
  | .float x => .ok [doubleOf x]
  | .str s => .ok (extractNumbers s)
  | _ => .ok []

/-- The values in one row. -/
def rowValues : Json → Except Exc (List Float)
  | .obj fields => do return (← fields.mapM fun field => cellValues field.2).flatten
  | _ => .error ⟨.attributeError, "object has no attribute 'values'"⟩

/-- `_data_values(rows)`. -/
def dataValues (rows : Json) : Except Exc (List Float) := do
  let rows ← rows.iterate
  return (← rows.mapM rowValues).flatten

/-! ## The check -/

/-- The tolerance of the check. -/
def tolerance : Float := 0.01

/-- `abs(num - d) <= max(tolerance, abs(d) * tolerance)`. -/
def withinTolerance (num d : Float) : Bool :=
  let bound := d.abs * tolerance
  (num - d).abs ≤ if tolerance < bound then bound else tolerance

/-- Whether a draft is grounded, and the numbers that no value matches. -/
structure GroundingResult where
  grounded : Bool
  unmatched : List Float

/-- `check_numbers_grounded(draft_text=..., data_rows=...)`. -/
def checkNumbersGrounded (draftText : String) (dataRows : Json) : Except Exc GroundingResult := do
  let data ← dataValues dataRows
  let unmatched := (extractNumbers draftText).filter fun num => !data.any fun d => withinTolerance num d
  return ⟨unmatched.isEmpty, unmatched⟩

/-- Every number of a text matches a value of the rows within the tolerance. -/
def NumbersMatch (text : String) (rows : Json) : Prop :=
  ∃ data, dataValues rows = .ok data ∧ ∀ num ∈ extractNumbers text, ∃ d ∈ data, withinTolerance num d

/-- A draft is grounded exactly when its numbers match. -/
theorem grounded_iff {text : String} {rows : Json} {result : GroundingResult}
    (h : checkNumbersGrounded text rows = .ok result) : result.grounded ↔ NumbersMatch text rows := by
  obtain ⟨data, hdata, h⟩ := bind_eq_ok.mp h
  rw [← Except.ok.inj h, NumbersMatch, hdata]
  simp

/-! ## Drafts -/

/-- The reply of the drafting call as a report and a social text. -/
def parseDraft (py : Builtins) (content : String) : Except Exc (String × String) := do
  let parsed ← loadsOr ⟨.parseError, "model did not return valid JSON: " ++ py.repr (.str content)⟩
    (stripCodeFence content)
  let missing := ⟨.parseError, "draft missing report/social: " ++ py.repr parsed⟩
  if !(← parsed.contains "report") then throw missing
  if !(← parsed.contains "social") then throw missing
  return (py.str (← parsed.item "report"), py.str (← parsed.item "social"))

/-- Drafting with the numeric check; the texts of the drafting call, and how a double is written, are left open. -/
def numericDrafting (py : Builtins) (messages : Json → Json → Except Exc (List Json)) (numeral : Float → PyFloat) :
    Drafting where
  messages := messages
  parseDraft := parseDraft py
  unmatchedNumbers text rows := do return (← checkNumbersGrounded text rows).unmatched.map numeral

/-- A draft of which every number is matched. -/
theorem numbersMatch_of_unmatched {py : Builtins} {messages : Json → Json → Except Exc (List Json)}
    {numeral : Float → PyFloat} {text : String} {rows : Json} {unmatched : List PyFloat}
    (h : (numericDrafting py messages numeral).unmatchedNumbers text rows = .ok unmatched) :
    unmatched.isEmpty ↔ NumbersMatch text rows := by
  obtain ⟨result, hresult, h⟩ := bind_eq_ok.mp h
  rw [← grounded_iff hresult, ← Except.ok.inj h]
  obtain ⟨data, hdata, hresult⟩ := bind_eq_ok.mp hresult
  rw [← Except.ok.inj hresult, List.isEmpty_map]

end FleetWorkflow.Agents.InsightsPublisher
