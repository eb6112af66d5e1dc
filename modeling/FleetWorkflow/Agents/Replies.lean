import FleetWorkflow.Python.Value

/-!
# Reading model replies

Several agents ask the model for one JSON object and read its reply in the same way: take away a
Markdown code fence, decode, and check that the required fields are there.
-/

namespace FleetWorkflow.Agents

open Python

/-- The three characters of a code fence. -/
def fence : List Char := List.replicate 3 (Char.ofNat 96)

/-- `_strip_code_fence`: the inside of a text that is one fenced block, else the text itself. -/
def stripCodeFence (text : String) : String :=
  let stripped := stripChars text.toList
  let body := stripped.drop 3
  let body := if "json".toList.isPrefixOf body then body.drop 4 else body
  if fence.isPrefixOf stripped && fence.isSuffixOf body then
    String.ofList (stripChars (body.take (body.length - 3)))
  else text

/-- The `ValueError` of an integer with too many digits. -/
def intDigitsError : Exc :=
  ⟨.valueError, "Exceeds the limit (4300 digits) for integer string conversion"⟩

/-- `json.loads(text)` where a `JSONDecodeError` becomes an exception of the agent. -/
def loadsOr (onDecodeError : Exc) (text : String) : Except Exc Json :=
  match Json.loads text with
  | .ok value => .ok value
  | .error .decode => .error onDecodeError
  | .error .intDigits => .error intDigitsError

/-- `[f for f in fields if f not in parsed]`. -/
def missingFields (parsed : Json) : List String → Except Exc (List String)
  | [] => .ok []
  | field :: rest => do
    let present ← parsed.contains field
    let missing ← missingFields parsed rest
    return if present then missing else field :: missing

/-- `", ".join(items)`, which takes strings only. -/
def joinTexts (separator : String) : List Json → Except Exc String
  | [] => .ok ""
  | [.str text] => .ok text
  | .str text :: rest => do return text ++ separator ++ (← joinTexts separator rest)
  | _ => .error ⟨.typeError, "sequence item: expected str instance"⟩

example : stripCodeFence " ```json\n[1]\n``` " = "[1]" := by decide

end FleetWorkflow.Agents
