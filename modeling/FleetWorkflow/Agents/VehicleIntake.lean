import FleetWorkflow.Agents.Replies
import FleetWorkflow.Agents.Tools
import FleetWorkflow.Core.PiiScrub

/-!
# The vehicle intake agent

A report is scrubbed before the model sees it, and the reply is read as a brief. What cannot be read as a number is no number,
and a brief without a chassis number and without kilometres is incomplete.
-/

namespace FleetWorkflow.Agents.VehicleIntake

open Python Async Core

/-- `VehicleBrief`. -/
structure VehicleBrief where
  chassis : Option String
  km : Option ℤ
  damage : List String
  incomplete : Bool
  redactionApplied : Bool

/-- The instruction of the extraction call. -/
def extractionPrompt : String :=
  "You extract vehicle facts from a redacted expertise report. The report text has had personal identifiers removed " ++
  "([EMAIL], [TR_PHONE], [TR_TCKN], [TR_IBAN]) — do NOT try to recover them; you only care about the vehicle.\n\n" ++
  "Respond with exactly one JSON object and nothing else — no markdown, no commentary:\n" ++
  "\x7b\n" ++
  "  \"chassis\": \"<VIN/chassis number, or null if not present>\",\n" ++
  "  \"km\": <odometer reading as an integer, or null if not present>,\n" ++
  "  \"damage\": [\"<short damage item>\", ...]   // empty array if none listed\n" ++
  "\x7d\n\n" ++
  "If the text is not a usable expertise report or a required field is absent, use null for that field. NEVER invent a " ++
  "chassis number, km value, or damage entry that is not clearly in the text."

section Extraction

variable (py : Builtins) (unicode : Unicode) (actor : Actor)

/-- `value in (None, "", "null")`. -/
def isAbsent : Json → Bool
  | .null => true
  | .str text => text = "" || text = "null"
  | _ => false

/-- The chassis number of a reply. -/
def chassisOf (raw : Json) : Option String := if isAbsent raw then none else some (strip (py.str raw))

/-- The kilometres of a reply; a value that is no number is none. -/
def kmOf (raw : Json) : Except Exc (Option ℤ) :=
  if isAbsent raw then .ok none
  else
    match py.int raw with
    | .ok km => .ok (some km)
    | .error error => if error.kind = .typeError || error.kind = .valueError then .ok none else .error error

/-- The damage items of a reply that are not blank. -/
def damageOf : Json → List String
  | .arr items => (items.map fun item => strip (py.str item)).filter (· ≠ "")
  | _ => []

/-- Parse an extraction response, of a report that was scrubbed or was not. -/
def parseBrief (redactionApplied : Bool) (content : String) : Except Exc VehicleBrief := do
  let parsed ← loadsOr ⟨.parseError, "model did not return valid JSON: " ++ py.repr (.str content)⟩
    (stripCodeFence content)
  let chassis := chassisOf py (← parsed.getOr "chassis" .null)
  let km ← kmOf py (← parsed.getOr "km" .null)
  let damage := damageOf py (← parsed.getOr "damage" (.arr []))
  return ⟨chassis, km, damage, chassis.isNone && km.isNone, redactionApplied⟩

/-- `extract_vehicle_brief`: one model call on the scrubbed text, then the parse. -/
def extractVehicleBrief (ocrText : String) : Coroutine VehicleBrief := do
  let redacted := scrub unicode ocrText
  let response ← await (.llm actor "reasoning"
    [chatMessage "system" extractionPrompt, chatMessage "user" redacted.text]
    [("sensitivity", .str "confidential"), ("redacted", .bool true)])
  Prog.ofExcept (parseBrief py redacted.found response.content)

/-- The dictionary of a brief. -/
def VehicleBrief.asDict (brief : VehicleBrief) : Json :=
  .obj [("chassis", (brief.chassis.map Json.str).getD .null), ("km", (brief.km.map Json.int).getD .null),
    ("damage", .arr (brief.damage.map .str)), ("redaction_applied", .bool brief.redactionApplied)]

/-- Extract the brief; a malformed reply blocks the run. -/
def extract (state : Dict) : Coroutine NodeOutcome := do
  match ← Prog.ofExcept (Json.field state "ocr_text") with
  | .str ocrText =>
    match ← (extractVehicleBrief py unicode actor ocrText).attempt with
    | .ok brief => return .wrote [("brief", brief.asDict), ("incomplete", .bool brief.incomplete)]
    | .error error =>
      if error.kind = .parseError then
        return .wrote [("blocked_reason", .str ("vehicle extraction failed: " ++ error.message)), ("incomplete", .bool true)]
      else .raise error
  | _ => .raise ⟨.typeError, "expected string or bytes-like object"⟩

end Extraction

end FleetWorkflow.Agents.VehicleIntake
