import FleetWorkflow.Agents.Replies
import FleetWorkflow.Agents.Tools

/-!
# The HR agent

Image, text, profile, role match: a fixed pipeline whose interrupt carries the draft of a shortlist
entry. The approved draft is the approval itself, so that no node follows the interrupt but the last.
How a reply is read as a profile and how a profile is scored are parameters.
-/

namespace FleetWorkflow.Agents.HrAgent

open Python Async Core

/-- The name of the agent's row. -/
def agentName : String := "hr_agent"

/-- The draft entry, which is no registered tool. -/
def shortlistDraft : ToolSpec := ⟨"hr.shortlist_draft", "write:internal"⟩

/-- The nodes of the graph. -/
inductive Node where
  | killswitchGate
  | ocr
  | extractProfile
  | matchRole
  | hitl
  | finish
deriving DecidableEq

/-- The names of the nodes. -/
def nodeNames : NodeNames Node where
  nodes := [.killswitchGate, .ocr, .extractProfile, .matchRole, .hitl, .finish]
  name
    | .killswitchGate => "killswitch_gate"
    | .ocr => "ocr"
    | .extractProfile => "extract_profile"
    | .matchRole => "match_role"
    | .hitl => "hitl"
    | .finish => "end"
  find_name node := by cases node <;> rfl

/-- How a reply is read as a profile, and how a profile is scored against criteria. -/
structure Reading where
  systemPrompt : String
  parseProfile : String → Except Exc Dict
  scoreRoleMatch : Dict → Json → Except Exc Dict

/-- The fields of a profile. -/
def profileFields : List String := ["full_name", "email", "phone", "education", "experience", "skills"]

/-- The named fields of a value. -/
def selectFields (value : Json) : List String → Except Exc Dict
  | [] => .ok []
  | name :: rest => do
    let field ← value.item name
    return (name, field) :: (← selectFields value rest)

section Nodes

variable (py : Builtins) (reading : Reading) (actor : Actor)

/-- Read the text off the image. -/
def ocrNode (state : Dict) : Coroutine NodeOutcome := do
  let image ← Prog.ofExcept (Json.field state "image_base64")
  let result ← await (.tool actor ocrExtractText [("image_base64", image)])
  let text ← Prog.ofExcept (result.item "text")
  return .wrote [("ocr_text", text)]

/-- `extract_cv_profile`: one model call on the local lane, then the parse. -/
def extractCvProfile (ocrText : Json) : Coroutine Dict := do
  let response ← await (.llm actor "reasoning"
    [chatMessage "system" reading.systemPrompt, .obj [("role", .str "user"), ("content", ocrText)]]
    [("sensitivity", .str "pii")])
  Prog.ofExcept (reading.parseProfile response.content)

/-- Extract the profile; a malformed reply blocks the run. -/
def extractProfile (state : Dict) : Coroutine NodeOutcome := do
  let ocrText ← Prog.ofExcept (Json.field state "ocr_text")
  match ← (extractCvProfile reading actor ocrText).attempt with
  | .ok profile => return .wrote [("profile", .obj profile)]
  | .error error =>
    if error.kind = .parseError then
      return .wrote [("blocked_reason", .str ("profile extraction failed: " ++ error.message))]
    else .raise error

/-- Score the profile against the criteria of the role. -/
def matchRole (state : Dict) : Coroutine NodeOutcome := do
  let profile ← Prog.ofExcept (Json.field state "profile")
  let profile ← Prog.ofExcept (selectFields profile profileFields)
  let result ← Prog.ofExcept (reading.scoreRoleMatch profile ((Json.get? state "criteria").getD (.arr [])))
  return .wrote [("match", .obj result)]

/-- The payload of the interrupt. -/
def shortlistPayload (profile roleMatch : Json) : Json :=
  .obj [("tool", .str shortlistDraft.name), ("risk_class", .str shortlistDraft.riskClass),
    ("args", profile), ("match", roleMatch)]

/-- The interrupt with the draft, which always waits for an approval. -/
def hitl (resume : Option Json) (state : Dict) : Coroutine NodeOutcome := do
  assertRequiresApproval py shortlistDraft
  let profile ← Prog.ofExcept (Json.field state "profile")
  let roleMatch ← Prog.ofExcept (Json.field state "match")
  interrupt (shortlistPayload profile roleMatch) resume rejectUnlessApproved

/-- `build_hr_agent_graph`. -/
def graph (killswitch : Option KillSwitch) : AgentGraph Node where
  entry := .killswitchGate
  merge := Json.merge
  body node resume state :=
    match node with
    | .killswitchGate => killswitchGate killswitch agentName
    | .ocr => ocrNode actor state
    | .extractProfile => extractProfile reading actor state
    | .matchRole => matchRole reading state
    | .hitl => hitl py resume state
    | .finish => return .wrote []
  route node state :=
    match node with
    | .killswitchGate => .ok (if Json.flag state "paused" then none else some .ocr)
    | .ocr => .ok (some .extractProfile)
    | .extractProfile => .ok (some (if Json.flag state "blocked_reason" then .finish else .matchRole))
    | .matchRole => .ok (some .hitl)
    | .hitl => .ok (some .finish)
    | .finish => .ok none

end Nodes

/-! ## What each node calls -/

/-- The tools that each node calls. -/
def nodeTools : Node → List ToolSpec
  | .ocr => [ocrExtractText]
  | _ => []

/-- The node that calls the model. -/
def callsModel (node : Node) : Bool := node = .extractProfile

/-- Each node makes its own calls only. -/
theorem only_body (py : Builtins) (reading : Reading) (actor : Actor) (killswitch : Option KillSwitch)
    (node : Node) (resume : Option Json) (state : Dict) :
    ((graph py reading actor killswitch).body node resume state).Only
      (NodeCall actor (nodeTools node) (callsModel node)) := by
  cases node with
  | killswitchGate => exact nodeCall_killswitchGate killswitch agentName
  | ocr =>
    exact (Prog.only_ofExcept _).bind fun _ => (Prog.only_call ⟨rfl, by decide⟩).bind fun _ =>
      (Prog.only_ofExcept _).bind fun _ => Prog.only_pure _
  | extractProfile =>
    refine (Prog.only_ofExcept _).bind fun _ => Prog.Only.bind ?_ fun profile => ?_
    · exact Prog.Only.attempt ((Prog.only_call ⟨rfl, rfl⟩).bind fun _ => Prog.only_ofExcept _)
    · match profile with
      | .ok profile => trivial
      | .error error =>
        show Prog.Only _ (if error.kind = .parseError then _ else _)
        split <;> trivial
  | matchRole =>
    exact (Prog.only_ofExcept _).bind fun _ => (Prog.only_ofExcept _).bind fun _ =>
      (Prog.only_ofExcept _).bind fun _ => Prog.only_pure _
  | hitl =>
    exact (only_assertRequiresApproval py _).bind fun _ => (Prog.only_ofExcept _).bind fun _ =>
      (Prog.only_ofExcept _).bind fun _ => nodeCall_interrupt _ resume _
  | finish => trivial

end FleetWorkflow.Agents.HrAgent
