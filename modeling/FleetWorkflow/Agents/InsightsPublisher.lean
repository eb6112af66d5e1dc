import FleetWorkflow.Agents.Replies
import FleetWorkflow.Agents.Tools

/-!
# The insights publisher

Index data, brand voice, draft, grounding check, publication: a fixed pipeline with one interrupt
before the publication. A draft with a number that the data does not have ends the run before it.
The text of the drafting call, how its reply is read and the grounding check are parameters.
-/

namespace FleetWorkflow.Agents.InsightsPublisher

open Python Async Core

/-- The name of the agent's row. -/
def agentName : String := "insights_publisher"

/-- The two channels that a publication goes to, as the interrupt names them. -/
def publication : ToolSpec := ⟨"cms.publish+social.post", "write:external"⟩

/-- The nodes of the graph. -/
inductive Node where
  | killswitchGate
  | pullData
  | retrieveBrand
  | draft
  | grounding
  | hitl
  | publish
  | finish
deriving DecidableEq

/-- The names of the nodes. -/
def nodeNames : NodeNames Node where
  nodes := [.killswitchGate, .pullData, .retrieveBrand, .draft, .grounding, .hitl, .publish, .finish]
  name
    | .killswitchGate => "killswitch_gate"
    | .pullData => "pull_data"
    | .retrieveBrand => "retrieve_brand"
    | .draft => "draft"
    | .grounding => "grounding"
    | .hitl => "hitl"
    | .publish => "publish"
    | .finish => "end"
  find_name node := by cases node <;> rfl

/-- The messages of the drafting call, how its reply is read as a report and a social text, and which
numbers of a text the data does not have. -/
structure Drafting where
  messages : (dataRows brandVoice : Json) → Except Exc (List Json)
  parseDraft : String → Except Exc (String × String)
  unmatchedNumbers : String → Json → Except Exc (List PyFloat)

section Nodes

variable (py : Builtins) (drafting : Drafting) (actor : Actor)

/-- The query of the index rows. -/
def indexQuery : String := "SELECT segment, avg_price, listing_count FROM fixture_index_monthly"

/-- Fetch the month's rows. -/
def pullData : Coroutine NodeOutcome := do
  let rows ← await (.tool actor pgRoQuery [("sql", .str indexQuery)])
  return .wrote [("data_rows", rows)]

/-- The guidance that stands in for the brand collection. -/
def guidance : String :=
  "Sıcak, güven veren, sade bir dil kullan. Abartıdan kaçın; " ++
  "rakamları bağlamıyla ver. Okuyucuya doğrudan hitap et."

/-- `draft_report`: one model call, then the parse. -/
def draftReport (dataRows brandVoice : Json) : Coroutine (String × String) := do
  let messages ← Prog.ofExcept (drafting.messages dataRows brandVoice)
  let response ← await (.llm actor "reasoning" messages [("sensitivity", .str "internal")])
  Prog.ofExcept (drafting.parseDraft response.content)

/-- Draft the report; a malformed reply blocks the run. -/
def draft (state : Dict) : Coroutine NodeOutcome := do
  let dataRows ← Prog.ofExcept (Json.field state "data_rows")
  let brandVoice := (Json.get? state "brand_voice").getD (.str "")
  match ← (draftReport drafting actor dataRows brandVoice).attempt with
  | .ok (report, social) => return .wrote [("draft", .obj [("report", .str report), ("social", .str social)])]
  | .error error =>
    if error.kind = .parseError then
      return .wrote [("blocked_reason", .str ("draft failed: " ++ error.message))]
    else .raise error

/-- Check the numbers of the draft; one that the data does not have blocks the run. -/
def grounding (state : Dict) : Coroutine NodeOutcome := do
  let drafted ← Prog.ofExcept (Json.field state "draft")
  let report ← Prog.ofExcept (drafted.item "report")
  let social ← Prog.ofExcept (drafted.item "social")
  let dataRows ← Prog.ofExcept (Json.field state "data_rows")
  let unmatched ← Prog.ofExcept (drafting.unmatchedNumbers (py.str report ++ "\n" ++ py.str social) dataRows)
  let numbers := Json.arr (unmatched.map .float)
  if unmatched.isEmpty then return .wrote [("grounded", .bool true), ("unmatched_numbers", .arr [])]
  else
    let reason := "ungrounded numbers in draft: " ++ py.repr numbers ++ " (not found in the query results)"
    return .wrote [("grounded", .bool false), ("unmatched_numbers", numbers), ("blocked_reason", .str reason)]

/-- The payload of the interrupt. -/
def publishPayload (drafted dataRows : Json) : Json :=
  .obj [("tool", .str publication.name), ("risk_class", .str publication.riskClass), ("args", drafted),
    ("grounded_against", dataRows)]

/-- The interrupt before the publication, which always waits for an approval. -/
def hitl (resume : Option Json) (state : Dict) : Coroutine NodeOutcome := do
  assertRequiresApproval py publication
  let drafted ← Prog.ofExcept (Json.field state "draft")
  let dataRows ← Prog.ofExcept (Json.field state "data_rows")
  interrupt (publishPayload drafted dataRows) resume rejectUnlessApproved

/-- Publish the report. -/
def publish (state : Dict) : Coroutine NodeOutcome := do
  let drafted ← Prog.ofExcept (Json.field state "draft")
  let report ← Prog.ofExcept (drafted.item "report")
  let social ← Prog.ofExcept (drafted.item "social")
  let result ← await (.tool actor cmsPublish [("report", report), ("social", social)])
  return .wrote [("published", result)]

/-- `build_insights_publisher_graph`. -/
def graph (killswitch : Option KillSwitch) : AgentGraph Node where
  entry := .killswitchGate
  merge := Json.merge
  body node resume state :=
    match node with
    | .killswitchGate => killswitchGate killswitch agentName
    | .pullData => pullData actor
    | .retrieveBrand => return .wrote [("brand_voice", .str guidance)]
    | .draft => draft drafting actor state
    | .grounding => grounding py drafting state
    | .hitl => hitl py resume state
    | .publish => publish actor state
    | .finish => return .wrote []
  route node state :=
    match node with
    | .killswitchGate => .ok (if Json.flag state "paused" then none else some .pullData)
    | .pullData => .ok (some .retrieveBrand)
    | .retrieveBrand => .ok (some .draft)
    | .draft => .ok (some (if Json.flag state "blocked_reason" then .finish else .grounding))
    | .grounding => .ok (some (if Json.flag state "grounded" then .hitl else .finish))
    | .hitl => .ok (some (if Json.flag state "rejected" then .finish else .publish))
    | .publish => .ok (some .finish)
    | .finish => .ok none

end Nodes

/-! ## What each node calls -/

/-- The tools that each node calls. -/
def nodeTools : Node → List ToolSpec
  | .pullData => [pgRoQuery]
  | .publish => [cmsPublish]
  | _ => []

/-- The node that calls the model. -/
def callsModel (node : Node) : Bool := node = .draft

/-- Each node makes its own calls only. -/
theorem only_body (py : Builtins) (drafting : Drafting) (actor : Actor) (killswitch : Option KillSwitch)
    (node : Node) (resume : Option Json) (state : Dict) :
    ((graph py drafting actor killswitch).body node resume state).Only
      (NodeCall actor (nodeTools node) (callsModel node)) := by
  cases node with
  | killswitchGate => exact nodeCall_killswitchGate killswitch agentName
  | pullData => exact (Prog.only_call ⟨rfl, by decide⟩).bind fun _ => Prog.only_pure _
  | retrieveBrand => trivial
  | draft =>
    refine (Prog.only_ofExcept _).bind fun _ => Prog.Only.bind ?_ fun drafted => ?_
    · exact Prog.Only.attempt ((Prog.only_ofExcept _).bind fun _ => (Prog.only_call ⟨rfl, rfl⟩).bind fun _ =>
        Prog.only_ofExcept _)
    · match drafted with
      | .ok (report, social) => trivial
      | .error error =>
        show Prog.Only _ (if error.kind = .parseError then _ else _)
        split <;> trivial
  | grounding =>
    refine (Prog.only_ofExcept _).bind fun _ => (Prog.only_ofExcept _).bind fun _ =>
      (Prog.only_ofExcept _).bind fun _ => (Prog.only_ofExcept _).bind fun _ =>
      (Prog.only_ofExcept _).bind fun unmatched => ?_
    show Prog.Only _ (if unmatched.isEmpty then _ else _)
    split <;> trivial
  | hitl =>
    exact (only_assertRequiresApproval py _).bind fun _ => (Prog.only_ofExcept _).bind fun _ =>
      (Prog.only_ofExcept _).bind fun _ => nodeCall_interrupt _ resume _
  | publish =>
    exact (Prog.only_ofExcept _).bind fun _ => (Prog.only_ofExcept _).bind fun _ =>
      (Prog.only_ofExcept _).bind fun _ => (Prog.only_call ⟨rfl, by decide⟩).bind fun _ => Prog.only_pure _
  | finish => trivial

end FleetWorkflow.Agents.InsightsPublisher
