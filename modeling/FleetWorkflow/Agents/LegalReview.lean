import FleetWorkflow.Agents.Replies
import FleetWorkflow.Agents.Tools

/-!
# The legal review agent

Playbook excerpts, clause review: an advisory pipeline without a write and without an interrupt. The
text of the review call and how its reply is checked against the excerpts are parameters.
-/

namespace FleetWorkflow.Agents.LegalReview

open Python Async Core

/-- The name of the agent's row. -/
def agentName : String := "legal_review"

/-- The messages of the review call, and how its reply is read as findings with and without a
citation. -/
structure Reviewing where
  messages : (contractText : Json) → (excerpts : List Json) → Except Exc (List Json)
  buildReview : String → (playbookRefs : List Json) → (contractText : Json) → Except Exc (List Json × List Json)

/-- The nodes of the graph. -/
inductive Node where
  | killswitchGate
  | retrievePlaybooks
  | review
  | finish
deriving DecidableEq

/-- The names of the nodes. -/
def nodeNames : NodeNames Node where
  nodes := [.killswitchGate, .retrievePlaybooks, .review, .finish]
  name
    | .killswitchGate => "killswitch_gate"
    | .retrievePlaybooks => "retrieve_playbooks"
    | .review => "review"
    | .finish => "end"
  find_name node := by cases node <;> rfl

section Nodes

variable (reviewing : Reviewing) (actor : Actor)

/-- Embed the contract and search the playbooks with it. -/
def retrievePlaybooks (state : Dict) : Coroutine NodeOutcome := do
  let contractText ← Prog.ofExcept (Json.field state "contract_text")
  let vector ← await (.llm actor "embeddings" [contractText] [("sensitivity", .str "confidential")])
  let excerpts ← await (.query "search_hybrid" [.str vector.content])
  return .wrote [("excerpts", excerpts)]

/-- `review_contract`: one model call, then the check of its findings. -/
def reviewContract (contractText : Json) (excerpts refs : List Json) : Coroutine (List Json × List Json) := do
  let messages ← Prog.ofExcept (reviewing.messages contractText excerpts)
  let response ← await (.llm actor "reasoning" messages
    [("sensitivity", .str "confidential"), ("temperature", .float (.decimal false 0 0))])
  Prog.ofExcept (reviewing.buildReview response.content refs contractText)

/-- Review the contract; a malformed reply blocks the run. -/
def review (state : Dict) : Coroutine NodeOutcome := do
  let excerpts ← Prog.ofExcept (Json.field state "excerpts" >>= Json.iterate)
  let contractText ← Prog.ofExcept (Json.field state "contract_text")
  let contents ← Prog.ofExcept (excerpts.mapM fun excerpt => excerpt.item "content")
  let refs ← Prog.ofExcept (excerpts.mapM fun excerpt => excerpt.item "chunk_ref")
  match ← (reviewContract reviewing actor contractText contents refs).attempt with
  | .ok (findings, uncited) => return .wrote [("findings", .arr findings), ("uncited", .arr uncited)]
  | .error error =>
    if error.kind = .parseError then
      return .wrote [("blocked_reason", .str ("clause review failed: " ++ error.message))]
    else .raise error

/-- End the run; without excerpts there was nothing to compare with. -/
def endNode (state : Dict) : NodeOutcome :=
  if !Json.flag state "excerpts" && !Json.flag state "blocked_reason" then
    .wrote [("blocked_reason", .str ("no legal-playbooks excerpts retrieved — refusing to report a " ++
        "clean review with nothing to compare against")), ("findings", .arr []), ("uncited", .arr [])]
  else .wrote []

/-- `build_legal_review_graph`. -/
def graph (killswitch : Option KillSwitch) : AgentGraph Node where
  entry := .killswitchGate
  merge := Json.merge
  body node _ state :=
    match node with
    | .killswitchGate => killswitchGate killswitch agentName
    | .retrievePlaybooks => retrievePlaybooks actor state
    | .review => review reviewing actor state
    | .finish => return endNode state
  route node state :=
    match node with
    | .killswitchGate => .ok (if Json.flag state "paused" then none else some .retrievePlaybooks)
    | .retrievePlaybooks => .ok (some (if Json.flag state "excerpts" then .review else .finish))
    | .review => .ok (some .finish)
    | .finish => .ok none

end Nodes

/-! ## What each node calls -/

/-- The nodes that call a model. -/
def callsModel (node : Node) : Bool := node = .retrievePlaybooks || node = .review

/-- Each node makes its own calls only, and no node calls a tool. -/
theorem only_body (reviewing : Reviewing) (actor : Actor) (killswitch : Option KillSwitch) (node : Node)
    (resume : Option Json) (state : Dict) :
    ((graph reviewing actor killswitch).body node resume state).Only (NodeCall actor [] (callsModel node)) := by
  cases node with
  | killswitchGate => exact nodeCall_killswitchGate killswitch agentName
  | retrievePlaybooks =>
    exact (Prog.only_ofExcept _).bind fun _ => (Prog.only_call ⟨rfl, rfl⟩).bind fun _ =>
      (Prog.only_call trivial).bind fun _ => Prog.only_pure _
  | review =>
    refine (Prog.only_ofExcept _).bind fun _ => (Prog.only_ofExcept _).bind fun _ =>
      (Prog.only_ofExcept _).bind fun _ => (Prog.only_ofExcept _).bind fun _ => Prog.Only.bind ?_ fun reviewed => ?_
    · exact Prog.Only.attempt ((Prog.only_ofExcept _).bind fun _ => (Prog.only_call ⟨rfl, rfl⟩).bind fun _ =>
        Prog.only_ofExcept _)
    · match reviewed with
      | .ok (findings, uncited) => trivial
      | .error error =>
        show Prog.Only _ (if error.kind = .parseError then _ else _)
        split <;> trivial
  | finish => exact Prog.only_pure _

end FleetWorkflow.Agents.LegalReview
