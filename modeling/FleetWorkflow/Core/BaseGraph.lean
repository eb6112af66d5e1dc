import FleetWorkflow.Core.Gates

/-!
# The base graph

The graph that an `AgentSpec` compiles to: the pause gate, the input guardrails, one model call, the
interrupt before a tool that needs an approval, the tool itself behind the read-only gate, and the
citations. State is a dictionary; a key that no node has written is absent from it.
-/

namespace FleetWorkflow.Core

open Python Async

/-! ## Graphs over dictionaries -/

/-- A graph whose state and writes are dictionaries. -/
abbrev AgentGraph (ν : Type) := StateGraph Call Reply Exc ν Dict Dict Json Json

/-- What a node of an agent comes back with. -/
abbrev NodeOutcome := NodeResult Dict Json

/-- Where an agent's run stopped. -/
abbrev AgentRun := RunResult Dict Json

/-- The nodes of a graph and the different names under which they are added. -/
structure NodeNames (ν : Type) where
  nodes : List ν
  name : ν → String
  find_name : ∀ node, nodes.find? (fun other => name other = name node) = some node

namespace NodeNames

variable {ν : Type} (names : NodeNames ν)

/-- The node of a name. -/
def ofName (text : String) : Option ν := names.nodes.find? fun node => names.name node = text

/-- A node is found under its name. -/
@[simp] theorem ofName_name (node : ν) : names.ofName (names.name node) = some node := names.find_name node

/-- A node is found under no other name. -/
theorem name_of_ofName {text : String} {node : ν} (h : names.ofName text = some node) :
    names.name node = text := by
  simpa using List.find?_some h

end NodeNames

/-- The checkpointer of a run, with the notice that a node starts. -/
def threadSaver {ν : Type} (names : NodeNames ν) (actor : Actor) : Saver Call Reply Exc ν Dict where
  enter node := await (.enter actor (names.name node))
  load := do
    match ← await (.loadCheckpoint actor.thread) with
    | none => return none
    | some saved => return some ⟨saved.values, saved.next.bind names.ofName⟩
  save checkpoint := await (.putCheckpoint actor.thread ⟨checkpoint.values, checkpoint.next.map names.name⟩)

/-- The number of supersteps after which a run is cut off. -/
def recursionLimit : ℕ := 25

/-- The exception of a run that is cut off. -/
def graphRecursionError : Exc := ⟨.graphRecursion, "Recursion limit of 25 reached"⟩

/-- The exception of resuming a thread without a checkpoint. -/
def emptyInputError : Exc := ⟨.emptyInput, "EmptyInputError"⟩

/-- `graph.ainvoke(input, config)`. -/
def ainvoke {ν : Type} (graph : AgentGraph ν) (saver : Saver Call Reply Exc ν Dict) (input : Dict) :
    Coroutine AgentRun :=
  graph.invoke saver graphRecursionError recursionLimit [] input

/-- `graph.ainvoke(Command(resume=decision), config)`. -/
def aresume {ν : Type} (graph : AgentGraph ν) (saver : Saver Call Reply Exc ν Dict) (decision : Json) :
    Coroutine AgentRun :=
  graph.resume saver graphRecursionError emptyInputError recursionLimit decision

/-- `interrupt(payload)`: stop here unless the run was resumed, else go on with the decision. -/
def interrupt (payload : Json) (resume : Option Json) (onDecision : Json → Except Exc Dict) :
    Coroutine NodeOutcome :=
  match resume with
  | none => return .interrupted payload
  | some decision => do
    let writes ← Prog.ofExcept (onDecision decision)
    return .wrote writes

/-- `decision.get("approved")` has a true value. -/
def approvedBy (decision : Json) : Except Exc Bool := do
  return (← decision.getOr "approved" .null).truthy

/-- `if not decision.get("approved"): return {"rejected": True}`. -/
def rejectUnlessApproved (decision : Json) : Except Exc Dict := do
  if ← approvedBy decision then return [] else return [("rejected", .bool true)]

/-! ## The graph of an agent spec -/

/-- A citation that an agent's knowledge base produced. -/
structure Citation where
  sourceId : String
  title : String
  chunkRef : String

/-- What an agent is built from. -/
structure AgentSpec where
  name : String
  systemPrompt : String
  callTier : String
  tools : List ToolSpec
  evalPassRate : PyFloat
  autonomyEnabled : Bool
  citations : List Citation

/-- The first tool of a name; a name that is not a string matches none. -/
def toolByName (spec : AgentSpec) (name : Json) : Option ToolSpec :=
  spec.tools.find? fun tool => name.eqStr tool.name

/-- The nodes of the base graph. -/
inductive BaseNode where
  | killswitchGate
  | contextBuilder
  | guardrailsIn
  | callModel
  | hitl
  | executeTool
  | citationAttach
deriving DecidableEq

/-- The names of the nodes of the base graph. -/
def baseNodes : NodeNames BaseNode where
  nodes := [.killswitchGate, .contextBuilder, .guardrailsIn, .callModel, .hitl, .executeTool, .citationAttach]
  name
    | .killswitchGate => "killswitch_gate"
    | .contextBuilder => "context_builder"
    | .guardrailsIn => "guardrails_in"
    | .callModel => "call_model"
    | .hitl => "hitl"
    | .executeTool => "execute_tool"
    | .citationAttach => "citation_attach"
  find_name node := by cases node <;> rfl

/-- The gate that every graph starts with: a paused agent ends its run. -/
def killswitchGate (killswitch : Option KillSwitch) (agentName : String) : Coroutine NodeOutcome :=
  match killswitch with
  | none => return .wrote []
  | some killswitch => do
    if ← killswitch.isAgentPaused agentName then return .wrote [("paused", .bool true)]
    else return .wrote []

/-- The content of the last message whose role is `user`. -/
def lastUser : List Json → Except Exc Json
  | [] => .ok (.str "")
  | message :: earlier => do
    let role ← message.getOr "role" .null
    if role.eqStr "user" then message.item "content" else lastUser earlier

/-- `{"role": "system", "content": prompt}`. -/
def chatMessage (role content : String) : Json := .obj [("role", .str role), ("content", .str content)]

/-- The call of a language model for a state. -/
def callModel (spec : AgentSpec) (actor : Actor) (state : Dict) : Coroutine NodeOutcome := do
  let messages ← Prog.ofExcept (Json.field state "messages")
  let messages ← Prog.ofExcept messages.iterate
  let method := if spec.callTier = "utility" then "utility" else "reasoning"
  let response ← await (.llm actor method (chatMessage "system" spec.systemPrompt :: messages) [])
  return .wrote [("text", .str response.content), ("tool_call", response.toolCall)]

/-- The proposed call in a state and the tool it names; both assertions of the source. -/
def proposedTool (spec : AgentSpec) (state : Dict) : Except Exc (Json × ToolSpec) := do
  match ← Json.field state "tool_call" with
  | .null => .error ⟨.assertionError, ""⟩
  | toolCall =>
    match toolByName spec (← toolCall.item "name") with
    | none => .error ⟨.assertionError, ""⟩
    | some tool => return (toolCall, tool)

/-- `if not decision.get("approved"): return {"rejected": True, "tool_call": None}`. -/
def dropUnlessApproved (decision : Json) : Except Exc Dict := do
  if ← approvedBy decision then return []
  else return [("rejected", .bool true), ("tool_call", .null)]

/-- The interrupt before a tool that needs an approval. -/
def hitl (spec : AgentSpec) (resume : Option Json) (state : Dict) : Coroutine NodeOutcome := do
  let (toolCall, tool) ← Prog.ofExcept (proposedTool spec state)
  let name ← Prog.ofExcept (toolCall.item "name")
  let args ← Prog.ofExcept (toolCall.getOr "args" (.obj []))
  interrupt (.obj [("tool", name), ("args", args), ("risk_class", .str tool.riskClass)]) resume
    dropUnlessApproved

/-- Run the proposed tool unless the read-only gate blocks it. -/
def executeTool (spec : AgentSpec) (killswitch : Option KillSwitch) (actor : Actor) (state : Dict) :
    Coroutine NodeOutcome := do
  let (toolCall, tool) ← Prog.ofExcept (proposedTool spec state)
  let blocked ← match killswitch with
    | none => pure false
    | some _ => KillSwitch.blocksTool tool.riskClass
  if blocked then return .wrote [("blocked_read_only", .bool true)]
  else
    let args ← Prog.ofExcept (toolCall.getOr "args" (.obj []))
    let args ← Prog.ofExcept args.kwargs
    let result ← await (.tool actor tool args)
    return .wrote [("tool_result", result)]

/-- `asdict(citation)`. -/
def Citation.asDict (citation : Citation) : Json :=
  .obj [("source_id", .str citation.sourceId), ("title", .str citation.title),
    ("chunk_ref", .str citation.chunkRef)]

/-- The route after the model: to the approval, to the tool, or past both. -/
def routeAfterModel (py : Builtins) (spec : AgentSpec) (state : Dict) : Except Exc BaseNode :=
  match Json.get? state "tool_call" with
  | none => .ok .citationAttach
  | some toolCall =>
    if !toolCall.truthy then .ok .citationAttach
    else do
      match toolByName spec (← toolCall.item "name") with
      | none => return .citationAttach
      | some tool =>
        if ← requiresApproval py tool.riskClass spec.evalPassRate spec.autonomyEnabled then return .hitl
        else return .executeTool

/-- `build_graph(spec, killswitch=...)`; `detectInjection` is the pattern search of the guardrails. -/
def buildGraph (py : Builtins) (detectInjection : Json → Except Exc Bool) (spec : AgentSpec)
    (killswitch : Option KillSwitch) (actor : Actor) : AgentGraph BaseNode where
  entry := .killswitchGate
  merge := Json.merge
  body node resume state :=
    match node with
    | .killswitchGate => killswitchGate killswitch spec.name
    | .contextBuilder => return .wrote []
    | .guardrailsIn => do
      let messages ← Prog.ofExcept (Json.field state "messages")
      let messages ← Prog.ofExcept messages.iterate
      let content ← Prog.ofExcept (lastUser messages.reverse)
      let flagged ← Prog.ofExcept (detectInjection content)
      return .wrote [("injection_flagged", .bool flagged)]
    | .callModel => callModel spec actor state
    | .hitl => hitl spec resume state
    | .executeTool => executeTool spec killswitch actor state
    | .citationAttach => return .wrote [("citations", .arr (spec.citations.map Citation.asDict))]
  route node state :=
    match node with
    | .killswitchGate => .ok (if Json.flag state "paused" then none else some .contextBuilder)
    | .contextBuilder => .ok (some .guardrailsIn)
    | .guardrailsIn => .ok (some .callModel)
    | .callModel => (routeAfterModel py spec state).map some
    | .hitl => .ok (some (if Json.flag state "rejected" then .citationAttach else .executeTool))
    | .executeTool => .ok (some .citationAttach)
    | .citationAttach => .ok none

end FleetWorkflow.Core
