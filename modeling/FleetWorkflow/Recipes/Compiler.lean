import FleetWorkflow.Python.Uuid5
import FleetWorkflow.Recipes.Schema

/-!
# The recipe compiler

A recipe becomes an n8n workflow: nodes in emission order and the `connections` map from a source
and an output index to its targets. The loop over the steps keeps the open edges that wait for
the next node; the two branches of a condition run the same emission with their own open edges.
-/

namespace FleetWorkflow.Recipes

open FleetWorkflow.Python

/-- Why a recipe cannot be compiled into a safe workflow. -/
inductive RecipeCompileError where
  | nonFleetUrl (url : String)
  | unknownStep (step : String)
  | nodeTypes (types : List String)
deriving DecidableEq, Repr

/-- A node of the emitted workflow. -/
structure Node where
  parameters : Json
  id : String
  name : String
  type : String
  typeVersion : Json
  position : ℤ × ℤ
  webhookId : Option String

/-- The end of a connection. -/
structure Target where
  node : String
  type : String
  index : ℕ
deriving DecidableEq, Repr

/-- The `connections` map in insertion order: each source with its list of outputs. -/
abbrev Connections := List (String × List (List Target))

/-- The payload of an n8n workflow. -/
structure Workflow where
  name : String
  nodes : List Node
  connections : Connections
  settings : Json

/-- `SERVICE_PATHS`. -/
def servicePaths : ActionName → String
  | .pgQuery => "/v1/service/pg-query"
  | .agentRun => "/v1/service/agent-run"
  | .slackPost => "/v1/service/slack-post"
  | .emailSend => "/v1/service/email-send"
  | .httpNotify => "/v1/service/notify"

/-- `_URL_BASE`. -/
def urlBase : String := "=\x7b\x7b $env.FLEET_API_BASE_URL \x7d\x7d"

/-- `_FLEET_URL_RE.match(url)`. -/
def matchFleetUrl (url : String) : Bool :=
  match dropLiteral (urlBase ++ "/v1/service/").toList (dropFinalNewline url.toList) with
  | some rest => !rest.isEmpty && rest.all fun c => isAsciiLower c || c = '-'
  | none => false

/-- `ALLOWED_NODE_TYPES`. -/
def allowedNodeTypes : List String :=
  ["n8n-nodes-base.scheduleTrigger", "n8n-nodes-base.webhook", "n8n-nodes-base.if",
    "n8n-nodes-base.set", "n8n-nodes-base.httpRequest"]

/-- `_OPERATORS`: the n8n condition type and operation of an operator. -/
def operators : Operator → String × String
  | .eq => ("string", "equals")
  | .ne => ("string", "notEquals")
  | .contains => ("string", "contains")
  | .gt => ("number", "gt")
  | .gte => ("number", "gte")
  | .lt => ("number", "lt")
  | .lte => ("number", "lte")

/-- `workflow_name`. -/
def workflowName (recipeName : String) : String := "fleet-recipe-" ++ recipeName

/-- `webhook_path`. -/
def webhookPath (recipeName : String) : String := "recipe-" ++ recipeName ++ "-run"

/-- `webhook_id`. -/
def webhookId (recipeName : String) : String := uuid5Url ("fleet-recipe/" ++ recipeName)

/-- `_service_url`. -/
def serviceUrl (action : ActionName) : Except RecipeCompileError String :=
  let url := urlBase ++ servicePaths action
  if matchFleetUrl url then .ok url else .error (.nonFleetUrl url)

/-- The part of a node name before the step identifier. -/
def Step.label : Step → String
  | .action step => step.action.value
  | .condition _ => "if"

/-- `_node_name`. -/
def nodeName (step : Step) : String := step.label ++ " (" ++ step.id ++ ")"

/-- The node emitted for each step so far, newest first. -/
abbrev NodeNames := List (String × String)

/-- `node_names.get(step)`. -/
def NodeNames.get (nodeNames : NodeNames) (step : String) : Option String :=
  (nodeNames.find? fun entry => entry.1 = step).map Prod.snd

/-- The JavaScript of one segment: a string literal, or the item of the referenced node. -/
def jsPart (nodeNames : NodeNames) : Segment → Except RecipeCompileError String
  | .literal text => .ok (dumpsStr text)
  | .reference ref =>
    match nodeNames.get ref.step with
    | some target => .ok ("$(" ++ dumpsStr target ++ ").item.json." ++ ref.path)
    | none => .error (.unknownStep ref.step)

/-- `_js_expression`. -/
def jsExpression (nodeNames : NodeNames) (value : String) : Except RecipeCompileError String := do
  let parts ← (segments value).mapM (jsPart nodeNames)
  return if parts.isEmpty then dumpsStr "" else " + ".intercalate parts

/-- The text of an n8n expression around some JavaScript. -/
def braced (code : String) : String := "=\x7b\x7b " ++ code ++ " \x7d\x7d"

/-- One `key: value` of a request body. -/
def bodyField (nodeNames : NodeNames) (param : String × String) : Except RecipeCompileError String := do
  let code ← jsExpression nodeNames param.2
  return dumpsStr param.1 ++ ": " ++ code

/-- `_json_body`; the typed parameter models hold texts only. -/
def jsonBody (params : List (String × String)) (nodeNames : NodeNames) :
    Except RecipeCompileError String := do
  let fields ← params.mapM (bodyField nodeNames)
  return braced ("JSON.stringify(\x7b" ++ ", ".intercalate fields ++ "\x7d)")

/-- `_response_options`: only the endpoint without a response body is read as text. -/
def responseOptions (action : ActionName) : Json :=
  if action = .slackPost then
    .obj [("response", .obj [("response", .obj [("responseFormat", .str "text")])])]
  else .obj []

/-- The header list of every request node. -/
def requestHeaders : Json :=
  .arr
    [.obj [("name", .str "X-Fleet-Api-Key"), ("value", .str "=\x7b\x7b $env.FLEET_API_KEY \x7d\x7d")],
      .obj [("name", .str "Content-Type"), ("value", .str "application/json")]]

/-- `_http_node`. -/
def httpNode (step : ActionStep) (nodeNames : NodeNames) (position : ℤ × ℤ) :
    Except RecipeCompileError Node := do
  let url ← serviceUrl step.action
  let body ← jsonBody step.params nodeNames
  return {
    parameters := .obj
      [("method", .str "POST"), ("url", .str url), ("sendHeaders", .bool true),
        ("headerParameters", .obj [("parameters", requestHeaders)]), ("sendBody", .bool true),
        ("specifyBody", .str "json"), ("jsonBody", .str body), ("options", responseOptions step.action)]
    id := "http-" ++ step.id
    name := nodeName (.action step)
    type := "n8n-nodes-base.httpRequest"
    typeVersion := .float (.decimal false 42 (-1))
    position := position
    webhookId := none }

/-- The right operand: a number literal of a numeric comparison, else the quoted expression. -/
def rightValue (step : ConditionStep) (nodeNames : NodeNames) : Except RecipeCompileError Json :=
  let quoted := (fun code => Json.str (braced code)) <$> jsExpression nodeNames step.right
  if (operators step.operator).1 = "number" && !hasReference step.right then
    match Json.loads step.right with
    | .ok value => if value.isNumber then .ok value else quoted
    | .error _ => quoted
  else quoted

/-- `_if_node`. -/
def ifNode (step : ConditionStep) (nodeNames : NodeNames) (position : ℤ × ℤ) :
    Except RecipeCompileError Node := do
  let right ← rightValue step nodeNames
  let left ← jsExpression nodeNames step.left
  let (kind, operation) := operators step.operator
  return {
    parameters := .obj
      [("conditions", .obj
          [("options", .obj
              [("caseSensitive", .bool true), ("leftValue", .str ""), ("typeValidation", .str "loose"),
                ("version", .int 2)]),
            ("conditions", .arr
              [.obj
                [("id", .str ("cond-" ++ step.id)), ("leftValue", .str (braced left)),
                  ("rightValue", right),
                  ("operator", .obj [("type", .str kind), ("operation", .str operation)])]]),
            ("combinator", .str "and")]),
        ("options", .obj [])]
    id := "if-" ++ step.id
    name := nodeName (.condition step)
    type := "n8n-nodes-base.if"
    typeVersion := .float (.decimal false 22 (-1))
    position := position
    webhookId := none }

/-- Append a target to an output, creating the outputs before it. -/
def addTarget (main : List (List Target)) (output : ℕ) (target : Target) : List (List Target) :=
  (main ++ List.replicate (output + 1 - main.length) []).modify output fun targets => targets ++ [target]

/-- `_Connections.add`. -/
def Connections.add (connections : Connections) (source : String) (output : ℕ) (target : String) :
    Connections :=
  let data := if connections.any (fun entry => entry.1 = source) then connections
    else connections ++ [(source, [])]
  data.map fun entry =>
    if entry.1 = source then (entry.1, addTarget entry.2 output ⟨target, "main", 0⟩) else entry

/-- An open edge: a source node and the index of its output. -/
abbrev Port := String × ℕ

/-- What the loop over the steps accumulates. -/
structure CompileState where
  nodes : List Node
  connections : Connections
  nodeNames : NodeNames
  pending : List Port
  column : ℕ

/-- Lead every open edge to a node. -/
def connectPending (connections : Connections) (pending : List Port) (name : String) : Connections :=
  pending.foldl (fun connections port => connections.add port.1 port.2 name) connections

/-- Emit an action in the next column and lead the open edges to it. -/
def emitAction (row : ℤ) (state : CompileState) (step : ActionStep) :
    Except RecipeCompileError CompileState := do
  let column := state.column + 1
  let name := nodeName (.action step)
  let nodeNames := (step.id, name) :: state.nodeNames
  let node ← httpNode step nodeNames ((column : ℤ) * 240, row)
  return {
    nodes := state.nodes ++ [node]
    connections := connectPending state.connections state.pending name
    nodeNames := nodeNames
    pending := [(name, 0)]
    column := column }

/-- Emit the `if` node of a condition and lead the open edges to it. -/
def emitCondition (state : CompileState) (step : ConditionStep) :
    Except RecipeCompileError CompileState := do
  let column := state.column + 1
  let name := nodeName (.condition step)
  let nodeNames := (step.id, name) :: state.nodeNames
  let node ← ifNode step nodeNames ((column : ℤ) * 240, 0)
  return {
    nodes := state.nodes ++ [node]
    connections := connectPending state.connections state.pending name
    nodeNames := nodeNames
    pending := []
    column := column }

/-- Emit a branch from one output of its condition. -/
def emitBranch (row : ℤ) (port : Port) (column : ℕ) (state : CompileState) (branch : List ActionStep) :
    Except RecipeCompileError CompileState :=
  branch.foldlM (emitAction row) { state with pending := [port], column := column }

/-- One round of the loop over the steps. -/
def compileStep (state : CompileState) : Step → Except RecipeCompileError CompileState
  | .action step => emitAction 0 state step
  | .condition step => do
    let name := nodeName (.condition step)
    let atIf ← emitCondition state step
    let afterThen ← emitBranch (-160) (name, 0) atIf.column atIf step.thenSteps
    let afterElse ← emitBranch 160 (name, 1) atIf.column afterThen step.elseSteps
    return { afterElse with
      pending := afterThen.pending ++ afterElse.pending
      column := atIf.column + max step.thenSteps.length step.elseSteps.length }

/-- The node of the schedule trigger. -/
def scheduleNode (cron : String) : Node where
  parameters := .obj
    [("rule", .obj
      [("interval", .arr [.obj [("field", .str "cronExpression"), ("expression", .str cron)]])])]
  id := "trigger-schedule"
  name := "Schedule"
  type := "n8n-nodes-base.scheduleTrigger"
  typeVersion := .float (.decimal false 12 (-1))
  position := (-400, 0)
  webhookId := none

/-- The webhook node behind "Run now", which every recipe gets. -/
def manualNode (recipeName : String) : Node where
  parameters := .obj
    [("httpMethod", .str "POST"), ("path", .str (webhookPath recipeName)),
      ("responseMode", .str "onReceived"), ("options", .obj [])]
  id := "trigger-webhook"
  name := "Manual run (from Fleet)"
  type := "n8n-nodes-base.webhook"
  typeVersion := .int 2
  position := (-400, 160)
  webhookId := some (webhookId recipeName)

/-- The trigger nodes of a recipe. -/
def triggerNodes (recipe : Recipe) : List Node :=
  match recipe.trigger with
  | .schedule cron => [scheduleNode cron, manualNode recipe.name]
  | .manual => [manualNode recipe.name]

/-- The state before the first step: each trigger waits for it on its output 0. -/
def initialState (recipe : Recipe) : CompileState where
  nodes := triggerNodes recipe
  connections := []
  nodeNames := []
  pending := (triggerNodes recipe).map fun node => (node.name, 0)
  column := 0

/-- `compile_recipe`. -/
def compileRecipe (recipe : Recipe) : Except RecipeCompileError Workflow := do
  let state ← recipe.steps.foldlM compileStep (initialState recipe)
  let unexpected := (state.nodes.map Node.type).filter fun type => type ∉ allowedNodeTypes
  if unexpected ≠ [] then .error (.nodeTypes unexpected)
  else return {
    name := workflowName recipe.name
    nodes := state.nodes
    connections := state.connections
    settings := .obj [("executionOrder", .str "v1")] }

end FleetWorkflow.Recipes
