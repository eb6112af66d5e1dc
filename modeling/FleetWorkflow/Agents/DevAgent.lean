import FleetWorkflow.Agents.Replies
import FleetWorkflow.Agents.Tools

/-!
# The dev agent

Ticket, plan, branch, pull request, Slack notice: a fixed pipeline with one interrupt before the
pull request. The guardrails end a run before it touches the repository.
-/

namespace FleetWorkflow.Agents.DevAgent

open Python Async Core

/-! ## Guardrails -/

/-- Paths that a plan may not touch start with one of these. -/
def protectedPathPrefixes : List String := ["infra/", ".github/"]

/-- The most lines that a plan may estimate. -/
def maxDiffLines : ℤ := 400

section Guardrails

variable (py : Builtins)

/-- `assert_ticket_labeled`. -/
def assertTicketLabeled (ticket : Json) : Except Exc Unit := do
  let labels ← ticket.getOr "labels" (.arr [])
  if ← labels.contains "agent-ok" then return ()
  else
    let key ← ticket.getOr "key" (.str "?")
    .error ⟨.ticketNotLabeled, "ticket " ++ py.repr key ++ " is missing the required 'agent-ok' label"⟩

/-- `assert_no_protected_paths`. -/
def assertNoProtectedPaths (paths : List String) : Except Exc Unit :=
  match paths.find? fun path => protectedPathPrefixes.any (startsWith path) with
  | some path => .error ⟨.protectedPath, "plan touches protected path: " ++ py.repr (.str path)⟩
  | none => .ok ()

/-- `assert_diff_size_ok`. -/
def assertDiffSizeOk (lineCount : ℤ) : Except Exc Unit :=
  if maxDiffLines < lineCount then
    .error ⟨.diffTooLarge, "planned diff is " ++ toString lineCount ++ " lines, exceeds the " ++
      toString maxDiffLines ++ "-line cap"⟩
  else .ok ()

/-! ## Plans -/

/-- What the model proposes for a ticket. -/
structure DevAgentPlan where
  branchSuffix : String
  prTitle : String
  prBody : String
  targetPaths : List String
  diffLineEstimate : ℤ

/-- The fields that a plan response has to have. -/
def requiredFields : List String :=
  ["branch_suffix", "pr_title", "pr_body", "target_paths", "diff_line_estimate"]

/-- The instruction of the planning call. -/
def planPrompt : String :=
  "You are a software engineering planning assistant. Given a Jira ticket, propose a minimal, " ++
  "reviewable change that resolves it.\n\n" ++
  "Respond with exactly one JSON object and nothing else — no markdown code fences, no commentary:\n" ++
  "\x7b\n" ++
  "  \"branch_suffix\": \"<short-kebab-case-slug, no 'agent/' prefix>\",\n" ++
  "  \"pr_title\": \"<concise PR title>\",\n" ++
  "  \"pr_body\": \"<PR description, reference the ticket key>\",\n" ++
  "  \"target_paths\": [\"<file path the change would touch>\", ...],\n" ++
  "  \"diff_line_estimate\": <integer, rough estimated lines changed>\n" ++
  "\x7d\n"

/-- Parse a plan response. -/
def parsePlan (content : String) : Except Exc DevAgentPlan := do
  let parsed ← loadsOr ⟨.parseError, "model did not return valid JSON: " ++ py.repr (.str content)⟩
    (stripCodeFence content)
  let missing ← missingFields parsed requiredFields
  if missing ≠ [] then
    .error ⟨.parseError, "plan response missing field(s): " ++ py.repr (.arr (missing.map .str))⟩
  else
    let branchSuffix ← parsed.item "branch_suffix"
    let prTitle ← parsed.item "pr_title"
    let prBody ← parsed.item "pr_body"
    let targetPaths ← (← parsed.item "target_paths").iterate
    let diffLineEstimate ← py.int (← parsed.item "diff_line_estimate")
    return ⟨py.str branchSuffix, py.str prTitle, py.str prBody, targetPaths.map py.str, diffLineEstimate⟩

/-- `plan_ticket`: one model call, then the parse. -/
def planTicket (actor : Actor) (ticket : Json) : Coroutine DevAgentPlan := do
  let key ← Prog.ofExcept (ticket.getOr "key" (.str "?"))
  let summary ← Prog.ofExcept (ticket.getOr "summary" (.str ""))
  let response ← await (.llm actor "reasoning"
    [chatMessage "system" planPrompt,
      chatMessage "user" ("Ticket " ++ py.str key ++ ": " ++ py.str summary)]
    [("sensitivity", .str "internal")])
  Prog.ofExcept (parsePlan py response.content)

/-- The dictionary that a plan is kept as in the state. -/
def DevAgentPlan.asDict (plan : DevAgentPlan) : Json :=
  .obj [("branch_suffix", .str plan.branchSuffix), ("pr_title", .str plan.prTitle),
    ("pr_body", .str plan.prBody), ("target_paths", .arr (plan.targetPaths.map .str)),
    ("diff_line_estimate", .int plan.diffLineEstimate)]

end Guardrails

/-! ## Nodes -/

/-- The name of the agent's row. -/
def agentName : String := "dev_agent"

/-- The channel of the notice, the only one that its tool allows. -/
def slackChannel : String := "#dev-agent"

/-- The branch that runs start from. -/
def baseRef : String := "main"

/-- The nodes of the graph. -/
inductive Node where
  | killswitchGate
  | fetchTicket
  | checkGuardrails
  | plan
  | createBranch
  | hitl
  | openPr
  | slackNotify
  | citationEnd
deriving DecidableEq

/-- The names of the nodes. -/
def nodeNames : NodeNames Node where
  nodes := [.killswitchGate, .fetchTicket, .checkGuardrails, .plan, .createBranch, .hitl, .openPr,
    .slackNotify, .citationEnd]
  name
    | .killswitchGate => "killswitch_gate"
    | .fetchTicket => "fetch_ticket"
    | .checkGuardrails => "check_guardrails"
    | .plan => "plan"
    | .createBranch => "create_branch"
    | .hitl => "hitl"
    | .openPr => "open_pr"
    | .slackNotify => "slack_notify"
    | .citationEnd => "citation_end"
  find_name node := by cases node <;> rfl

section Nodes

variable (py : Builtins) (actor : Actor)

/-- Fetch the ticket of the run. -/
def fetchTicket (state : Dict) : Coroutine NodeOutcome := do
  let key ← Prog.ofExcept (Json.field state "ticket_key")
  let ticket ← await (.tool actor jiraGetIssue [("key", key)])
  return .wrote [("ticket", ticket)]

/-- The writes of a node that its guardrail blocked, if it is one of the guardrail's exceptions. -/
def blockedBy (kinds : List ExcKind) (describe : String → String) (error : Exc) : Option NodeOutcome :=
  if error.kind ∈ kinds then some (.wrote [("blocked_reason", .str (describe error.message))]) else none

/-- Only labelled tickets go on. -/
def checkGuardrails (state : Dict) : Coroutine NodeOutcome := do
  let ticket ← Prog.ofExcept (Json.field state "ticket")
  let check : Coroutine NodeOutcome := do
    Prog.ofExcept (assertTicketLabeled py ticket)
    return .wrote []
  check.handle (blockedBy [.ticketNotLabeled] id)

/-- Plan the change and check the plan. -/
def plan (state : Dict) : Coroutine NodeOutcome := do
  let ticket ← Prog.ofExcept (Json.field state "ticket")
  match ← (planTicket py actor ticket).attempt with
  | .error error =>
    match blockedBy [.parseError] ("plan generation failed: " ++ ·) error with
    | some outcome => return outcome
    | none => .raise error
  | .ok planned =>
    let check : Coroutine NodeOutcome := do
      Prog.ofExcept (assertNoProtectedPaths py planned.targetPaths)
      Prog.ofExcept (assertDiffSizeOk planned.diffLineEstimate)
      return .wrote [("plan", planned.asDict)]
    check.handle (blockedBy [.protectedPath, .diffTooLarge] id)

/-- The text that the branch's first commit carries. -/
def draftNote (state : Dict) (planned : Json) : Except Exc String := do
  let ticketKey ← Json.field state "ticket_key"
  let prTitle ← planned.item "pr_title"
  let summary ← (← Json.field state "ticket").getOr "summary" (.str "")
  let targetPaths ← joinTexts ", " (← (← planned.item "target_paths").iterate)
  return "Dev Agent draft for " ++ py.str ticketKey ++ ": " ++ py.str prTitle ++ "

Ticket: " ++
    py.str summary ++ "
Target paths (proposed): " ++ targetPaths ++ "
"

/-- Create the branch under a run-unique name and commit the draft note to it. -/
def createBranch (state : Dict) : Coroutine NodeOutcome := do
  let runToken ← await .uuidToken
  let planned ← Prog.ofExcept (Json.field state "plan")
  let suffix ← Prog.ofExcept (planned.item "branch_suffix")
  let branchName := "agent/" ++ py.str suffix ++ "-" ++ runToken
  let _ ← createBranchTool py actor branchName baseRef
  let note ← Prog.ofExcept (draftNote py state planned)
  let ticketKey ← Prog.ofExcept (Json.field state "ticket_key")
  let _ ← commitFileTool py actor branchName "AGENT_DRAFT_NOTES.md" note
    ("Dev Agent draft notes for " ++ py.str ticketKey)
  return .wrote [("branch_name", .str branchName)]

/-- The arguments of the pull request, read from a state. -/
def openPrArgs (state : Dict) : Except Exc Dict := do
  let branchName ← Json.field state "branch_name"
  let planned ← Json.field state "plan"
  let title ← planned.item "pr_title"
  let body ← planned.item "pr_body"
  return [("branch_name", branchName), ("title", title), ("body", body)]

/-- The payload of the interrupt. -/
def openPrPayload (args : Dict) : Json :=
  .obj [("tool", .str githubOpenPr.name), ("risk_class", .str githubOpenPr.riskClass), ("args", .obj args)]

/-- The interrupt before the pull request, which always waits for an approval. -/
def hitl (resume : Option Json) (state : Dict) : Coroutine NodeOutcome := do
  assertRequiresApproval py githubOpenPr
  let args ← Prog.ofExcept (openPrArgs state)
  interrupt (openPrPayload args) resume rejectUnlessApproved

/-- Open the pull request. -/
def openPr (state : Dict) : Coroutine NodeOutcome := do
  let args ← Prog.ofExcept (openPrArgs state)
  let result ← await (.tool actor githubOpenPr args)
  return .wrote [("pr_result", result)]

/-- Tell the channel; a notice that fails is only recorded. -/
def slackNotify (state : Dict) : Coroutine NodeOutcome := do
  let prUrl ← Prog.ofExcept (do (← Json.field state "pr_result").getOr "html_url" (.str ""))
  let title ← Prog.ofExcept (do (← Json.field state "plan").item "pr_title")
  let ticketKey ← Prog.ofExcept (Json.field state "ticket_key")
  let text := "Dev Agent opened PR for " ++ py.str ticketKey ++ ": " ++ py.str title ++ " " ++ py.str prUrl
  match ← (slackPostTool py actor [slackChannel] slackChannel text).attempt with
  | .ok _ => return .wrote []
  | .error error => return .wrote [("slack_notify_error", .str error.message)]

/-- `build_dev_agent_graph`. -/
def graph (killswitch : Option KillSwitch) : AgentGraph Node where
  entry := .killswitchGate
  merge := Json.merge
  body node resume state :=
    match node with
    | .killswitchGate => killswitchGate killswitch agentName
    | .fetchTicket => fetchTicket actor state
    | .checkGuardrails => checkGuardrails py state
    | .plan => plan py actor state
    | .createBranch => createBranch py actor state
    | .hitl => hitl py resume state
    | .openPr => openPr actor state
    | .slackNotify => slackNotify py actor state
    | .citationEnd => return .wrote []
  route node state :=
    match node with
    | .killswitchGate => .ok (if Json.flag state "paused" then none else some .fetchTicket)
    | .fetchTicket => .ok (some .checkGuardrails)
    | .checkGuardrails => .ok (some (if Json.flag state "blocked_reason" then .citationEnd else .plan))
    | .plan => .ok (some (if Json.flag state "blocked_reason" then .citationEnd else .createBranch))
    | .createBranch => .ok (some .hitl)
    | .hitl => .ok (some (if Json.flag state "rejected" then .citationEnd else .openPr))
    | .openPr => .ok (some .slackNotify)
    | .slackNotify => .ok (some .citationEnd)
    | .citationEnd => .ok none

end Nodes

/-! ## What each node calls -/

/-- The tools that each node calls. -/
def nodeTools : Node → List ToolSpec
  | .fetchTicket => [jiraGetIssue]
  | .createBranch => [githubCreateBranch, githubCommitFile]
  | .openPr => [githubOpenPr]
  | .slackNotify => [slackPost]
  | _ => []

/-- The node that calls the model. -/
def callsModel (node : Node) : Bool := node = .plan

/-- Each node makes its own calls only. -/
theorem only_body (py : Builtins) (actor : Actor) (killswitch : Option KillSwitch) (node : Node)
    (resume : Option Json) (state : Dict) :
    ((graph py actor killswitch).body node resume state).Only
      (NodeCall actor (nodeTools node) (callsModel node)) := by
  cases node with
  | killswitchGate => exact nodeCall_killswitchGate killswitch agentName
  | fetchTicket =>
    exact (Prog.only_ofExcept _).bind fun _ => (Prog.only_call ⟨rfl, by decide⟩).bind fun _ => trivial
  | checkGuardrails =>
    exact (Prog.only_ofExcept _).bind fun _ => ((Prog.only_ofExcept _).bind fun _ => Prog.only_pure _).handle
  | plan =>
    refine (Prog.only_ofExcept _).bind fun ticket => Prog.Only.bind ?_ fun planned => ?_
    · exact Prog.Only.attempt ((Prog.only_ofExcept _).bind fun _ => (Prog.only_ofExcept _).bind fun _ =>
        (Prog.only_call ⟨rfl, rfl⟩).bind fun _ => Prog.only_ofExcept _)
    · match planned with
      | .ok planned =>
        exact ((Prog.only_ofExcept _).bind fun _ => (Prog.only_ofExcept _).bind fun _ =>
          Prog.only_pure _).handle
      | .error error =>
        show Prog.Only _ (match blockedBy _ _ error with | some outcome => _ | none => _)
        split <;> trivial
  | createBranch =>
    exact (Prog.only_call trivial).bind fun _ => (Prog.only_ofExcept _).bind fun _ =>
      (Prog.only_ofExcept _).bind fun _ => (only_createBranchTool py _ _ (by decide)).bind fun _ =>
      (Prog.only_ofExcept _).bind fun _ => (Prog.only_ofExcept _).bind fun _ =>
      (only_commitFileTool py _ _ _ _ (by decide)).bind fun _ => trivial
  | hitl =>
    exact (only_assertRequiresApproval py _).bind fun _ => (Prog.only_ofExcept _).bind fun _ =>
      nodeCall_interrupt _ resume _
  | openPr =>
    exact (Prog.only_ofExcept _).bind fun _ => (Prog.only_call ⟨rfl, by decide⟩).bind fun _ => trivial
  | slackNotify =>
    refine (Prog.only_ofExcept _).bind fun _ => (Prog.only_ofExcept _).bind fun _ =>
      (Prog.only_ofExcept _).bind fun _ => (only_slackPostTool py _ _ _ (by decide)).attempt.bind fun posted => ?_
    cases posted <;> trivial
  | citationEnd => trivial

end FleetWorkflow.Agents.DevAgent
