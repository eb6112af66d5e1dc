import FleetWorkflow.Core.BaseGraph

/-!
# The tools of the agents

The tool servers that the agents call, with the risk class under which each tool is registered and
the checks that a tool makes before it reaches its backend. What a backend does is not modelled: a
tool call is one awaited call with its arguments.
-/

namespace FleetWorkflow.Agents

open Python Async Core

/-! ## Registered tools -/

def jiraGetIssue : ToolSpec := ⟨"jira.get_issue", "read"⟩
def githubCreateBranch : ToolSpec := ⟨"github.create_branch", "write:internal"⟩
def githubCommitFile : ToolSpec := ⟨"github.commit_file", "write:internal"⟩
def githubOpenPr : ToolSpec := ⟨"github.open_pr", "write:external"⟩
def slackPost : ToolSpec := ⟨"slack.post", "write:internal"⟩
def ocrExtractText : ToolSpec := ⟨"ocr.extract_text", "read"⟩
def pgRoQuery : ToolSpec := ⟨"pg_ro.query", "read"⟩
def erpCreateDraftEntry : ToolSpec := ⟨"erp.create_draft_entry", "write:external"⟩
def emailSend : ToolSpec := ⟨"email.send", "write:external"⟩
def crmGetApplication : ToolSpec := ⟨"crm.get_application", "read"⟩
def crmUpdateStatus : ToolSpec := ⟨"crm.update_status", "write:internal"⟩
def cmsPublish : ToolSpec := ⟨"cms.publish", "write:external"⟩
def listingsFlag : ToolSpec := ⟨"listings.flag", "write:internal"⟩

/-- A tool with an effect outside the process that only reads. -/
def ToolSpec.isWrite (tool : ToolSpec) : Bool := startsWith tool.riskClass "write:"

/-! ## Checks before the backend -/

section Checks

variable (py : Builtins) (actor : Actor)

/-- `^agent/.+` from the start of a branch name; the dot matches anything but a newline. -/
def matchesAgentBranch (branchName : String) : Bool :=
  match branchName.toList with
  | 'a' :: 'g' :: 'e' :: 'n' :: 't' :: '/' :: c :: _ => c ≠ '\n'
  | _ => false

/-- The exception of a branch name outside the pattern. -/
def branchNamePatternError (branchName : String) : Exc :=
  ⟨.branchNamePattern, "branch name " ++ py.repr (.str branchName) ++ " does not match required pattern 'agent/*'"⟩

/-- `GitHubTool.create_branch`. -/
def createBranchTool (branchName fromRef : String) : Coroutine Json :=
  if matchesAgentBranch branchName then
    await (.tool actor githubCreateBranch [("branch_name", .str branchName), ("from_ref", .str fromRef)])
  else .raise (branchNamePatternError py branchName)

/-- `GitHubTool.commit_file`. -/
def commitFileTool (branchName path content message : String) : Coroutine Json :=
  if matchesAgentBranch branchName then
    await (.tool actor githubCommitFile [("branch_name", .str branchName), ("path", .str path),
      ("content", .str content), ("message", .str message)])
  else .raise (branchNamePatternError py branchName)

/-- `SlackPostTool.post`. -/
def slackPostTool (allowedChannels : List String) (channel text : String) : Coroutine Json :=
  if channel ∈ allowedChannels then
    await (.tool actor slackPost [("channel", .str channel), ("text", .str text)])
  else .raise ⟨.disallowedChannel, "channel not allowed: " ++ py.repr (.str channel)⟩

/-- The domain of an address that matches `^[^@\s]+@([^@\s]+)$`. -/
def recipientDomain (recipient : String) : Option String :=
  let isPart (c : Char) : Bool := c ≠ '@' && !isSpace c
  match recipient.toList.span isPart with
  | ([], _) => none
  | (_, '@' :: rest) =>
    let domain := dropFinalNewline rest
    if domain ≠ [] && domain.all isPart then some (String.ofList domain) else none
  | _ => none

/-- `is_allowed_recipient`. -/
def isAllowedRecipient (recipient : String) (allowedDomains : List String) : Bool :=
  match recipientDomain recipient with
  | some domain => domain ∈ allowedDomains
  | none => false

/-- The domains that both e-mail tools of the fleet allow. -/
def allowedEmailDomains : List String := ["fleet.local", "example.com"]

/-- `EmailSendTool.send`; a recipient that is not a string is no text to match. -/
def emailSendTool (recipient subject body : Json) : Coroutine Json :=
  match recipient with
  | .str address =>
    if isAllowedRecipient address allowedEmailDomains then
      await (.tool actor emailSend [("to", recipient), ("subject", subject), ("body", body)])
    else .raise ⟨.invalidRecipient, "recipient not allowed: " ++ py.repr recipient⟩
  | _ => .raise ⟨.typeError, "expected string or bytes-like object"⟩

/-- `CrmTool.update_status` with one of the known statuses. -/
def updateStatusTool (applicationId : Json) (status note : String) : Coroutine Json :=
  await (.tool actor crmUpdateStatus
    [("application_id", applicationId), ("status", .str status), ("note", .str note)])

end Checks

/-- `assert requires_approval(...)` for a tool without an autonomy path. -/
def assertRequiresApproval (py : Builtins) (tool : ToolSpec) : Coroutine Unit := do
  let needed ← Prog.ofExcept (requiresApproval py tool.riskClass (.decimal false 0 0) false)
  if needed then return () else .raise ⟨.assertionError, ""⟩

/-! ## Which calls a node makes -/

/-- The calls of a node on behalf of an actor: the gate, reads, the given tools, and the model if
the node calls it. -/
def NodeCall (actor : Actor) (tools : List ToolSpec) (model : Bool) : Call → Prop
  | .tool caller tool _ => caller = actor ∧ tool ∈ tools
  | .llm caller _ _ _ => caller = actor ∧ model = true
  | .redisGet _ | .readPauseCache _ _ | .writePauseCache _ _ _ _ | .uuidToken | .query _ _ => True
  | _ => False

variable {actor : Actor} {tools : List ToolSpec} {model : Bool}

/-- The pause gate makes the calls of any node. -/
theorem nodeCall_killswitchGate (killswitch : Option KillSwitch) (agentName : String) :
    (killswitchGate killswitch agentName).Only (NodeCall actor tools model) := by
  cases killswitch with
  | none => trivial
  | some switch =>
    refine Prog.Only.bind ?_ fun paused => by cases paused <;> trivial
    have hlookup : ∀ time, (switch.lookupPaused agentName time).Only (NodeCall actor tools model) :=
      fun time => (Prog.only_call trivial).bind fun _ => (Prog.only_call trivial).bind fun _ => trivial
    refine (Prog.only_call trivial).bind fun cached => ?_
    match cached with
    | (time, none) => exact hlookup time
    | (time, some (paused, since)) =>
      show Prog.Only _ (if time - since < pauseCacheTtl then _ else _)
      split
      · trivial
      · exact hlookup time

/-- The assertion makes no call. -/
theorem only_assertRequiresApproval (py : Builtins) (tool : ToolSpec) {calls : Call → Prop} :
    (assertRequiresApproval py tool).Only calls := by
  refine (Prog.only_ofExcept _).bind fun needed => ?_
  cases needed <;> trivial

/-- `create_branch` calls its tool, if the name passes. -/
theorem only_createBranchTool (py : Builtins) (branchName fromRef : String)
    (h : githubCreateBranch ∈ tools) : (createBranchTool py actor branchName fromRef).Only (NodeCall actor tools model) := by
  rw [createBranchTool]
  split
  · exact Prog.only_call ⟨rfl, h⟩
  · trivial

/-- `commit_file` calls its tool, if the name passes. -/
theorem only_commitFileTool (py : Builtins) (branchName path content message : String)
    (h : githubCommitFile ∈ tools) :
    (commitFileTool py actor branchName path content message).Only (NodeCall actor tools model) := by
  rw [commitFileTool]
  split
  · exact Prog.only_call ⟨rfl, h⟩
  · trivial

/-- `slack.post` calls its tool, if the channel is allowed. -/
theorem only_slackPostTool (py : Builtins) (allowedChannels : List String) (channel text : String)
    (h : slackPost ∈ tools) :
    (slackPostTool py actor allowedChannels channel text).Only (NodeCall actor tools model) := by
  rw [slackPostTool]
  split
  · exact Prog.only_call ⟨rfl, h⟩
  · trivial

/-- `email.send` calls its tool, if the recipient is allowed. -/
theorem only_emailSendTool (py : Builtins) (recipient subject body : Json) (h : emailSend ∈ tools) :
    (emailSendTool py actor recipient subject body).Only (NodeCall actor tools model) := by
  cases recipient with
  | str address =>
    rw [emailSendTool]
    split
    · exact Prog.only_call ⟨rfl, h⟩
    · trivial
  | _ => trivial

/-- An interrupt makes no call. -/
theorem nodeCall_interrupt (payload : Json) (resume : Option Json) (onDecision : Json → Except Exc Dict)
    {calls : Call → Prop} : (interrupt payload resume onDecision).Only calls := by
  cases resume with
  | none => trivial
  | some decision => exact (Prog.only_ofExcept _).bind fun _ => trivial

/-!
## Whole runs of a graph

A run on behalf of an actor announces its nodes, reads and writes the checkpoint of its own thread,
and makes the calls of its nodes: it comes near no other thread, no row and no flag.
-/

/-- The model replied with a content. -/
def RepliedWith (content : String) : Event Call Reply Exc → Prop
  | ⟨.llm _ _ _ _, .ok response⟩ => response.content = content
  | _ => False

/-- The calls of a run on behalf of an actor. -/
def RunCall (actor : Actor) : Call → Prop
  | .enter caller _ | .llm caller _ _ _ | .tool caller _ _ => caller = actor
  | .loadCheckpoint thread | .putCheckpoint thread _ => thread = actor.thread
  | .redisGet _ | .readPauseCache _ _ | .writePauseCache _ _ _ _ | .uuidToken | .query _ _ => True
  | _ => False

/-- The calls of a node are calls of its run. -/
theorem NodeCall.run {actor : Actor} {tools : List ToolSpec} {model : Bool} {c : Call}
    (h : NodeCall actor tools model c) : RunCall actor c := by
  cases c with
  | tool caller tool args => exact h.1
  | llm caller method messages kwargs => exact h.1
  | redisGet key => trivial
  | readPauseCache killswitch agent => trivial
  | writePauseCache killswitch agent paused time => trivial
  | uuidToken => trivial
  | query name args => trivial
  | _ => exact h.elim

/-- Announcing a node. -/
theorem only_enter (actor : Actor) (node : String) :
    (await (.enter actor node) : Coroutine Unit).Only (RunCall actor) := Prog.only_call rfl

/-- Loading the checkpoint of a thread. -/
theorem only_load {ν : Type} (names : NodeNames ν) (actor : Actor) :
    (threadSaver names actor).load.Only (RunCall actor) := by
  have hload : (Prog.call (.loadCheckpoint actor.thread) : Coroutine _).Only (RunCall actor) :=
    Prog.only_call rfl
  refine hload.bind fun saved => ?_
  cases saved <;> trivial

section Graph

variable {ν : Type} {graph : AgentGraph ν} {names : NodeNames ν} {actor : Actor} {tools : ν → List ToolSpec}
  {model : ν → Bool} (hbody : ∀ node resume values,
    (graph.body node resume values).Only (NodeCall actor (tools node) (model node)))

include hbody

/-- A new run makes the calls of a run. -/
theorem only_ainvoke (input : Dict) : (ainvoke graph (threadSaver names actor) input).Only (RunCall actor) := by
  apply StateGraph.only_invoke
  · exact fun node resume values => (hbody node resume values).mono fun _ => NodeCall.run
  · exact fun _ => only_enter actor _
  · exact only_load names actor
  · exact fun _ => Prog.only_call rfl

/-- A resumed run makes the calls of a run. -/
theorem only_aresume (decision : Json) :
    (aresume graph (threadSaver names actor) decision).Only (RunCall actor) := by
  apply StateGraph.only_resume
  · exact fun node resume values => (hbody node resume values).mono fun _ => NodeCall.run
  · exact fun _ => only_enter actor _
  · exact only_load names actor
  · exact fun _ => Prog.only_call rfl

end Graph

end FleetWorkflow.Agents
