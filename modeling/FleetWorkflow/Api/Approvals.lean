import FleetWorkflow.Agents.Tools
import FleetWorkflow.Api.StartRuns

/-!
# Deciding approvals

The decision on a pending approval and the handlers that carry it out. The decision is committed
first; the handler of the row's agent then resumes the run's graph with it, or, for a recipe step,
performs the queued action itself. Handlers are registered by the names of agents.
-/

namespace FleetWorkflow.Api

open Python Async Core Agents

/-- The body of a decision. -/
structure DecisionIn where
  decision : String
  editedPayload : Option Dict

/-- `body.decision == "approve"`. -/
def DecisionIn.approves (body : DecisionIn) : Bool := body.decision = "approve"

/-- The status that a decision leads to. -/
def decidedStatus (approved : Bool) : String := if approved then "approved" else "rejected"

/-- The name under which recipe steps are filed. -/
def recipeAgentName : String := "automation_recipe"

/-! ## Resume handlers -/

/-- The value that a graph is resumed with. -/
def resumeValue (approved : Bool) : Json := .obj [("approved", .bool approved)]

section Resumers

variable (fleet : Fleet) (runId : String) (approved : Bool)

/-- The handlers that resume a graph: rebuild it on the run's thread and hand the decision to it. -/
def resumeGraph {ν : Type} (graph : Actor → AgentGraph ν) (names : NodeNames ν) (agentName : String) :
    Coroutine Unit := do
  await .buildClient
  let actor : Actor := ⟨agentName, runId⟩
  let _ ← aresume (graph actor) (threadSaver names actor) (resumeValue approved)

/-- `_resume_dev_agent_run`. -/
def resumeDevAgentRun : Coroutine Unit :=
  resumeGraph runId approved (fun actor => DevAgent.graph fleet.py actor none) DevAgent.nodeNames DevAgent.agentName

/-- `_resume_invoice_agent_run`. -/
def resumeInvoiceAgentRun : Coroutine Unit :=
  resumeGraph runId approved (fun actor => InvoiceAgent.graph fleet.py fleet.exceedsTolerance actor none [])
    InvoiceAgent.nodeNames InvoiceAgent.agentName

/-- `_resume_hr_agent_run`. -/
def resumeHrAgentRun : Coroutine Unit :=
  resumeGraph runId approved (fun actor => HrAgent.graph fleet.py fleet.hr actor none) HrAgent.nodeNames
    HrAgent.agentName

/-- `_resume_dealer_onboarding_run`. -/
def resumeDealerOnboardingRun : Coroutine Unit :=
  resumeGraph runId approved (fun actor => DealerOnboarding.graph fleet.py fleet.dealer actor none)
    DealerOnboarding.nodeNames DealerOnboarding.agentName

/-- The texts of a queued message, each `str(payload[key])`. -/
def recipeEmail (payload : Dict) : Except Exc (String × String × String) := do
  let recipient ← Json.field payload "to"
  let subject ← Json.field payload "subject"
  let body ← Json.field payload "body"
  return (fleet.py.str recipient, fleet.py.str subject, fleet.py.str body)

/-- Perform a queued recipe step from the approval's own payload. -/
def performRecipeStep (approval : ApprovalRow) : Coroutine Unit :=
  if approval.action = "email.send" then do
    await (.enter ⟨recipeAgentName, runId⟩ "email.send")
    let (recipient, subject, body) ← Prog.ofExcept (recipeEmail fleet approval.payload)
    let _ ← emailSendTool fleet.py ⟨recipeAgentName, runId⟩ (.str recipient) (.str subject) (.str body)
  else httpError 500 ("no handler for recipe action " ++ fleet.py.repr (.str approval.action))

/-- `_resume_automation_recipe`. -/
def resumeAutomationRecipe : Coroutine Unit :=
  if !approved then return ()
  else do
    match ← await (.findApprovalByRun runId) with
    | none => return ()
    | some approval => performRecipeStep fleet runId approval

/-- `_RESUMERS`. -/
def resumers : List (String × Coroutine Unit) :=
  [(DevAgent.agentName, resumeDevAgentRun fleet runId approved),
    (InvoiceAgent.agentName, resumeInvoiceAgentRun fleet runId approved),
    (HrAgent.agentName, resumeHrAgentRun fleet runId approved),
    (DealerOnboarding.agentName, resumeDealerOnboardingRun fleet runId approved),
    (recipeAgentName, resumeAutomationRecipe fleet runId approved)]

/-- The handler that is registered for an agent's name. -/
def resumerOf (agentName : String) : Option (Coroutine Unit) :=
  ((resumers fleet runId approved).find? fun entry => entry.1 = agentName).map Prod.snd

/-- The handler of an agent, with the notice that it starts. -/
def resumeRun (agentName : String) (resumer : Coroutine Unit) : Coroutine Unit := do
  await (.resumeStarted agentName runId approved)
  resumer

end Resumers

/-- The names for which a handler is registered. -/
def resumableAgents : List String :=
  [DevAgent.agentName, InvoiceAgent.agentName, HrAgent.agentName, DealerOnboarding.agentName, recipeAgentName]

/-! ## The decision -/

/-- The row of an id, while it can still be decided. -/
def pendingApproval (approvalId : ℕ) : Coroutine ApprovalRow := do
  match ← await (.getApproval approvalId) with
  | none => httpError 404 "approval not found"
  | some approval =>
    if approval.status ≠ "pending" then httpError 409 ("approval already " ++ approval.status)
    else return approval

/-- The name of an approval's agent, if a handler is registered for it. -/
def resumableAgent (fleet : Fleet) (approval : ApprovalRow) : Coroutine String := do
  let noHandler (label : String) : Coroutine String :=
    httpError 500 ("no resume handler registered for agent " ++ fleet.py.repr (.str label))
  match ← await (.getAgent approval.agentId) with
  | none => noHandler ("id=" ++ toString approval.agentId)
  | some agentRow => if agentRow.name ∈ resumableAgents then return agentRow.name else noHandler agentRow.name

/-- `session.refresh(approval)` after the commit. -/
def refreshApproval (id : ℕ) : Coroutine ApprovalRow := do
  match ← await (.getApproval id) with
  | some row => return row
  | none => .raise ⟨.external, "Could not refresh instance"⟩

/-- Hand the committed decision to the registered handler. -/
def carryOut (fleet : Fleet) (agentName runId : String) (approved : Bool) : Coroutine Unit :=
  match resumerOf fleet runId approved agentName with
  | some resumer => resumeRun runId approved agentName resumer
  | none => .raise ⟨.keyError, fleet.py.repr (.str agentName)⟩

/-- `POST /v1/approvals/(approval_id)/decide`; `sub` is the current user. -/
def decideApproval (fleet : Fleet) (approvalId : ℕ) (body : DecisionIn) (sub : String) : Coroutine ApprovalRow :=
  if body.decision ≠ "approve" ∧ body.decision ≠ "reject" then
    httpError 422 "decision must be 'approve' or 'reject'"
  else do
    let approval ← pendingApproval approvalId
    let agentName ← resumableAgent fleet approval
    await (.commitDecision approval.id body.editedPayload (decidedStatus body.approves) sub)
    let approval ← refreshApproval approval.id
    carryOut fleet agentName approval.runId body.approves
    return approval

/-!
## What the handlers call

Which calls the resume handlers and the runs behind the routers can make, whatever the replies are.
-/

/-- The calls of a resume handler: those of its run, a client, and the row of a recipe step. -/
def ResumeCall (actor : Actor) : Call → Prop
  | .buildClient | .findApprovalByRun _ => True
  | c => RunCall actor c

/-- The calls of a run are calls of a resume handler. -/
theorem resumeCall_of_runCall {actor : Actor} {c : Call} (h : RunCall actor c) : ResumeCall actor c := by
  cases c with
  | buildClient => trivial
  | findApprovalByRun runId => trivial
  | _ => exact h

section Resumers

variable (fleet : Fleet) (runId : String) (approved : Bool)

/-- Resuming a graph. -/
theorem only_resumeGraph {ν : Type} (graph : Actor → AgentGraph ν) (names : NodeNames ν) {agentName : String}
    {tools : ν → List ToolSpec} {model : ν → Bool} (hbody : ∀ node resume values,
      ((graph ⟨agentName, runId⟩).body node resume values).Only
        (NodeCall ⟨agentName, runId⟩ (tools node) (model node))) :
    (resumeGraph runId approved graph names agentName).Only (ResumeCall ⟨agentName, runId⟩) :=
  (Prog.only_call trivial).bind fun _ =>
    ((only_aresume hbody _).mono fun _ => resumeCall_of_runCall).bind fun _ => Prog.only_pure _

/-- Performing a recipe step. -/
theorem only_performRecipeStep (approval : ApprovalRow) :
    (performRecipeStep fleet runId approval).Only (RunCall ⟨recipeAgentName, runId⟩) := by
  rw [performRecipeStep]
  split
  · apply (only_enter _ _).bind
    intro _
    apply (Prog.only_ofExcept _).bind
    intro message
    have hsend : (emailSendTool fleet.py ⟨recipeAgentName, runId⟩ (.str message.1) (.str message.2.1)
        (.str message.2.2)).Only (NodeCall ⟨recipeAgentName, runId⟩ [emailSend] false) :=
      only_emailSendTool fleet.py _ _ _ (by decide)
    exact (hsend.mono fun _ => NodeCall.run).bind fun _ => Prog.only_pure _
  · trivial

/-- Carrying out a recipe step. -/
theorem only_resumeAutomationRecipe :
    (resumeAutomationRecipe fleet runId approved).Only (ResumeCall ⟨recipeAgentName, runId⟩) := by
  rw [resumeAutomationRecipe]
  split
  · trivial
  · apply (Prog.only_call trivial).bind
    intro approval
    cases approval with
    | none => trivial
    | some approval => exact (only_performRecipeStep fleet runId approval).mono fun _ => resumeCall_of_runCall

/-- A registered handler is the one of its agent. -/
theorem resumer_cases {agentName : String} {resumer : Coroutine Unit}
    (h : resumerOf fleet runId approved agentName = some resumer) :
    agentName = DevAgent.agentName ∧ resumer = resumeDevAgentRun fleet runId approved ∨
    agentName = InvoiceAgent.agentName ∧ resumer = resumeInvoiceAgentRun fleet runId approved ∨
    agentName = HrAgent.agentName ∧ resumer = resumeHrAgentRun fleet runId approved ∨
    agentName = DealerOnboarding.agentName ∧ resumer = resumeDealerOnboardingRun fleet runId approved ∨
    agentName = recipeAgentName ∧ resumer = resumeAutomationRecipe fleet runId approved := by
  obtain ⟨entry, hentry, rfl⟩ := Option.map_eq_some_iff.mp h
  have hname : entry.1 = agentName := by simpa using List.find?_some hentry
  subst hname
  have hmem := List.mem_of_find?_eq_some hentry
  simp only [resumers, List.mem_cons, List.not_mem_nil, or_false] at hmem
  rcases hmem with rfl | rfl | rfl | rfl | rfl <;> simp

/-- Each handler makes the calls of its agent's run. -/
theorem only_resumerOf {agentName : String} {resumer : Coroutine Unit}
    (h : resumerOf fleet runId approved agentName = some resumer) :
    resumer.Only (ResumeCall ⟨agentName, runId⟩) := by
  rcases resumer_cases fleet runId approved h with ⟨rfl, rfl⟩ | ⟨rfl, rfl⟩ | ⟨rfl, rfl⟩ | ⟨rfl, rfl⟩ | ⟨rfl, rfl⟩
  · exact only_resumeGraph runId approved _ _ (DevAgent.only_body fleet.py _ none)
  · exact only_resumeGraph runId approved _ _ (InvoiceAgent.only_body fleet.py fleet.exceedsTolerance _ none [])
  · exact only_resumeGraph runId approved _ _ (HrAgent.only_body fleet.py fleet.hr _ none)
  · exact only_resumeGraph runId approved _ _ (DealerOnboarding.only_body fleet.py fleet.dealer _ none)
  · exact only_resumeAutomationRecipe fleet runId approved

/-- A handler is registered for the names of the registry, and for no other. -/
theorem resumerOf_isSome {agentName : String} :
    (resumerOf fleet runId approved agentName).isSome ↔ agentName ∈ resumableAgents := by
  simp only [resumerOf, Option.isSome_map, List.find?_isSome, resumers, resumableAgents]
  simp [eq_comm]

end Resumers

end FleetWorkflow.Api
