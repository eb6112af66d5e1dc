import FleetWorkflow.Agents.DealerOnboarding
import FleetWorkflow.Agents.DevAgent
import FleetWorkflow.Agents.HrAgent
import FleetWorkflow.Agents.InsightsPublisher
import FleetWorkflow.Agents.InvoiceAgent
import FleetWorkflow.Agents.LegalReview
import FleetWorkflow.Agents.ListingQuality

/-!
# Starting runs

The requests that start a run of an agent's graph. A run that stops at its interrupt is filed as a
pending approval under the run's id, which is the thread of its checkpoints; the routers build their
graphs without a kill switch. What the modelled code only passes on is gathered in one structure.
-/

namespace FleetWorkflow.Api

open Python Async Core Agents

/-! ## The fleet -/

/-- The functions that the model does not say anything about, and the two reply paths that answer a
question with calls on behalf of the asked agent only. -/
structure Fleet where
  py : Builtins
  exceedsTolerance : PyFloat → PyFloat → Bool
  detectInjection : Json → Except Exc Bool
  hr : HrAgent.Reading
  dealer : DealerOnboarding.Reading
  insights : InsightsPublisher.Drafting
  listing : ListingQuality.Checking
  legal : LegalReview.Reviewing
  analyticsReply : Actor → AgentRow → String → Coroutine String
  ragReply : Actor → AgentRow → String → Coroutine String
  analyticsReply_only : ∀ actor agent question,
    (analyticsReply actor agent question).Only (NodeCall actor [pgRoQuery] true)
  ragReply_only : ∀ actor agent question, (ragReply actor agent question).Only (NodeCall actor [] true)

/-! ## Filing the outcome of a run -/

/-- What a request that starts a run answers; `results` are the fields that only some answers have. -/
structure RunOut where
  runId : String
  status : String
  detail : Dict
  results : Dict

/-- An answer without further fields. -/
def runOut (runId status : String) (detail : Dict) : RunOut := ⟨runId, status, detail, []⟩

/-- The tool that an interrupt names. -/
def toolName : Json → Except Exc String
  | .str name => .ok name
  | _ => .error ⟨.typeError, "expected str"⟩

/-- File an interrupt as a pending approval. -/
def queueApproval (agentId : ℕ) (runId : String) (payload : Json) : Coroutine ApprovalRow := do
  let action ← Prog.ofExcept (payload.item "tool" >>= toolName)
  let args ← Prog.ofExcept (payload.item "args" >>= Json.kwargs)
  await (.insertApproval ⟨agentId, runId, action, args⟩)

/-- How a router words the outcomes of its runs. -/
structure Outcomes where
  blocked : Dict → Dict
  pending : Json → Dict → Dict
  ended : String → Dict → Coroutine RunOut

/-- Answer for a run: blocked, waiting for an approval, or over. -/
def finishRun (outcomes : Outcomes) (agentId : ℕ) (runId : String) (result : AgentRun) : Coroutine RunOut :=
  if Json.flag result.values "blocked_reason" then return runOut runId "blocked" (outcomes.blocked result.values)
  else
    match result.interrupt with
    | some payload => do
      let _ ← queueApproval agentId runId payload
      return runOut runId "pending_approval" (outcomes.pending payload result.values)
    | none => outcomes.ended runId result.values

/-- The handlers that run an agent with a row: find it, start the run under a new id, answer. -/
def startRun (agentName : String) (outcomes : Outcomes) (run : String → Coroutine AgentRun) :
    Coroutine RunOut := do
  match ← await (.findAgent agentName) with
  | none => httpError 500 (agentName ++ " not seeded — run `make seed`")
  | some agentRow =>
    await .buildClient
    let runId ← await .uuid4
    let result ← run runId
    finishRun outcomes agentRow.id runId result

/-- `result.get(key, default)`. -/
def resultOr (values : Dict) (key : String) (fallback : Json) : Json := (Json.get? values key).getD fallback

/-- The reason of a blocked run. -/
def blockedReason (values : Dict) : Dict := [("reason", resultOr values "blocked_reason" .null)]

/-- The payload that waits for an approval. -/
def approvalPayload (payload : Json) (_ : Dict) : Dict := [("approval_payload", payload)]

section Runs

variable (fleet : Fleet)

/-- The outcomes of the graphs in which every run is blocked or interrupted. -/
def usualOutcomes : Outcomes where
  blocked := blockedReason
  pending := approvalPayload
  ended _ values := httpError 500 ("unexpected run result: " ++ fleet.py.repr (.obj values))

/-! ## The routers -/

/-- The run of the dev agent on a ticket. -/
def devAgentRun (ticketKey : String) (runId : String) : Coroutine AgentRun :=
  let actor := ⟨DevAgent.agentName, runId⟩
  ainvoke (DevAgent.graph fleet.py actor none) (threadSaver DevAgent.nodeNames actor)
    [("ticket_key", .str ticketKey)]

/-- `POST /v1/dev-agent/runs`. -/
def startDevAgent (ticketKey : String) : Coroutine RunOut :=
  startRun DevAgent.agentName (usualOutcomes fleet) (devAgentRun fleet ticketKey)

/-- The run of the invoice agent on an image. -/
def invoiceAgentRun (imageBase64 : String) (runId : String) : Coroutine AgentRun :=
  let actor := ⟨InvoiceAgent.agentName, runId⟩
  ainvoke (InvoiceAgent.graph fleet.py fleet.exceedsTolerance actor none [])
    (threadSaver InvoiceAgent.nodeNames actor) [("image_base64", .str imageBase64)]

/-- `POST /v1/invoice-agent/runs`. -/
def startInvoiceAgent (imageBase64 : String) : Coroutine RunOut :=
  startRun InvoiceAgent.agentName (usualOutcomes fleet) (invoiceAgentRun fleet imageBase64)

/-- The run of the HR agent on an image and the criteria of a role. -/
def hrAgentRun (imageBase64 : String) (criteria : List String) (runId : String) : Coroutine AgentRun :=
  let actor := ⟨HrAgent.agentName, runId⟩
  ainvoke (HrAgent.graph fleet.py fleet.hr actor none) (threadSaver HrAgent.nodeNames actor)
    [("image_base64", .str imageBase64), ("criteria", .arr (criteria.map .str))]

/-- `POST /v1/hr-agent/runs`. -/
def startHrAgent (imageBase64 : String) (criteria : List String) : Coroutine RunOut :=
  startRun HrAgent.agentName (usualOutcomes fleet) (hrAgentRun fleet imageBase64 criteria)

/-- A document of a dealer's application. -/
structure DocumentIn where
  kind : String
  imageBase64 : String

/-- `document.model_dump()`. -/
def DocumentIn.dump (document : DocumentIn) : Json :=
  .obj [("kind", .str document.kind), ("image_base64", .str document.imageBase64)]

/-- The run of the dealer onboarding agent on an application and its documents. -/
def dealerOnboardingRun (applicationId : String) (documents : List DocumentIn) (runId : String) :
    Coroutine AgentRun :=
  let actor := ⟨DealerOnboarding.agentName, runId⟩
  ainvoke (DealerOnboarding.graph fleet.py fleet.dealer actor none)
    (threadSaver DealerOnboarding.nodeNames actor)
    [("application_id", .str applicationId), ("documents", .arr (documents.map DocumentIn.dump))]

/-- The outcomes of the dealer onboarding graph, in which a run can also end by itself. -/
def dealerOutcomes : Outcomes where
  blocked := blockedReason
  pending payload values := [("approval_payload", payload), ("check", resultOr values "check" (.obj []))]
  ended runId values := do
    let check := resultOr values "check" (.obj [])
    let mismatch ← Prog.ofExcept (check.getOr "name_mismatch" .null)
    return runOut runId (if mismatch.truthy then "flagged" else "completed")
      [("check", check), ("status_update", resultOr values "status_update" .null)]

/-- `POST /v1/dealer-onboarding/runs`. -/
def startDealerOnboarding (applicationId : String) (documents : List DocumentIn) : Coroutine RunOut :=
  startRun DealerOnboarding.agentName dealerOutcomes (dealerOnboardingRun fleet applicationId documents)

/-- The run of the insights publisher. -/
def insightsPublisherRun (runId : String) : Coroutine AgentRun :=
  let actor := ⟨InsightsPublisher.agentName, runId⟩
  ainvoke (InsightsPublisher.graph fleet.py fleet.insights actor none)
    (threadSaver InsightsPublisher.nodeNames actor) []

/-- The outcomes of the insights publisher. -/
def insightsOutcomes : Outcomes where
  blocked values := blockedReason values ++ [("unmatched_numbers", resultOr values "unmatched_numbers" (.arr []))]
  pending := approvalPayload
  ended runId _ := return runOut runId "blocked" [("reason", .str "no draft produced")]

/-- `POST /v1/insights-publisher/runs`. -/
def startInsightsPublisher : Coroutine RunOut :=
  startRun InsightsPublisher.agentName insightsOutcomes (insightsPublisherRun fleet)

/-- A checkpointer that lives as long as the request. -/
def memorySaver {ν : Type} (names : NodeNames ν) (actor : Actor) : Saver Call Reply Exc ν Dict where
  enter node := await (.enter actor (names.name node))
  load := return none
  save _ := return ()

/-- A listing to check. -/
structure ListingIn where
  listingId : String
  imageBase64 : String
  description : String
  price : PyFloat
  segment : String
  currency : String
  shadow : Bool

/-- `POST /v1/listing-quality/runs`, which needs no row of the agent. -/
def startListingQuality (body : ListingIn) : Coroutine RunOut := do
  await .buildClient
  let runId ← await .uuid4
  let actor : Actor := ⟨ListingQuality.agentName, "lq-" ++ runId⟩
  let result ← ainvoke (ListingQuality.graph fleet.listing actor none body.shadow)
    (memorySaver ListingQuality.nodeNames actor)
    [("listing_id", .str body.listingId), ("image_base64", .str body.imageBase64),
      ("description", .str body.description), ("price", .float body.price), ("currency", .str body.currency),
      ("segment", .str body.segment)]
  if Json.flag result.values "blocked_reason" then
    return ⟨runId, "blocked", blockedReason result.values, [("flags", .arr [])]⟩
  else
    let verdict := resultOr result.values "verdict" (.obj [("flags", .arr []), ("clean", .bool true)])
    let flags ← Prog.ofExcept (verdict.item "flags")
    let status := if !flags.truthy then "clean" else if body.shadow then "shadow_flagged" else "flagged"
    let clean ← Prog.ofExcept (verdict.item "clean")
    return ⟨runId, status, [("clean", clean)], [("flags", flags)]⟩

/-- `POST /v1/legal-review/runs`. -/
def startLegalReview (contractText : String) : Coroutine RunOut := do
  match ← await (.findAgent LegalReview.agentName) with
  | none => httpError 500 "legal_review not seeded — run `make seed`"
  | some _ =>
    match ← await (.query "collection" [.str "legal-playbooks"]) with
    | .null => httpError 500 "legal-playbooks collection not seeded — run `make seed`"
    | _ =>
      await .buildClient
      let runId ← await .uuid4
      let actor : Actor := ⟨LegalReview.agentName, runId⟩
      let result ← ainvoke (LegalReview.graph fleet.legal actor none) (memorySaver LegalReview.nodeNames actor)
        [("contract_text", .str contractText)]
      if Json.flag result.values "blocked_reason" then
        return runOut runId "blocked" (blockedReason result.values)
      else
        let excerpts ← Prog.ofExcept (resultOr result.values "excerpts" (.arr [])).iterate
        return ⟨runId, "completed", [("excerpts_retrieved", .int excerpts.length)],
          [("findings", resultOr result.values "findings" (.arr [])),
            ("uncited", resultOr result.values "uncited" (.arr []))]⟩

end Runs

end FleetWorkflow.Api
