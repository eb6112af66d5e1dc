import FleetWorkflow.Async.Trace
import FleetWorkflow.N8n.Client
import FleetWorkflow.Python.Bytes

/-!
# The workflows router

The built-in catalog as a proxy over n8n: no handler has state of its own. A workflow is found by
its name in the list that n8n returns, and requests are forwarded to it.
-/

namespace FleetWorkflow.Api

open Python Async N8n

/-- `WorkflowMeta`. -/
structure WorkflowMeta where
  slug : String
  n8nName : String
  kind : String
  runWebhookPath : String
deriving DecidableEq

/-- The entry of the invoice intake. -/
def invoiceIntake : WorkflowMeta := ⟨"invoice-intake", "invoice-intake", "webhook", "invoice-intake"⟩

/-- The entry of the weekly summary. -/
def weeklySummary : WorkflowMeta := ⟨"weekly-summary", "weekly-summary", "cron+manual", "weekly-summary-run"⟩

/-- `CATALOG`, in order. -/
def catalog : List WorkflowMeta := [invoiceIntake, weeklySummary]

/-- A handler of the workflows router: it calls n8n and nothing else. -/
abbrev WorkflowHandler := Prog N8nRequest (fun _ => HttpAnswer) Exc

/-- Send a request and read the result. -/
def sendN8n (request : N8nRequest) : WorkflowHandler N8nResult := do
  return N8nResult.ofAnswer (← Prog.call request)

/-- `raise HTTPException`. -/
def workflowError {α : Type} (status : ℕ) (detail : String) : WorkflowHandler α := .raise ⟨.http status, detail⟩

/-- `WorkflowOut`. -/
structure WorkflowOut where
  slug : String
  kind : String
  reachable : Bool
  authError : Bool
  active : Option Bool
  lastRun : Option Dict

/-- `RunResultOut`. -/
structure RunResultOut where
  status : String
  detail : Option String
deriving DecidableEq

/-- `for item in value`. -/
def iterate : Json → Except Exc (List Json)
  | .arr items => .ok items
  | .obj fields => .ok (fields.map fun field => .str field.1)
  | .str s => .ok (s.toList.map fun c => .str (String.ofList [c]))
  | _ => .error ⟨.typeError, "object is not iterable"⟩

/-- The loop of `_find_workflow`. -/
def findNamed (name : String) : List Json → Except Exc (Option Dict)
  | [] => .ok none
  | .obj fields :: rest =>
    if (Json.get? fields "name").any fun found => found.eqStr name then .ok (some fields)
    else findNamed name rest
  | _ :: _ => .error ⟨.attributeError, "object has no attribute 'get'"⟩

/-- `_find_workflow` on the decoded answer of the list request. -/
def findWorkflow (listing : N8nResult) (name : String) : Except Exc (Option Dict) :=
  match listing.data with
  | .obj fields => do findNamed name (← iterate ((Json.get? fields "data").getD (.arr [])))
  | _ => .ok none

/-- `_execution_status`. -/
def executionStatus (row : Dict) : String :=
  match Json.get? row "status" with
  | some (.str status) =>
    if status ≠ "" then status else if Json.flag row "finished" then "success"
    else if Json.flag row "stoppedAt" then "error" else "running"
  | _ => if Json.flag row "finished" then "success" else if Json.flag row "stoppedAt" then "error" else "running"

/-- The last run in the answer of the executions request. -/
def lastRun (executions : N8nResult) : Except Exc (Option Dict) :=
  match executions.reachable, executions.data with
  | true, .obj fields =>
    let rows := (Json.get? fields "data").getD (.arr [])
    if !rows.truthy then .ok none
    else
      match rows with
      | .arr (.obj row :: _) =>
        .ok (some [("status", .str (executionStatus row)), ("at", (Json.get? row "startedAt").getD .null)])
      | .arr _ => .error ⟨.attributeError, "object has no attribute 'get'"⟩
      | .str _ => .error ⟨.attributeError, "object has no attribute 'get'"⟩
      | .obj _ => .error ⟨.keyError, "0"⟩
      | _ => .error ⟨.typeError, "object is not subscriptable"⟩
  | _, _ => .ok none

section Router

variable (py : Builtins)

/-- `str(wf["id"])`. -/
def workflowId (workflow : Dict) : Except Exc String := do
  return py.str (← Json.field workflow "id")

/-- `_catalog_entry`. -/
def catalogEntry (entry : WorkflowMeta) : WorkflowHandler WorkflowOut := do
  let listing ← sendN8n .listWorkflows
  if !listing.reachable then return ⟨entry.slug, entry.kind, false, false, none, none⟩
  else if listing.authError then return ⟨entry.slug, entry.kind, true, true, none, none⟩
  else
    match ← Prog.ofExcept (findWorkflow listing entry.n8nName) with
    | none => return ⟨entry.slug, entry.kind, true, false, none, none⟩
    | some workflow =>
      let id ← Prog.ofExcept (workflowId py workflow)
      let executions ← sendN8n (.listExecutions id 1)
      let last ← Prog.ofExcept (lastRun executions)
      return ⟨entry.slug, entry.kind, true, false, some (Json.flag workflow "active"), last⟩

/-- `GET /v1/workflows`. -/
def listCatalog : WorkflowHandler (List WorkflowOut) := catalog.mapM (catalogEntry py)

/-- `_get_meta`. -/
def getMeta (slug : String) : WorkflowHandler WorkflowMeta :=
  match catalog.find? fun entry => entry.slug = slug with
  | some entry => return entry
  | none => workflowError 404 ("unknown workflow: " ++ slug)

/-- `_require_active_and_reachable`: the answer to give instead of a run, if there is one. -/
def requireActiveAndReachable (entry : WorkflowMeta) : WorkflowHandler (Option RunResultOut) := do
  let listing ← sendN8n .listWorkflows
  if !listing.reachable then return some ⟨"n8n_unreachable", listing.error⟩
  else
    let inactive : RunResultOut :=
      ⟨"workflow_inactive", some "workflow is not active in n8n — run \x60make n8n-import\x60 or activate it"⟩
    match ← Prog.ofExcept (findWorkflow listing entry.n8nName) with
    | none => return some inactive
    | some workflow => return if Json.flag workflow "active" then none else some inactive

/-- What a run reports after its webhook was called. -/
def runResult (result : N8nResult) (detail : Option String) : RunResultOut :=
  if !result.reachable then ⟨"n8n_unreachable", result.error⟩ else ⟨"accepted", detail⟩

/-- `_MAX_INVOICE_IMAGE_BYTES`. -/
def maxInvoiceImageBytes : ℕ := 10 * 1024 * 1024

/-- `_ALLOWED_IMAGE_CONTENT_TYPES`. -/
def allowedImageContentTypes : List String := ["image/png", "image/jpeg", "image/webp"]

/-- An uploaded file. -/
structure UploadedImage where
  contentType : Option String
  bytes : Bytes

/-- `POST /v1/workflows/invoice-intake/run`. -/
def runInvoiceIntake (file : UploadedImage) : WorkflowHandler RunResultOut := do
  let entry ← getMeta "invoice-intake"
  if !file.contentType.any fun type => type ∈ allowedImageContentTypes then
    workflowError 422 ("unsupported image type: " ++ file.contentType.getD "None")
  else if maxInvoiceImageBytes < file.bytes.length then workflowError 422 "image too large (max 10MB)"
  else
    match ← requireActiveAndReachable entry with
    | some early => return early
    | none =>
      let result ← sendN8n
        (.triggerWebhookJson entry.runWebhookPath (.obj [("image_base64", .str (base64 file.bytes))]))
      return runResult result (some "fatura kuyruğa alındı — Onaylar'ı kontrol edin")

/-- `POST /v1/workflows/weekly-summary/run`. -/
def runWeeklySummary : WorkflowHandler RunResultOut := do
  let entry ← getMeta "weekly-summary"
  match ← requireActiveAndReachable entry with
  | some early => return early
  | none =>
    let result ← sendN8n (.triggerWebhookJson entry.runWebhookPath (.obj []))
    return runResult result none

/-- `_set_active`. -/
def setWorkflowActive (slug : String) (active : Bool) : WorkflowHandler RunResultOut := do
  let entry ← getMeta slug
  let listing ← sendN8n .listWorkflows
  if !listing.reachable then return ⟨"n8n_unreachable", listing.error⟩
  else
    match ← Prog.ofExcept (findWorkflow listing entry.n8nName) with
    | none => workflowError 404 "workflow not found in n8n — import it first"
    | some workflow =>
      let id ← Prog.ofExcept (workflowId py workflow)
      let result ← sendN8n (.setActive id active)
      return runResult result none

/-- `POST /v1/workflows/(slug)/activate`. -/
def activateWorkflow (slug : String) : WorkflowHandler RunResultOut := setWorkflowActive py slug true

/-- `POST /v1/workflows/(slug)/deactivate`. -/
def deactivateWorkflow (slug : String) : WorkflowHandler RunResultOut := setWorkflowActive py slug false

end Router

end FleetWorkflow.Api
