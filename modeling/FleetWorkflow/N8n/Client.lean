import FleetWorkflow.Python.Value
import FleetWorkflow.Recipes.Compiler

/-!
# The n8n client

Every method sends one HTTP request and folds whatever comes back into a result record. The calls
of the routers are requests by the client's methods; their values are the raw HTTP answers.
-/

namespace FleetWorkflow.N8n

open Python Recipes

/-- An HTTP response: its text, its decoded body if there is one, and the text of the exception that
`raise_for_status` raises for it, which names the status. -/
structure HttpResponse where
  status : ℕ
  hasContent : Bool
  text : String
  json : Option Json
  statusMessage : String
  names_status : (toString status).toList <:+: statusMessage.toList

/-- A response, or the exception of a request that got none. -/
inductive HttpAnswer where
  | failed (error : String)
  | response (r : HttpResponse)

/-- The statuses that `raise_for_status` lets pass. -/
def isSuccess (status : ℕ) : Bool := 200 ≤ status && status ≤ 299

/-- The requests that the client's methods send. -/
inductive N8nRequest where
  | listWorkflows
  | createWorkflow (payload : Workflow)
  | updateWorkflow (workflowId : String) (payload : Workflow)
  | deleteWorkflow (workflowId : String)
  | setActive (workflowId : String) (active : Bool)
  | listExecutions (workflowId : String) (limit : ℕ)
  | triggerWebhookJson (path : String) (body : Json)

/-- `N8nResult`; an absent body is the null value. -/
structure N8nResult where
  reachable : Bool
  authError : Bool
  data : Json
  error : Option String

/-- `_request`, from the answer on. -/
def N8nResult.ofAnswer : HttpAnswer → N8nResult
  | .failed error => { reachable := false, authError := false, data := .null, error := some error }
  | .response r =>
    if r.status = 401 || r.status = 403 then
      { reachable := true, authError := true, data := .null, error := some r.text }
    else if !isSuccess r.status then
      { reachable := true, authError := false, data := .null, error := some r.statusMessage }
    else
      { reachable := true
        authError := false
        data := if r.hasContent then r.json.getD (.str r.text) else .null
        error := none }

/-- The truth value of `result.error`. -/
def N8nResult.hasError (result : N8nResult) : Bool := result.error.any fun error => error ≠ ""

/-- `result.error or fallback`. -/
def N8nResult.errorOr (result : N8nResult) (fallback : String) : String :=
  match result.error with
  | some error => if error = "" then fallback else error
  | none => fallback

/-- `text in str(result.error)` for a result with an error. -/
def N8nResult.errorMentions (result : N8nResult) (text : String) : Bool :=
  result.error.any fun error => error.toList.tails.any fun rest => text.toList.isPrefixOf rest

/-! ## What a result says about its answer -/

/-- n8n answered with a 2xx status. -/
def HttpAnswer.success : HttpAnswer → Bool
  | .failed _ => false
  | .response r => isSuccess r.status

/-- n8n refused the request for its key and gave no reason. -/
def HttpAnswer.silentRefusal : HttpAnswer → Bool
  | .failed _ => false
  | .response r => (r.status = 401 || r.status = 403) && r.text = ""

/-- The object that a successful answer holds. -/
def HttpAnswer.object : HttpAnswer → Option Dict
  | .failed _ => none
  | .response r =>
    match r.json with
    | some (.obj fields) => if isSuccess r.status && r.hasContent then some fields else none
    | _ => none

/-- The handler of a deploy takes the workflow to be gone: the error names a 404. -/
def HttpAnswer.gone (answer : HttpAnswer) : Bool :=
  (N8nResult.ofAnswer answer).reachable && (N8nResult.ofAnswer answer).hasError &&
    (N8nResult.ofAnswer answer).errorMentions "404"

/-- The text of a status error is not empty. -/
theorem HttpResponse.statusMessage_ne (r : HttpResponse) : r.statusMessage ≠ "" := by
  intro hempty
  have hinfix := r.names_status
  rw [hempty] at hinfix
  have hnil : (toString r.status).toList = [] := List.eq_nil_of_infix_nil hinfix
  exact Nat.repr_ne_empty (String.toList_eq_nil_iff.mp hnil)

/-- A refused key gives the text of the response as the error. -/
theorem ofAnswer_of_refused {r : HttpResponse} (h : (r.status = 401 || r.status = 403) = true) :
    N8nResult.ofAnswer (.response r) =
      { reachable := true, authError := true, data := .null, error := some r.text } := by
  rw [N8nResult.ofAnswer, if_pos h]

/-- A success has no error. -/
theorem ofAnswer_of_success {r : HttpResponse} (h : isSuccess r.status = true) :
    N8nResult.ofAnswer (.response r) =
      { reachable := true, authError := false,
        data := if r.hasContent then r.json.getD (.str r.text) else .null, error := none } := by
  have hrefused : ¬ (r.status = 401 || r.status = 403) = true := by
    intro hstatus
    rcases (by simpa using hstatus : r.status = 401 ∨ r.status = 403) with heq | heq
    · simp [isSuccess, heq] at h
    · simp [isSuccess, heq] at h
  rw [N8nResult.ofAnswer, if_neg hrefused, h]
  rfl

/-- Any other status gives the text of its exception as the error. -/
theorem ofAnswer_of_error {r : HttpResponse} (hrefused : ¬ (r.status = 401 || r.status = 403) = true)
    (h : isSuccess r.status = false) :
    N8nResult.ofAnswer (.response r) =
      { reachable := true, authError := false, data := .null, error := some r.statusMessage } := by
  rw [N8nResult.ofAnswer, if_neg hrefused, h]
  rfl

/-- n8n was reached when it gave any response. -/
theorem reachable_response (r : HttpResponse) : (N8nResult.ofAnswer (.response r)).reachable = true := by
  by_cases hrefused : (r.status = 401 || r.status = 403) = true
  · rw [ofAnswer_of_refused hrefused]
  · cases hsuccess : isSuccess r.status with
    | true => rw [ofAnswer_of_success hsuccess]
    | false => rw [ofAnswer_of_error hrefused hsuccess]

/-- A response has no error text when it is a success or a refusal without a reason. -/
theorem hasError_response (r : HttpResponse) :
    (N8nResult.ofAnswer (.response r)).hasError = false ↔
      isSuccess r.status = true ∨ (HttpAnswer.response r).silentRefusal = true := by
  by_cases hrefused : (r.status = 401 || r.status = 403) = true
  · have hfailure : isSuccess r.status = false := by
      rcases (by simpa using hrefused : r.status = 401 ∨ r.status = 403) with heq | heq
      · simp [isSuccess, heq]
      · simp [isSuccess, heq]
    rw [ofAnswer_of_refused hrefused, HttpAnswer.silentRefusal, hrefused, hfailure]
    simp [N8nResult.hasError]
  · cases hsuccess : isSuccess r.status with
    | true =>
      rw [ofAnswer_of_success hsuccess]
      simp [N8nResult.hasError]
    | false =>
      rw [ofAnswer_of_error hrefused hsuccess, HttpAnswer.silentRefusal]
      simp [N8nResult.hasError, r.statusMessage_ne, hrefused]

/-- A result that looks like a success comes from one, or from a refusal without a reason. -/
theorem looksSuccessful_iff (answer : HttpAnswer) :
    ((N8nResult.ofAnswer answer).reachable = true ∧ (N8nResult.ofAnswer answer).hasError = false) ↔
      (answer.success = true ∨ answer.silentRefusal = true) := by
  cases answer with
  | failed error => simp [N8nResult.ofAnswer, HttpAnswer.success, HttpAnswer.silentRefusal]
  | response r =>
    rw [hasError_response]
    simp [reachable_response, HttpAnswer.success]

/-- Only a success has an object for its data. -/
theorem object_of_data {answer : HttpAnswer} {fields : Dict} (h : (N8nResult.ofAnswer answer).data = .obj fields) :
    answer.object = some fields := by
  cases answer with
  | failed error => simp [N8nResult.ofAnswer] at h
  | response r =>
    by_cases hrefused : (r.status = 401 || r.status = 403) = true
    · rw [ofAnswer_of_refused hrefused] at h
      cases h
    · cases hsuccess : isSuccess r.status with
      | false =>
        rw [ofAnswer_of_error hrefused hsuccess] at h
        cases h
      | true =>
        rw [ofAnswer_of_success hsuccess] at h
        cases hcontent : r.hasContent with
        | false => simp [hcontent] at h
        | true =>
          cases hjson : r.json with
          | none => simp [hcontent, hjson] at h
          | some value =>
            simp only [hcontent, hjson, if_true, Option.getD_some] at h
            subst h
            simp [HttpAnswer.object, hjson, hsuccess, hcontent]

/-- An object comes with a success. -/
theorem success_of_object {answer : HttpAnswer} {fields : Dict} (h : answer.object = some fields) :
    answer.success = true := by
  cases answer with
  | failed error => cases h
  | response r =>
    rw [HttpAnswer.object] at h
    split at h
    · split at h
      · rename_i hsuccess
        simp only [Bool.and_eq_true] at hsuccess
        exact hsuccess.1
      · cases h
    · cases h

end FleetWorkflow.N8n
