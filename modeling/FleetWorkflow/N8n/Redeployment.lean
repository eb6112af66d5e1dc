import FleetWorkflow.N8n.Activation
import FleetWorkflow.Python.Separated
import Mathlib.Data.List.Infix

/-!
# Redeploying a recipe

What `_deploy` makes of n8n's answer to the update of a stored workflow. The client turns the answer into a text, and the
handler looks for a number in it. The text also quotes the address that was called and what n8n wrote, so that the
number can come from there.
-/

namespace FleetWorkflow.N8n

open Python Recipes Api Async

/-- What the HTTP library adds: the address of a request under a base, and the words of the text that it raises for a
status. -/
structure Httpx where
  url : String → String → String
  errorType : ℕ → String
  help : String

/-- The words have no digits. -/
structure Httpx.Worded (httpx : Httpx) : Prop where
  errorType : ∀ status, ∀ c ∈ (httpx.errorType status).toList, c.isDigit = false
  help : ∀ c ∈ httpx.help.toList, c.isDigit = false

/-- A response to the update of a workflow. -/
structure UpdateReply where
  status : ℕ
  three_digits : 100 ≤ status ∧ status ≤ 999
  reasonPhrase : String
  location : Option String
  hasContent : Bool
  text : String
  json : Option Json

/-- The address that a redirect leads to. -/
def UpdateReply.redirectLocation (r : UpdateReply) : Option String :=
  if r.status ∈ [301, 302, 303, 307, 308] then r.location else none

/-- The line of the text for a redirect. -/
def redirectLine : Option String → String
  | some location => "Redirect location: '" ++ location ++ "'\n"
  | none => ""

theorem redirectLine_some (location : String) :
    redirectLine (some location) = "Redirect location: '" ++ location ++ "'\n" := rfl

theorem redirectLine_none : redirectLine none = "" := rfl

/-- The text of the exception that `raise_for_status` raises. -/
def UpdateReply.statusMessage (httpx : Httpx) (url : String) (r : UpdateReply) : String :=
  httpx.errorType r.status ++ " '" ++ toString r.status ++ " " ++ r.reasonPhrase ++ "' for url '" ++ url ++ "'\n" ++
    redirectLine r.redirectLocation ++ httpx.help ++ toString r.status

/-- What n8n can answer. -/
inductive UpdateAnswer where
  | failed (error : String)
  | replied (r : UpdateReply)

/-- The answer as the client sees it. -/
def UpdateAnswer.seen (httpx : Httpx) (url : String) : UpdateAnswer → HttpAnswer
  | .failed error => .failed error
  | .replied r =>
    .response {
      status := r.status
      hasContent := r.hasContent
      text := r.text
      json := r.json
      statusMessage := r.statusMessage httpx url
      names_status := by
        rw [UpdateReply.statusMessage, String.toList_append]
        exact (List.suffix_append _ _).isInfix }

/-- The address of a stored workflow. -/
def workflowUrl (httpx : Httpx) (baseUrl id : String) : String := httpx.url baseUrl ("/api/v1/workflows/" ++ id)

/-- The status of an answer is a 404. -/
def UpdateAnswer.notFound : UpdateAnswer → Prop
  | .failed _ => False
  | .replied r => r.status = 404

/-- The update failed: n8n was not reached, or its status is not a success. -/
def UpdateAnswer.fails : UpdateAnswer → Prop
  | .failed _ => True
  | .replied r => isSuccess r.status = false

/-- A text has the number in it. -/
def Names404 (text : String) : Prop := "404".toList <:+: text.toList

instance (text : String) : Decidable (Names404 text) := inferInstanceAs (Decidable (_ <:+: _))

/-- The number comes from elsewhere: from the body that goes with a refused key, or, with any other status that is no
success, from the reason phrase, the address that was called or the one that a redirect leads to. -/
def UpdateAnswer.Misleads (url : String) : UpdateAnswer → Prop
  | .failed _ => False
  | .replied r =>
    isSuccess r.status = false ∧ r.status ≠ 404 ∧
      if r.status = 401 ∨ r.status = 403 then Names404 r.text
      else Names404 r.reasonPhrase ∨ Names404 url ∨ ∃ location, r.redirectLocation = some location ∧ Names404 location

/-- A deploy that decides by the status: the stored workflow is given up for a new one after a 404 and only then, and
every other failure is reported and leaves the id. -/
def DecidesByStatus (httpx : Httpx) (texts : RecipeTexts) (recipe : Recipe) (baseUrl id : String)
    (answer : UpdateAnswer) : Prop :=
  ∀ payload rest result, (deploy texts recipe (some id)).Goes
      (asked (.updateWorkflow id payload) (answer.seen httpx (workflowUrl httpx baseUrl id)) :: rest) result →
    ((∃ created tail, rest = asked (.createWorkflow payload) created :: tail) ↔ answer.notFound) ∧
    (answer.fails → ¬ answer.notFound → rest = [] ∧ ∃ error, error ≠ "" ∧ result = .ok (some error, some id))

/-! ## The number in the text -/

/-- A status has three digits. -/
theorem names404_status {status : ℕ} (h : 100 ≤ status ∧ status ≤ 999) : Names404 (toString status) ↔ status = 404 := by
  have hlength : ∀ n < 1000, 100 ≤ n → (Nat.toDigits 10 n).length = 3 := by decide +kernel
  have hdigits : (toString status).toList = Nat.toDigits 10 status := by simp [toString, Nat.repr]
  have htext : "404".toList = Nat.toDigits 10 404 := by decide
  rw [Names404, hdigits]
  constructor
  · intro hinfix
    have heq := hinfix.eq_of_length (by rw [hlength status (by omega) h.1]; rfl)
    exact (toDigits_inj (htext.symm.trans heq)).symm
  · rintro rfl
    exact htext ▸ List.infix_rfl

variable {httpx : Httpx}

/-- The number is in the text of a status when the status is it, or what is quoted has it. -/
theorem names404_statusMessage (worded : httpx.Worded) (url : String) (r : UpdateReply) :
    Names404 (r.statusMessage httpx url) ↔ r.status = 404 ∨ Names404 r.reasonPhrase ∨ Names404 url ∨
      ∃ location, r.redirectLocation = some location ∧ Names404 location := by
  have hneedle : "404".toList ≠ [] := by decide
  have hdigit : ∀ c ∈ "404".toList, c.isDigit = true := List.all_eq_true.mp (by decide)
  have hwords : ∀ {words : List Char}, (∀ c ∈ words, c.isDigit = false) → ∀ c ∈ words, c ∉ "404".toList := by
    intro words hwords c hc hmem
    exact absurd ((hdigit c hmem).symm.trans (hwords c hc)) (by decide)
  have hplain : ∀ words : String, (words.toList.all fun c => !c.isDigit) = true → ∀ c ∈ words.toList, c ∉ "404".toList := by
    intro words hall
    apply hwords
    intro c hc
    simpa using List.all_eq_true.mp hall c hc
  have hquote : "'\n".toList ≠ [] := by decide
  have hlast : ∀ a b c d : Prop, a ∨ b ∨ c ∨ d ∨ a ↔ a ∨ b ∨ c ∨ d := by
    intro a b c d
    constructor
    · rintro (h | h | h | h | h)
      exacts [.inl h, .inr (.inl h), .inr (.inr (.inl h)), .inr (.inr (.inr h)), .inl h]
    · rintro (h | h | h | h)
      exacts [.inl h, .inr (.inl h), .inr (.inr (.inl h)), .inr (.inr (.inr (.inl h)))]
  -- what follows the address: the line of a redirect, the words of help and the status
  have hend : "404".toList <:+: (redirectLine r.redirectLocation).toList ++ (httpx.help.toList ++ (toString r.status).toList) ↔
      (∃ location, r.redirectLocation = some location ∧ Names404 location) ∨ Names404 (toString r.status) := by
    have hhelp := @infix_append_left_iff _ _ (toString r.status).toList _ hneedle (hwords worded.help)
    cases r.redirectLocation with
    | none =>
      rw [redirectLine_none]
      simp only [String.toList_empty, List.nil_append, reduceCtorEq, false_and, exists_false, false_or]
      exact hhelp
    | some location =>
      rw [redirectLine_some]
      simp only [String.toList_append, List.append_assoc, Option.some.injEq, exists_eq_left']
      apply (infix_append_left_iff hneedle (hplain "Redirect location: '" (by decide))).trans
      apply (infix_append_append_iff hquote (hplain "'\n" (by decide))).trans
      exact or_congr Iff.rfl hhelp
  rw [← names404_status r.three_digits, Names404, UpdateReply.statusMessage]
  simp only [String.toList_append, List.append_assoc]
  apply (infix_append_left_iff hneedle (hwords (worded.errorType r.status))).trans
  apply (infix_append_left_iff hneedle (hplain " '" (by decide))).trans
  apply (infix_append_append_iff (by decide) (hplain " " (by decide))).trans
  apply (or_congr_right (infix_append_append_iff (by decide) (hplain "' for url '" (by decide)))).trans
  apply (or_congr_right (or_congr_right (infix_append_append_iff hquote (hplain "'\n" (by decide))))).trans
  apply (or_congr_right (or_congr_right (or_congr_right hend))).trans
  exact hlast _ _ _ _

/-- An error that is searched for the number. -/
theorem errorMentions_some (reachable authError : Bool) (data : Json) (error : String) :
    N8nResult.errorMentions ⟨reachable, authError, data, some error⟩ "404" = true ↔ Names404 error := by
  rw [N8nResult.errorMentions, Option.any_some, List.any_eq_true, Names404, List.infix_iff_prefix_suffix]
  simp only [List.mem_tails, List.isPrefixOf_iff_prefix, and_comm]

/-- The handler takes the workflow to be gone after a 404, and when it is misled. -/
theorem gone_seen_iff (worded : httpx.Worded) (url : String) (answer : UpdateAnswer) :
    (answer.seen httpx url).gone = true ↔ answer.notFound ∨ answer.Misleads url := by
  cases answer with
  | failed error => simp [UpdateAnswer.seen, HttpAnswer.gone, N8nResult.ofAnswer, UpdateAnswer.notFound, UpdateAnswer.Misleads]
  | replied r =>
    have hempty : ∀ text, Names404 text → text ≠ "" := by
      rintro _ h rfl
      exact absurd h (by decide)
    simp only [UpdateAnswer.notFound, UpdateAnswer.Misleads]
    by_cases hrefused : r.status = 401 ∨ r.status = 403
    · have hfailure : isSuccess r.status = false := by rcases hrefused with h | h <;> rw [h] <;> rfl
      have hstatus : r.status ≠ 404 := by omega
      rw [HttpAnswer.gone, UpdateAnswer.seen, ofAnswer_of_refused (by simpa using hrefused), if_pos hrefused,
        Bool.and_eq_true, errorMentions_some]
      simpa [N8nResult.hasError, hfailure, hstatus] using hempty r.text
    · cases hsuccess : isSuccess r.status with
      | true =>
        have hstatus : r.status ≠ 404 := by
          intro h
          rw [h] at hsuccess
          cases hsuccess
        rw [HttpAnswer.gone, UpdateAnswer.seen, ofAnswer_of_success hsuccess]
        simp [N8nResult.hasError, hstatus]
      | false =>
        rw [HttpAnswer.gone, UpdateAnswer.seen, ofAnswer_of_error (by simpa using hrefused) hsuccess, if_neg hrefused,
          Bool.and_eq_true, errorMentions_some, names404_statusMessage worded]
        have hmessage := HttpResponse.statusMessage_ne ⟨r.status, r.hasContent, r.text, r.json, r.statusMessage httpx url,
          by rw [UpdateReply.statusMessage, String.toList_append]; exact (List.suffix_append _ _).isInfix⟩
        simp only [N8nResult.hasError, Option.any_some, hmessage, ne_eq, not_false_eq_true, decide_true, Bool.and_self,
          true_and]
        tauto

/-- A failed update has no data. -/
theorem data_of_fails {url : String} {answer : UpdateAnswer} (h : answer.fails) :
    (N8nResult.ofAnswer (answer.seen httpx url)).data = .null := by
  cases answer with
  | failed error => rfl
  | replied r =>
    have hfailure : isSuccess r.status = false := h
    rw [UpdateAnswer.seen]
    by_cases hrefused : (r.status = 401 || r.status = 403) = true
    · rw [ofAnswer_of_refused (by exact hrefused)]
    · rw [ofAnswer_of_error (by exact hrefused) (by exact hfailure)]

/-- What is reported is a text. -/
theorem errorOr_ne (result : N8nResult) {fallback : String} (h : fallback ≠ "") : result.errorOr fallback ≠ "" := by
  rw [N8nResult.errorOr]
  split
  · split
    · exact h
    · assumption
  · exact h

/-! ## The decision -/

section Decision

variable {texts : RecipeTexts} {recipe : Recipe} {payload : Workflow} {id : String} {answer : HttpAnswer}
  {result : Except Exc (Option String × Option String)}

/-- What a deploy does with the result of the update. -/
def afterUpdate (texts : RecipeTexts) (payload : Workflow) (id : String) (seen : N8nResult) :
    RecipeHandler (Option String × Option String) :=
  if seen.reachable && seen.data.truthy then return (none, some id)
  else if seen.reachable && seen.hasError && seen.errorMentions "404" then createDeployment texts payload none
  else return (some (seen.errorOr "n8n unreachable"), some id)

/-- A deploy of a stored workflow asks for its update, and goes on with the answer. -/
theorem deploy_stored_goes (hcompile : compileRecipe recipe = .ok payload) (hid : id ≠ "") {payload' : Workflow}
    {rest : RecipeTrace} :
    (deploy texts recipe (some id)).Goes (asked (.updateWorkflow id payload') answer :: rest) result ↔
      payload' = payload ∧ (afterUpdate texts payload id (N8nResult.ofAnswer answer)).Goes rest result := by
  have hstored : storedId (some id) = some id := by simp [storedId, hid]
  unfold deploy
  simp only [hcompile, hstored]
  rw [Prog.goes_call_bind]
  constructor
  · rintro ⟨value, others, heq, hgoes⟩
    obtain ⟨hhead, rfl⟩ := List.cons.inj heq
    cases hhead
    exact ⟨rfl, hgoes⟩
  · rintro ⟨rfl, hgoes⟩
    exact ⟨answer, rest, rfl, hgoes⟩

/-- Without data the stored workflow is given up if the handler takes it to be gone, and else kept with a report. -/
theorem afterUpdate_of_null (h : (N8nResult.ofAnswer answer).data = .null) :
    afterUpdate texts payload id (N8nResult.ofAnswer answer) =
      if answer.gone = true then createDeployment texts payload none
      else return (some ((N8nResult.ofAnswer answer).errorOr "n8n unreachable"), some id) := by
  rw [afterUpdate, h, HttpAnswer.gone]
  simp [Json.truthy]

/-- A workflow that is not taken to be gone is kept. -/
theorem afterUpdate_kept (h : answer.gone = false) {rest : RecipeTrace}
    (hgoes : (afterUpdate texts payload id (N8nResult.ofAnswer answer)).Goes rest result) : rest = [] := by
  rw [HttpAnswer.gone] at h
  rw [afterUpdate, h] at hgoes
  split at hgoes
  · exact (Prog.goes_done.mp hgoes).1
  · exact (Prog.goes_done.mp hgoes).1

end Decision

/-- Answers that lead to a new workflow are failures. -/
theorem fails_of_gone {url : String} {answer : UpdateAnswer} (h : answer.notFound ∨ answer.Misleads url) :
    answer.fails := by
  cases answer with
  | failed error => trivial
  | replied r =>
    rcases h with h | h
    · have hstatus : r.status = 404 := h
      exact (congrArg isSuccess hstatus).trans rfl
    · exact h.1

/-- A misleading answer is no 404. -/
theorem not_notFound_of_misleads {url : String} {answer : UpdateAnswer} (h : answer.Misleads url) :
    ¬ answer.notFound := by
  cases answer with
  | failed error => exact fun hfound => hfound
  | replied r => exact h.2.1

/-- A deploy that is misled gives up a workflow that is not gone. -/
theorem not_decidesByStatus_of_misleads (worded : httpx.Worded) (texts : RecipeTexts) (valid : ValidRecipe)
    {baseUrl id : String} (hid : id ≠ "") {answer : UpdateAnswer}
    (hmisled : answer.Misleads (workflowUrl httpx baseUrl id)) :
    ¬ DecidesByStatus httpx texts valid.recipe baseUrl id answer := by
  intro hdecides
  obtain ⟨payload, -, hcompile, -⟩ := compileRecipe_tracks valid
  have hgone := (gone_seen_iff worded (workflowUrl httpx baseUrl id) answer).mpr (Or.inr hmisled)
  have hdata := @data_of_fails httpx (workflowUrl httpx baseUrl id) answer (fails_of_gone (Or.inr hmisled))
  have hafter := @afterUpdate_of_null texts payload id _ hdata
  rw [if_pos hgone] at hafter
  have hcreates : (createDeployment texts payload none).Goes [asked (.createWorkflow payload) (.failed "")]
      (.ok (some "n8n unreachable", none)) := .await (.done _)
  rw [← hafter] at hcreates
  have hfound := (hdecides _ _ _ ((deploy_stored_goes hcompile hid).mpr ⟨rfl, hcreates⟩)).1.mp ⟨_, _, rfl⟩
  exact not_notFound_of_misleads hmisled hfound

/-- The words of the HTTP library, less the link. -/
def plainHttpx : Httpx where
  url baseUrl path := baseUrl ++ path
  errorType status :=
    if status / 100 = 1 then "Informational response"
    else if status / 100 = 3 then "Redirect response"
    else if status / 100 = 4 then "Client error"
    else if status / 100 = 5 then "Server error"
    else "Invalid status code"
  help := "For more information check: "

theorem plainHttpx_worded : plainHttpx.Worded where
  errorType status := by
    have hall : (["Informational response", "Redirect response", "Client error", "Server error",
        "Invalid status code"].all fun words => words.toList.all fun c => !c.isDigit) = true := by decide
    apply forall_of_all
    apply List.all_eq_true.mp hall
    simp only [plainHttpx]
    repeat' split
    all_goals simp
  help := forall_of_all (by decide)

/-- n8n fails. -/
def serverError : UpdateAnswer :=
  .replied ⟨500, by decide, "Internal Server Error", none, true, "boom", none⟩

end FleetWorkflow.N8n
