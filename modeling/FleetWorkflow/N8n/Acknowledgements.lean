import FleetWorkflow.Api.RecipeOutcomes
import FleetWorkflow.Api.Workflows

/-!
# Honest acknowledgements

Which answers of n8n a handler reports as a success. The recipes router reads the error text of a
result, which a refusal of the API key may leave empty; the workflows router and the deletion of a
recipe only ask whether n8n answered at all.
-/

namespace FleetWorkflow.N8n

open Python Async Recipes Api

/-- The requests that make n8n act on behalf of a user. -/
def N8nRequest.acts : N8nRequest → Bool
  | .setActive _ _ => true
  | .triggerWebhookJson _ _ => true
  | _ => false

/-- n8n answered with a status other than a 2xx one. -/
def HttpAnswer.refuses : HttpAnswer → Bool
  | .failed _ => false
  | .response r => !isSuccess r.status

/-- n8n knows no workflow of that id. -/
def HttpAnswer.notFound : HttpAnswer → Bool
  | .failed _ => false
  | .response r => r.status = 404

/-! ## The recipes router -/

/-- The recipe endpoints that make n8n act. -/
inductive RecipeAction where
  | activate
  | deactivate
  | run

/-- The handler of an endpoint. -/
def RecipeAction.handler : RecipeAction → ℕ → RecipeHandler RecipeActionOut
  | .activate => activateRecipe
  | .deactivate => deactivateRecipe
  | .run => runRecipe

/-- The request is reported as a success, or stores the active flag. -/
def ClaimsSuccess (trace : RecipeTrace) (result : Except Exc RecipeActionOut) : Prop :=
  (∃ out, result = .ok out ∧ out.status = "ok") ∨ ∃ row, committed row ∈ trace

/-- n8n answered the acting request with a 2xx status. -/
def Acted (trace : RecipeTrace) : Prop :=
  ∃ request answer, asked request answer ∈ trace ∧ request.acts = true ∧ answer.success = true

/-- A silent refusal is not a success. -/
theorem not_success_of_silentRefusal {answer : HttpAnswer} (h : answer.silentRefusal = true) :
    answer.success = false := by
  cases answer with
  | failed error => rfl
  | response r =>
    simp only [HttpAnswer.silentRefusal, Bool.and_eq_true, Bool.or_eq_true, decide_eq_true_eq] at h
    rcases h.1 with heq | heq
    · simp [HttpAnswer.success, isSuccess, heq]
    · simp [HttpAnswer.success, isSuccess, heq]

/-- What makes a recipe request honest. -/
def HonestUnlessSilent (trace : RecipeTrace) (result : Except Exc RecipeActionOut) : Prop :=
  (ClaimsSuccess trace result → Acted trace) ↔
    ∀ request answer, asked request answer ∈ trace → request.acts = true → answer.silentRefusal = false

/-- A request that only read its row claims nothing. -/
theorem honest_of_readRow {recipeId : ℕ} {found : Option RecipeRow} {result : Except Exc RecipeActionOut}
    (hstatus : ∀ out, result = .ok out → out.status ≠ "ok") :
    HonestUnlessSilent [readRow recipeId found] result := by
  constructor
  · intro _ request answer hmem
    simp at hmem
  · rintro _ (⟨out, hout, hok⟩ | ⟨row, hrow⟩)
    · exact absurd hok (hstatus out hout)
    · simp at hrow

/-- A request that acted once is as honest as the answer that it takes for a success. -/
theorem honest_of_asked {trace : RecipeTrace} {result : Except Exc RecipeActionOut} (request : N8nRequest)
    (answer : HttpAnswer) (hacts : request.acts = true)
    (htrace : ∀ request' answer', asked request' answer' ∈ trace ↔ request' = request ∧ answer' = answer)
    (hclaims : ClaimsSuccess trace result ↔ looksSuccessful answer) : HonestUnlessSilent trace result := by
  have hacted : Acted trace ↔ answer.success = true := by
    constructor
    · rintro ⟨request', answer', hmem, -, hsuccess⟩
      exact ((htrace request' answer').mp hmem).2 ▸ hsuccess
    · intro hsuccess
      exact ⟨request, answer, (htrace request answer).mpr ⟨rfl, rfl⟩, hacts, hsuccess⟩
  rw [HonestUnlessSilent, hclaims, hacted]
  constructor
  · intro hhonest request' answer' hmem _
    obtain ⟨rfl, rfl⟩ := (htrace request' answer').mp hmem
    by_contra hsilent
    rw [Bool.not_eq_false] at hsilent
    exact absurd (hhonest (.inr hsilent)) (by rw [not_success_of_silentRefusal hsilent]; decide)
  · rintro hsilent (hsuccess | hrefused)
    · exact hsuccess
    · rw [hsilent request answer ((htrace request answer).mpr ⟨rfl, rfl⟩) hacts] at hrefused
      cases hrefused

/-- Setting the active flag of a recipe is honest unless n8n refuses without a reason. -/
theorem setRecipeActive_honest {recipeId : ℕ} {active : Bool} {trace : RecipeTrace}
    {result : Except Exc RecipeActionOut} (h : (setRecipeActive recipeId active).Goes trace result) :
    HonestUnlessSilent trace result := by
  rcases setRecipeActive_goes h with ⟨found, rfl, hstatus⟩ | ⟨row, id, answer, -, hcourse⟩
  · exact honest_of_readRow hstatus
  · rcases hcourse with ⟨rfl, hlooks, hstatus⟩ | ⟨rfl, hlooks, rfl⟩
    · apply honest_of_asked (.setActive id active) answer rfl
      · simp
      · simp only [hlooks, iff_false]
        rintro (⟨out, hout, hok⟩ | ⟨other, hmem⟩)
        · exact hstatus out hout hok
        · simp at hmem
    · apply honest_of_asked (.setActive id active) answer rfl
      · simp
      · simp [hlooks, ClaimsSuccess]

/-- Running a recipe is honest unless n8n refuses without a reason. -/
theorem runRecipe_honest {recipeId : ℕ} {trace : RecipeTrace} {result : Except Exc RecipeActionOut}
    (h : (runRecipe recipeId).Goes trace result) : HonestUnlessSilent trace result := by
  rcases runRecipe_goes h with ⟨found, rfl, hstatus⟩ | ⟨row, answer, rfl, hcourse⟩
  · exact honest_of_readRow hstatus
  · apply honest_of_asked (.triggerWebhookJson (webhookPath row.name) (.obj [])) answer rfl
    · simp
    · rcases hcourse with ⟨hlooks, rfl⟩ | ⟨hlooks, hstatus⟩
      · simp [hlooks, ClaimsSuccess]
      · simp only [hlooks, iff_false]
        rintro (⟨out, hout, hok⟩ | ⟨other, hmem⟩)
        · exact hstatus out hout hok
        · simp at hmem

/-! ## The workflows router -/

/-- The workflow endpoints that make n8n act. -/
inductive WorkflowAction where
  | runInvoiceIntake (file : UploadedImage)
  | runWeeklySummary
  | activate (slug : String)
  | deactivate (slug : String)

/-- The handler of an endpoint. -/
def WorkflowAction.handler (py : Builtins) : WorkflowAction → WorkflowHandler RunResultOut
  | .runInvoiceIntake file => Api.runInvoiceIntake file
  | .runWeeklySummary => Api.runWeeklySummary
  | .activate slug => activateWorkflow py slug
  | .deactivate slug => deactivateWorkflow py slug

/-- A request that does not act. -/
def Quiet (request : N8nRequest) : Prop := request.acts = false

/-- A trace of the workflows router. -/
abbrev WorkflowTrace := List (Served N8nRequest fun _ => HttpAnswer)

/-- A handler acts at most once, at its end, and reports whatever `runResult` makes of the answer. -/
def ActsLast (p : WorkflowHandler RunResultOut) : Prop :=
  ∀ trace result, p.Goes trace result →
    ((∀ served ∈ trace, served.1.acts = false) ∧ ∀ out, result = .ok out → out.status ≠ "accepted") ∨
      ∃ before request answer detail, trace = before ++ [⟨request, answer⟩] ∧ request.acts = true ∧
        (∀ served ∈ before, served.1.acts = false) ∧
        result = .ok (runResult (N8nResult.ofAnswer answer) detail)

/-- The first part of a handler may ask, but not act. -/
theorem ActsLast.bind {α : Type} {p : WorkflowHandler α} {f : α → WorkflowHandler RunResultOut}
    (hp : p.Only Quiet)
    (hf : ∀ before value, p.Goes before (.ok value) → ActsLast (f value)) : ActsLast (p >>= f) := by
  intro trace result h
  rcases Prog.goes_bind.mp h with ⟨before, after, value, rfl, hbefore, hafter⟩ | ⟨error, herror, rfl⟩
  · have hquiet := hp.goes hbefore
    rcases hf before value hbefore after result hafter with ⟨hacts, hstatus⟩ | ⟨middle, request, answer, detail, rfl, hacts, hmiddle, rfl⟩
    · refine .inl ⟨fun served hmem => ?_, hstatus⟩
      rcases List.mem_append.mp hmem with hmem | hmem
      · exact hquiet served hmem
      · exact hacts served hmem
    · refine .inr ⟨before ++ middle, request, answer, detail, by simp, hacts, fun served hmem => ?_, rfl⟩
      rcases List.mem_append.mp hmem with hmem | hmem
      · exact hquiet served hmem
      · exact hmiddle served hmem
  · exact .inl ⟨hp.goes herror, fun out hout => by cases hout⟩

/-- A handler that reports something else than a success. -/
theorem ActsLast.pure {out : RunResultOut} (h : out.status ≠ "accepted") : ActsLast (Pure.pure out) := by
  intro trace result hgoes
  obtain ⟨rfl, rfl⟩ := Prog.goes_done.mp hgoes
  exact .inl ⟨fun served hserved => (by cases hserved), fun other hother => by cases hother; exact h⟩

/-- A handler that raises. -/
theorem ActsLast.raise {error : Exc} : ActsLast (.raise error) := by
  intro trace result hgoes
  obtain ⟨rfl, rfl⟩ := Prog.goes_raise.mp hgoes
  exact .inl ⟨fun served hserved => (by cases hserved), fun other hother => by cases hother⟩

/-- The acting end of a handler. -/
theorem actsLast_send {request : N8nRequest} (hacts : request.acts = true) (detail : Option String) :
    ActsLast (sendN8n request >>= fun result => Pure.pure (runResult result detail)) := by
  intro trace result h
  rw [sendN8n, Prog.bind_assoc] at h
  obtain ⟨answer, rest, rfl, hanswer⟩ := Prog.goes_call_bind.mp h
  obtain ⟨rfl, rfl⟩ := Prog.goes_done.mp hanswer
  exact .inr ⟨[], request, answer, detail, rfl, hacts, fun served hserved => (by cases hserved), rfl⟩

/-- Sending a quiet request. -/
theorem only_sendN8n {request : N8nRequest} (h : Quiet request) : (sendN8n request).Only Quiet := by
  have hcall : (Prog.call request : WorkflowHandler HttpAnswer).Only Quiet := Prog.only_call h
  exact hcall.bind fun _ => Prog.only_pure _

/-- Listing the workflows does not act. -/
theorem quiet_listWorkflows : Quiet .listWorkflows := rfl

/-- Looking an entry up makes no request. -/
theorem only_getMeta (slug : String) : (getMeta slug).Only Quiet := by
  unfold getMeta
  split
  · exact Prog.only_pure _
  · trivial

/-- The check before a run does not act. -/
theorem only_requireActiveAndReachable (entry : WorkflowMeta) :
    (requireActiveAndReachable entry).Only Quiet := by
  apply (only_sendN8n quiet_listWorkflows).bind
  intro listing
  dsimp only
  split
  · exact Prog.only_pure _
  · apply (Prog.only_ofExcept _).bind
    intro found
    cases found with
    | none => exact Prog.only_pure _
    | some workflow => exact Prog.only_pure _

/-- The check before a run never answers with a success itself. -/
theorem requireActiveAndReachable_early {entry : WorkflowMeta} {trace : WorkflowTrace} {early : RunResultOut}
    (h : (requireActiveAndReachable entry).Goes trace (.ok (some early))) : early.status ≠ "accepted" := by
  rw [requireActiveAndReachable, sendN8n, Prog.bind_assoc] at h
  obtain ⟨answer, rest, rfl, hanswer⟩ := Prog.goes_call_bind.mp h
  simp only [Prog.pure_eq, Prog.done_bind] at hanswer
  split at hanswer
  · obtain ⟨-, hout⟩ := Prog.goes_done.mp hanswer
    cases hout
    simp
  · cases hfind : findWorkflow (N8nResult.ofAnswer answer) entry.n8nName with
    | error error =>
      rw [hfind] at hanswer
      obtain ⟨-, hout⟩ := Prog.goes_raise.mp hanswer
      cases hout
    | ok found =>
      rw [hfind] at hanswer
      cases found with
      | none =>
        obtain ⟨-, hout⟩ := Prog.goes_done.mp hanswer
        cases hout
        simp
      | some workflow =>
        obtain ⟨-, hout⟩ := Prog.goes_done.mp hanswer
        split at hout
        · cases hout
        · cases hout
          simp

/-- A run after its check. -/
theorem actsLast_run {entry : WorkflowMeta} {body : Json} {detail : Option String} :
    ActsLast (requireActiveAndReachable entry >>= fun early =>
      match early with
      | some early => Pure.pure early
      | none => sendN8n (.triggerWebhookJson entry.runWebhookPath body) >>= fun result =>
          Pure.pure (runResult result detail)) := by
  apply ActsLast.bind (only_requireActiveAndReachable entry)
  intro before early h
  cases early with
  | some early => exact .pure (requireActiveAndReachable_early h)
  | none => exact actsLast_send rfl detail

/-- Setting the active flag of a built-in workflow. -/
theorem actsLast_setWorkflowActive (py : Builtins) (slug : String) (active : Bool) :
    ActsLast (setWorkflowActive py slug active) := by
  apply ActsLast.bind (only_getMeta slug)
  intro _ entry _
  apply ActsLast.bind (only_sendN8n quiet_listWorkflows)
  intro _ listing _
  split
  · exact .pure (by simp)
  · apply ActsLast.bind (Prog.only_ofExcept _)
    intro _ found _
    cases found with
    | none => exact .raise
    | some workflow =>
      apply ActsLast.bind (Prog.only_ofExcept _)
      intro _ id _
      exact actsLast_send rfl none

/-- Every acting endpoint of the workflows router acts last. -/
theorem WorkflowAction.actsLast (py : Builtins) (action : WorkflowAction) : ActsLast (action.handler py) := by
  cases action with
  | runInvoiceIntake file =>
    apply ActsLast.bind (only_getMeta "invoice-intake")
    intro _ entry _
    split
    · exact .raise
    · split
      · exact .raise
      · exact actsLast_run
  | runWeeklySummary =>
    apply ActsLast.bind (only_getMeta "weekly-summary")
    intro _ entry _
    exact actsLast_run
  | activate slug => exact actsLast_setWorkflowActive py slug true
  | deactivate slug => exact actsLast_setWorkflowActive py slug false

/-- A handler that acts last is honest unless n8n refuses the acting request. -/
theorem ActsLast.honest {p : WorkflowHandler RunResultOut} (hp : ActsLast p) {trace : WorkflowTrace}
    {result : Except Exc RunResultOut} (h : p.Goes trace result) :
    ((∃ out, result = .ok out ∧ out.status = "accepted") →
        ∃ request answer, ⟨request, answer⟩ ∈ trace ∧ request.acts = true ∧ answer.success = true) ↔
      ∀ request answer, ⟨request, answer⟩ ∈ trace → request.acts = true → answer.refuses = false := by
  rcases hp trace result h with ⟨hquiet, hstatus⟩ | ⟨before, request, answer, detail, rfl, hacts, hbefore, rfl⟩
  · constructor
    · intro _ request answer hmem hacts
      rw [hquiet _ hmem] at hacts
      cases hacts
    · rintro _ ⟨out, hout, haccepted⟩
      exact absurd haccepted (hstatus out hout)
  · have hlast : ∀ request' answer', ⟨request', answer'⟩ ∈ before ++ [⟨request, answer⟩] → request'.acts = true →
        answer' = answer := by
      intro request' answer' hmem hacts'
      rcases List.mem_append.mp hmem with hmem | hmem
      · rw [hbefore _ hmem] at hacts'
        cases hacts'
      · cases List.mem_singleton.mp hmem
        rfl
    have hmem : (⟨request, answer⟩ : Served N8nRequest fun _ => HttpAnswer) ∈ before ++ [⟨request, answer⟩] :=
      List.mem_append_right _ List.mem_cons_self
    cases answer with
    | failed error =>
      constructor
      · intro _ request' answer' hmem' hacts'
        rw [hlast request' answer' hmem' hacts']
        rfl
      · rintro _ ⟨out, hout, haccepted⟩
        cases hout
        simp [runResult, N8nResult.ofAnswer] at haccepted
    | response r =>
      constructor
      · intro hhonest request' answer' hmem' hacts'
        obtain ⟨other, answered, hin, hother, hsuccess⟩ :=
          hhonest ⟨_, rfl, by simp [runResult, reachable_response]⟩
        rw [hlast request' answer' hmem' hacts']
        rw [hlast other answered hin hother] at hsuccess
        simp only [HttpAnswer.success] at hsuccess
        simp [HttpAnswer.refuses, hsuccess]
      · intro hrefuses _
        refine ⟨request, .response r, hmem, hacts, ?_⟩
        simpa [HttpAnswer.refuses, HttpAnswer.success] using hrefuses request (.response r) hmem hacts

/-! ## Deleting a recipe -/

/-- Deleting a recipe is honest unless n8n answers with a refusal other than that it has no such workflow. -/
theorem deleteRecipe_honest {recipeId : ℕ} {trace : RecipeTrace} {result : Except Exc RecipeActionOut}
    (h : (deleteRecipe recipeId).Goes trace result) :
    (result = .ok ⟨"ok", none⟩ → ∀ id answer, asked (.deleteWorkflow id) answer ∈ trace →
        answer.success = true ∨ answer.notFound = true) ↔
      ∀ id answer, asked (.deleteWorkflow id) answer ∈ trace → answer.refuses = true → answer.notFound = true := by
  rcases deleteRecipe_goes h with ⟨rfl, rfl⟩ | ⟨row, ⟨-, rfl, rfl⟩ | ⟨id, answer, detail, -, rfl, rfl, hdetail⟩⟩
  · simp
  · simp
  · have hmem : ∀ id' answer', asked (.deleteWorkflow id') answer' ∈
        [readRow recipeId (some row), asked (.deleteWorkflow id) answer, deleted row.id] ↔
          id' = id ∧ answer' = answer := by simp
    simp only [hmem]
    cases answer with
    | failed error =>
      have hsome : detail ≠ none := fun hnone => by
        obtain ⟨r, hr⟩ := hdetail.mp hnone
        cases hr
      simp [hsome, HttpAnswer.refuses]
    | response r =>
      obtain rfl : detail = none := hdetail.mpr ⟨r, rfl⟩
      cases hsuccess : isSuccess r.status <;> simp [HttpAnswer.success, HttpAnswer.refuses, hsuccess]

/-! ## All endpoints -/

/-- Which answers make an endpoint dishonest: a refusal without a reason for the recipe endpoints,
any refusal for the built-in workflows, and any refusal but a 404 for the deletion of a recipe. -/
theorem acknowledgements_honest_iff (py : Builtins) :
    (∀ (action : RecipeAction) (recipeId : ℕ) (trace : RecipeTrace) (result : Except Exc RecipeActionOut),
      (action.handler recipeId).Goes trace result →
        ((ClaimsSuccess trace result → Acted trace) ↔
          ∀ request answer, asked request answer ∈ trace → request.acts = true → answer.silentRefusal = false)) ∧
    (∀ (action : WorkflowAction) (trace : WorkflowTrace) (result : Except Exc RunResultOut),
      (action.handler py).Goes trace result →
        (((∃ out, result = .ok out ∧ out.status = "accepted") →
            ∃ request answer, ⟨request, answer⟩ ∈ trace ∧ request.acts = true ∧ answer.success = true) ↔
          ∀ request answer, ⟨request, answer⟩ ∈ trace → request.acts = true → answer.refuses = false)) ∧
    ∀ (recipeId : ℕ) (trace : RecipeTrace) (result : Except Exc RecipeActionOut),
      (deleteRecipe recipeId).Goes trace result →
        ((result = .ok ⟨"ok", none⟩ → ∀ id answer, asked (.deleteWorkflow id) answer ∈ trace →
            answer.success = true ∨ answer.notFound = true) ↔
          ∀ id answer, asked (.deleteWorkflow id) answer ∈ trace → answer.refuses = true →
            answer.notFound = true) := by
  refine ⟨fun action recipeId trace result h => ?_, fun action trace result h => ?_,
    fun recipeId trace result h => deleteRecipe_honest h⟩
  · cases action with
    | activate => exact setRecipeActive_honest h
    | deactivate => exact setRecipeActive_honest h
    | run => exact runRecipe_honest h
  · exact (action.actsLast py).honest h

/-! ## Dishonest answers -/

/-- A response with a status and a text that is not JSON. -/
def statusResponse (status : ℕ) (text : String) : HttpAnswer :=
  .response {
    status := status
    hasContent := text ≠ ""
    text := text
    json := none
    statusMessage := "'" ++ toString status ++ "'"
    names_status := ⟨['\''], ['\''], by simp⟩ }

/-- A deployed recipe that is not active. -/
def deployedRow : RecipeRow where
  id := 1
  name := "weekly-report"
  description := ""
  definition := ⟨"weekly-report", "", .manual, []⟩
  n8nWorkflowId := some "w1"
  active := false
  createdBy := none

/-- The list that n8n returns with one built-in workflow. -/
def listedSummary : HttpAnswer :=
  .response {
    status := 200
    hasContent := true
    text := ""
    json := some (.obj [("data", .arr [.obj [("id", .str "w2"), ("name", .str "weekly-summary")]])])
    statusMessage := "200"
    names_status := by decide }

/-- Built-in functions for texts that are used as they are. -/
def plainBuiltins : Builtins where
  repr _ := ""
  lower := id
  float _ := .ok .nan
  int _ := .ok 0

/-- The activation of a recipe, answered with an empty 401. -/
def refusedActivation : RecipeTrace :=
  [readRow 1 (some deployedRow), asked (.setActive "w1" true) (statusResponse 401 ""),
    committed { deployedRow with active := true }]

/-- The activation of a built-in workflow, answered with a 500. -/
def failedActivation : WorkflowTrace :=
  [⟨.listWorkflows, listedSummary⟩, ⟨.setActive "w2" true, statusResponse 500 "boom"⟩]

/-- The deletion of a recipe whose workflow n8n fails to delete. -/
def failedDeletion : RecipeTrace :=
  [readRow 1 (some deployedRow), asked (.deleteWorkflow "w1") (statusResponse 500 "boom"), deleted 1]

/-- An empty 401 activates a recipe in the database only, a 500 is accepted by the workflows router,
and the workflow of a deleted recipe stays behind without a warning. -/
theorem acknowledgements_dishonest :
    (activateRecipe 1).Goes refusedActivation (.ok ⟨"ok", none⟩) ∧ ¬ Acted refusedActivation ∧
    (activateWorkflow plainBuiltins "weekly-summary").Goes failedActivation (.ok ⟨"accepted", none⟩) ∧
    (¬ ∃ request answer, ⟨request, answer⟩ ∈ failedActivation ∧ request.acts = true ∧ answer.success = true) ∧
    (deleteRecipe 1).Goes failedDeletion (.ok ⟨"ok", none⟩) ∧
    (statusResponse 500 "boom").success = false ∧ (statusResponse 500 "boom").notFound = false := by
  refine ⟨.await (.await (.await (.done _))), ?_, .await (.await (.done _)), ?_,
    .await (.await (.await (.done _))), by decide, by decide⟩
  · rintro ⟨request, answer, hmem, -, hsuccess⟩
    obtain ⟨rfl, rfl⟩ : request = .setActive "w1" true ∧ answer = statusResponse 401 "" := by
      simpa [refusedActivation] using hmem
    cases hsuccess
  · rintro ⟨request, answer, hmem, hacts, hsuccess⟩
    simp only [failedActivation, List.mem_cons, List.not_mem_nil, or_false] at hmem
    rcases hmem with heq | heq
    · cases heq
      cases hacts
    · cases heq
      cases hsuccess

end FleetWorkflow.N8n
