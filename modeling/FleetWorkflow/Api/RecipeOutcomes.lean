import FleetWorkflow.Api.Recipes

/-!
# What a recipe request does

Each handler has a handful of courses: which calls it makes in which order, and how it ends. They
are listed here once; what is said about requests is read off these lists.
-/

namespace FleetWorkflow.Api

open Python Async Recipes N8n

/-- A trace of the recipes router. -/
abbrev RecipeTrace := List (Served RecipeCall RecipeCall.Reply)

/-- n8n was asked for something and answered. -/
def asked (request : N8nRequest) (answer : HttpAnswer) : Served RecipeCall RecipeCall.Reply := ⟨.n8n request, answer⟩

/-- The row of an id was read. -/
def readRow (recipeId : ℕ) (found : Option RecipeRow) : Served RecipeCall RecipeCall.Reply :=
  ⟨.getRecipe recipeId, found⟩

/-- A row was looked up by its name. -/
def found (name : String) (row : Option RecipeRow) : Served RecipeCall RecipeCall.Reply := ⟨.findRecipe name, row⟩

/-- A new row got its id. -/
def flushed (name : String) (recipeId : ℕ) : Served RecipeCall RecipeCall.Reply := ⟨.flushRecipe name, recipeId⟩

/-- A row was committed. -/
def committed (row : RecipeRow) : Served RecipeCall RecipeCall.Reply := ⟨.commitRecipe row, ()⟩

/-- A row was deleted. -/
def deleted (recipeId : ℕ) : Served RecipeCall RecipeCall.Reply := ⟨.deleteRecipe recipeId, ()⟩

/-- A request and its answer are what was served. -/
@[simp] theorem asked_inj {request request' : N8nRequest} {answer answer' : HttpAnswer} :
    asked request answer = asked request' answer' ↔ request = request' ∧ answer = answer' := by
  constructor
  · intro h
    cases h
    exact ⟨rfl, rfl⟩
  · rintro ⟨rfl, rfl⟩
    rfl

@[simp] theorem asked_ne_readRow {request : N8nRequest} {answer : HttpAnswer} {recipeId : ℕ}
    {found : Option RecipeRow} : asked request answer ≠ readRow recipeId found := by
  intro h
  cases h

@[simp] theorem asked_ne_committed {request : N8nRequest} {answer : HttpAnswer} {row : RecipeRow} :
    asked request answer ≠ committed row := by
  intro h
  cases h

@[simp] theorem asked_ne_deleted {request : N8nRequest} {answer : HttpAnswer} {recipeId : ℕ} :
    asked request answer ≠ deleted recipeId := by
  intro h
  cases h

@[simp] theorem committed_ne_readRow {row : RecipeRow} {recipeId : ℕ} {found : Option RecipeRow} :
    committed row ≠ readRow recipeId found := by
  intro h
  cases h

@[simp] theorem committed_ne_asked {row : RecipeRow} {request : N8nRequest} {answer : HttpAnswer} :
    committed row ≠ asked request answer := by
  intro h
  cases h

/-- The answer looks like a success to the handlers that read the error text. -/
def looksSuccessful (answer : HttpAnswer) : Prop := answer.success = true ∨ answer.silentRefusal = true

variable {trace : RecipeTrace}

/-- What a handler without a row raises. -/
def recipeNotFound : Exc := ⟨.http 404, "recipe not found"⟩

/-- A handler that needs a row reads it first. -/
theorem goes_recipeOr404_bind {α : Type} {recipeId : ℕ} {f : RecipeRow → RecipeHandler α} {result : Except Exc α} :
    (recipeOr404 recipeId >>= f).Goes trace result ↔
      (trace = [readRow recipeId none] ∧ result = .error recipeNotFound) ∨
        ∃ row rest, trace = readRow recipeId (some row) :: rest ∧ (f row).Goes rest result := by
  rw [recipeOr404, Prog.bind_assoc, Prog.goes_call_bind]
  constructor
  · rintro ⟨found, rest, rfl, h⟩
    cases found with
    | none =>
      obtain ⟨rfl, rfl⟩ := Prog.goes_raise.mp h
      exact .inl ⟨rfl, rfl⟩
    | some row => exact .inr ⟨row, rest, rfl, h⟩
  · rintro (⟨rfl, rfl⟩ | ⟨row, rest, rfl, h⟩)
    · exact ⟨none, [], rfl, .raise _⟩
    · exact ⟨some row, rest, rfl, h⟩

/-- Setting the active flag: nothing to do, a refusal, or what looks like a success and is stored. -/
theorem setRecipeActive_goes {recipeId : ℕ} {active : Bool} {result : Except Exc RecipeActionOut}
    (h : (setRecipeActive recipeId active).Goes trace result) :
    (∃ found, trace = [readRow recipeId found] ∧ ∀ out, result = .ok out → out.status ≠ "ok") ∨
      ∃ row id answer, storedId row.n8nWorkflowId = some id ∧
        ((trace = [readRow recipeId (some row), asked (.setActive id active) answer] ∧
            ¬ looksSuccessful answer ∧ ∀ out, result = .ok out → out.status ≠ "ok") ∨
          (trace = [readRow recipeId (some row), asked (.setActive id active) answer,
              committed { row with active := active }] ∧
            looksSuccessful answer ∧ result = .ok ⟨"ok", none⟩)) := by
  rcases goes_recipeOr404_bind.mp h with ⟨rfl, rfl⟩ | ⟨row, rest, rfl, hrow⟩
  · exact .inl ⟨none, rfl, fun out hout => by cases hout⟩
  cases hid : storedId row.n8nWorkflowId with
  | none =>
    simp only [hid] at hrow
    obtain ⟨rfl, rfl⟩ := Prog.goes_done.mp hrow
    exact .inl ⟨some row, rfl, fun out hout => by cases hout; simp⟩
  | some id =>
    simp only [hid] at hrow
    obtain ⟨answer, rest, rfl, hanswer⟩ := Prog.goes_call_bind.mp hrow
    have hsuccess := looksSuccessful_iff answer
    refine .inr ⟨row, id, answer, hid, ?_⟩
    cases hreachable : (N8nResult.ofAnswer answer).reachable with
    | false =>
      rw [hreachable] at hanswer hsuccess
      obtain ⟨rfl, rfl⟩ := Prog.goes_done.mp hanswer
      exact .inl ⟨rfl, by simpa [looksSuccessful] using hsuccess, fun out hout => by cases hout; simp⟩
    | true =>
      cases herror : (N8nResult.ofAnswer answer).hasError with
      | true =>
        rw [hreachable, herror] at hanswer hsuccess
        obtain ⟨rfl, rfl⟩ := Prog.goes_done.mp hanswer
        exact .inl ⟨rfl, by simpa [looksSuccessful] using hsuccess, fun out hout => by cases hout; simp⟩
      | false =>
        rw [hreachable, herror] at hanswer
        obtain ⟨⟨⟩, rest, rfl, hend⟩ := Prog.goes_call_bind.mp hanswer
        obtain ⟨rfl, rfl⟩ := Prog.goes_done.mp hend
        exact .inr ⟨rfl, hsuccess.mp ⟨hreachable, herror⟩, rfl⟩

/-- Running a recipe: nothing to do, or one webhook call and what its answer looks like. -/
theorem runRecipe_goes {recipeId : ℕ} {result : Except Exc RecipeActionOut}
    (h : (runRecipe recipeId).Goes trace result) :
    (∃ found, trace = [readRow recipeId found] ∧ ∀ out, result = .ok out → out.status ≠ "ok") ∨
      ∃ row answer,
        trace = [readRow recipeId (some row), asked (.triggerWebhookJson (webhookPath row.name) (.obj [])) answer] ∧
          ((looksSuccessful answer ∧ result = .ok ⟨"ok", none⟩) ∨
            (¬ looksSuccessful answer ∧ ∀ out, result = .ok out → out.status ≠ "ok")) := by
  rcases goes_recipeOr404_bind.mp h with ⟨rfl, rfl⟩ | ⟨row, rest, rfl, hrow⟩
  · exact .inl ⟨none, rfl, fun out hout => by cases hout⟩
  cases hactive : row.active with
  | false =>
    rw [hactive] at hrow
    obtain ⟨rfl, rfl⟩ := Prog.goes_done.mp hrow
    exact .inl ⟨some row, rfl, fun out hout => by cases hout; simp⟩
  | true =>
    rw [hactive] at hrow
    obtain ⟨answer, rest, rfl, hanswer⟩ := Prog.goes_call_bind.mp hrow
    have hsuccess := looksSuccessful_iff answer
    refine .inr ⟨row, answer, ?_⟩
    dsimp only at hanswer
    cases hreachable : (N8nResult.ofAnswer answer).reachable with
    | false =>
      rw [hreachable] at hanswer hsuccess
      obtain ⟨rfl, rfl⟩ := Prog.goes_done.mp hanswer
      exact ⟨rfl, .inr ⟨by simpa [looksSuccessful] using hsuccess, fun out hout => by cases hout; simp⟩⟩
    | true =>
      cases herror : (N8nResult.ofAnswer answer).hasError with
      | true =>
        rw [hreachable, herror] at hanswer hsuccess
        obtain ⟨rfl, rfl⟩ := Prog.goes_done.mp hanswer
        exact ⟨rfl, .inr ⟨by simpa [looksSuccessful] using hsuccess, fun out hout => by cases hout; simp⟩⟩
      | false =>
        rw [hreachable, herror] at hanswer
        obtain ⟨rfl, rfl⟩ := Prog.goes_done.mp hanswer
        exact ⟨rfl, .inl ⟨hsuccess.mp ⟨hreachable, herror⟩, rfl⟩⟩

/-- Deleting a recipe: no row, no workflow to delete, or a delete request whose answer only shows
in the warning when there was none. -/
theorem deleteRecipe_goes {recipeId : ℕ} {result : Except Exc RecipeActionOut}
    (h : (deleteRecipe recipeId).Goes trace result) :
    (trace = [readRow recipeId none] ∧ result = .error recipeNotFound) ∨
      ∃ row, (storedId row.n8nWorkflowId = none ∧ trace = [readRow recipeId (some row), deleted row.id] ∧
          result = .ok ⟨"ok", none⟩) ∨
        ∃ id answer detail, storedId row.n8nWorkflowId = some id ∧
          trace = [readRow recipeId (some row), asked (.deleteWorkflow id) answer, deleted row.id] ∧
          result = .ok ⟨"ok", detail⟩ ∧ (detail = none ↔ ∃ r, answer = .response r) := by
  rcases goes_recipeOr404_bind.mp h with ⟨rfl, rfl⟩ | ⟨row, rest, rfl, hrow⟩
  · exact .inl ⟨rfl, rfl⟩
  refine .inr ⟨row, ?_⟩
  cases hid : storedId row.n8nWorkflowId with
  | none =>
    simp only [hid] at hrow
    obtain ⟨⟨⟩, rest, rfl, hend⟩ := Prog.goes_call_bind.mp hrow
    obtain ⟨rfl, rfl⟩ := Prog.goes_done.mp hend
    exact .inl ⟨rfl, rfl, rfl⟩
  | some id =>
    simp only [hid] at hrow
    obtain ⟨answer, rest, rfl, hanswer⟩ := Prog.goes_call_bind.mp hrow
    obtain ⟨⟨⟩, rest, rfl, hend⟩ := Prog.goes_call_bind.mp hanswer
    obtain ⟨rfl, rfl⟩ := Prog.goes_done.mp hend
    refine .inr ⟨id, answer, _, rfl, rfl, rfl, ?_⟩
    cases answer with
    | failed error => simp [N8nResult.ofAnswer]
    | response r => simp [reachable_response]

/-! ## Deploying -/

/-- The courses of a deploy: the requests it makes, and the error and the id that it returns. -/
inductive DeployCourse (texts : RecipeTexts) (workflowId : Option String) :
    RecipeTrace → Except Exc (Option String × Option String) → Prop
  | refused {error : Exc} : DeployCourse texts workflowId [] (.error error)
  | updated {id : String} {payload : Workflow} {answer : HttpAnswer} {error : Option String}
      (hid : storedId workflowId = some id) :
      DeployCourse texts workflowId [asked (.updateWorkflow id payload) answer] (.ok (error, workflowId))
  | created {payload : Workflow} {answer : HttpAnswer} {fields : Dict} (hid : storedId workflowId = none)
      (hobject : answer.object = some fields) :
      DeployCourse texts workflowId [asked (.createWorkflow payload) answer]
        (.ok (none, some (texts.py.str ((Json.get? fields "id").getD .null))))
  | notCreated {payload : Workflow} {answer : HttpAnswer} {error : String} (hid : storedId workflowId = none) :
      DeployCourse texts workflowId [asked (.createWorkflow payload) answer] (.ok (some error, workflowId))
  | recreated {id : String} {payload : Workflow} {missed answer : HttpAnswer} {fields : Dict}
      (hid : storedId workflowId = some id) (hgone : missed.gone = true) (hobject : answer.object = some fields) :
      DeployCourse texts workflowId
        [asked (.updateWorkflow id payload) missed, asked (.createWorkflow payload) answer]
        (.ok (none, some (texts.py.str ((Json.get? fields "id").getD .null))))
  | notRecreated {id : String} {payload : Workflow} {missed answer : HttpAnswer} {error : String}
      (hid : storedId workflowId = some id) (hgone : missed.gone = true) :
      DeployCourse texts workflowId
        [asked (.updateWorkflow id payload) missed, asked (.createWorkflow payload) answer] (.ok (some error, none))

/-- Creating a workflow stores the id of the answer, or keeps the id and reports an error. -/
theorem createDeployment_goes {texts : RecipeTexts} {payload : Workflow} {workflowId : Option String}
    {result : Except Exc (Option String × Option String)}
    (h : (createDeployment texts payload workflowId).Goes trace result) :
    ∃ answer, trace = [asked (.createWorkflow payload) answer] ∧
      ((∃ fields, answer.object = some fields ∧
          result = .ok (none, some (texts.py.str ((Json.get? fields "id").getD .null)))) ∨
        ∃ error, result = .ok (some error, workflowId)) := by
  obtain ⟨answer, rest, rfl, hanswer⟩ := Prog.goes_call_bind.mp h
  dsimp only at hanswer
  split at hanswer
  · rename_i fields hreachable hdata
    obtain ⟨rfl, rfl⟩ := Prog.goes_done.mp hanswer
    exact ⟨answer, rfl, .inl ⟨fields, object_of_data hdata, rfl⟩⟩
  · obtain ⟨rfl, rfl⟩ := Prog.goes_done.mp hanswer
    exact ⟨answer, rfl, .inr ⟨_, rfl⟩⟩

/-- A deploy takes one of its courses. -/
theorem deploy_goes {texts : RecipeTexts} {recipe : Recipe} {workflowId : Option String}
    {result : Except Exc (Option String × Option String)}
    (h : (deploy texts recipe workflowId).Goes trace result) : DeployCourse texts workflowId trace result := by
  unfold deploy at h
  split at h
  · obtain ⟨rfl, rfl⟩ := Prog.goes_raise.mp h
    exact .refused
  · rename_i payload hpayload
    split at h
    · rename_i hid
      obtain ⟨answer, rfl, ⟨fields, hobject, rfl⟩ | ⟨error, rfl⟩⟩ := createDeployment_goes h
      · exact .created hid hobject
      · exact .notCreated hid
    · rename_i id hid
      obtain ⟨answer, rest, rfl, hanswer⟩ := Prog.goes_call_bind.mp h
      dsimp only at hanswer
      split at hanswer
      · obtain ⟨rfl, rfl⟩ := Prog.goes_done.mp hanswer
        exact .updated hid
      · split at hanswer
        · rename_i hgone
          obtain ⟨created, rfl, ⟨fields, hobject, rfl⟩ | ⟨error, rfl⟩⟩ := createDeployment_goes hanswer
          · exact .recreated hid hgone hobject
          · exact .notRecreated hid hgone
        · obtain ⟨rfl, rfl⟩ := Prog.goes_done.mp hanswer
          exact .updated hid

/-- A body is parsed without a call. -/
theorem goes_parseRecipe_bind {α : Type} {texts : RecipeTexts} {body : RawRecipe} {f : Recipe → RecipeHandler α}
    {result : Except Exc α} (h : (parseRecipe texts body >>= f).Goes trace result) :
    trace = [] ∨ ∃ recipe, body.validate = .ok recipe ∧ (f recipe).Goes trace result := by
  unfold parseRecipe at h
  cases hvalid : body.validate with
  | error error =>
    rw [hvalid] at h
    obtain ⟨rfl, -⟩ := Prog.goes_raise.mp h
    exact .inl rfl
  | ok recipe =>
    rw [hvalid] at h
    exact .inr ⟨recipe, rfl, h⟩

/-- A deploy that does not raise is followed by the rest of its handler. -/
theorem goes_deploy_bind {α : Type} {texts : RecipeTexts} {recipe : Recipe} {workflowId : Option String}
    {f : Option String × Option String → RecipeHandler α} {result : Except Exc α}
    (h : (deploy texts recipe workflowId >>= f).Goes trace result) :
    trace = [] ∨ ∃ course rest deployed, trace = course ++ rest ∧
      DeployCourse texts workflowId course (.ok deployed) ∧ (f deployed).Goes rest result := by
  rcases Prog.goes_bind.mp h with ⟨course, rest, deployed, rfl, hcourse, hrest⟩ | ⟨error, hcourse, rfl⟩
  · exact .inr ⟨course, rest, deployed, rfl, deploy_goes hcourse, hrest⟩
  · cases deploy_goes hcourse
    exact .inl rfl

/-- Creating a recipe: it stops before its deploy, or commits an inactive row with the deployed id. -/
theorem createRecipe_goes {texts : RecipeTexts} {sub : String} {body : RawRecipe} {result : Except Exc RecipeOut}
    (h : (createRecipe texts sub body).Goes trace result) :
    trace = [] ∨ (∃ name row, trace = [found name row]) ∨ (∃ name id, trace = [found name none, flushed name id]) ∨
      ∃ name id course error row, trace = found name none :: flushed name id :: (course ++ [committed row]) ∧
        DeployCourse texts none course (.ok (error, row.n8nWorkflowId)) ∧ row.id = id ∧ row.active = false := by
  rcases goes_parseRecipe_bind h with rfl | ⟨recipe, -, hfind⟩
  · exact .inl rfl
  refine .inr ?_
  obtain ⟨existing, rest, rfl, hfound⟩ := Prog.goes_call_bind.mp hfind
  cases existing with
  | some row =>
    obtain ⟨rfl, -⟩ := Prog.goes_raise.mp hfound
    exact .inl ⟨recipe.name, some row, rfl⟩
  | none =>
    obtain ⟨id, rest, rfl, hflushed⟩ := Prog.goes_call_bind.mp hfound
    refine .inr ?_
    rcases goes_deploy_bind hflushed with rfl | ⟨course, rest, ⟨error, workflowId⟩, rfl, hcourse, hrest⟩
    · exact .inl ⟨recipe.name, id, rfl⟩
    · obtain ⟨⟨⟩, rest, rfl, hend⟩ := Prog.goes_call_bind.mp hrest
      obtain ⟨rfl, -⟩ := Prog.goes_done.mp hend
      exact .inr ⟨recipe.name, id, course, error, _, rfl, hcourse, rfl, rfl⟩

/-- Updating a recipe: it stops before its deploy, or commits the row with the deployed id. The
active flag is not touched. -/
theorem updateRecipe_goes {texts : RecipeTexts} {recipeId : ℕ} {body : RawRecipe} {result : Except Exc RecipeOut}
    (h : (updateRecipe texts recipeId body).Goes trace result) :
    (∃ row, trace = [readRow recipeId row]) ∨
      ∃ row row' course error, trace = readRow recipeId (some row) :: (course ++ [committed row']) ∧
        DeployCourse texts row.n8nWorkflowId course (.ok (error, row'.n8nWorkflowId)) ∧
        row'.id = row.id ∧ row'.active = row.active := by
  rcases goes_recipeOr404_bind.mp h with ⟨rfl, -⟩ | ⟨row, rest, rfl, hrow⟩
  · exact .inl ⟨none, rfl⟩
  rcases goes_parseRecipe_bind hrow with rfl | ⟨recipe, -, hparsed⟩
  · exact .inl ⟨some row, rfl⟩
  split at hparsed
  · obtain ⟨rfl, -⟩ := Prog.goes_raise.mp hparsed
    exact .inl ⟨some row, rfl⟩
  · rcases goes_deploy_bind hparsed with rfl | ⟨course, rest, ⟨error, workflowId⟩, rfl, hcourse, hrest⟩
    · exact .inl ⟨some row, rfl⟩
    · obtain ⟨⟨⟩, rest, rfl, hend⟩ := Prog.goes_call_bind.mp hrest
      obtain ⟨rfl, -⟩ := Prog.goes_done.mp hend
      exact .inr ⟨row, _, course, error, rfl, hcourse, rfl, rfl⟩

end FleetWorkflow.Api
