import FleetWorkflow.Async.Trace
import FleetWorkflow.N8n.Client
import FleetWorkflow.Recipes.Schema

/-!
# The recipes router

Fleet stores a recipe and n8n executes the workflow compiled from it. A handler reads the row,
calls n8n and commits the row; a session that raises before its commit leaves no trace.
-/

namespace FleetWorkflow.Api

open Python Async Recipes N8n

/-- A row of `automation_recipes`. -/
structure RecipeRow where
  id : ℕ
  name : String
  description : String
  definition : Recipe
  n8nWorkflowId : Option String
  active : Bool
  createdBy : Option String

/-- The calls of the recipes router: its session and n8n. -/
inductive RecipeCall where
  | getRecipe (recipeId : ℕ)
  | findRecipe (name : String)
  | flushRecipe (name : String)
  | commitRecipe (row : RecipeRow)
  | deleteRecipe (recipeId : ℕ)
  | n8n (request : N8nRequest)

/-- What the calls return; the flush of a new row returns its id. -/
def RecipeCall.Reply : RecipeCall → Type
  | .getRecipe _ => Option RecipeRow
  | .findRecipe _ => Option RecipeRow
  | .flushRecipe _ => ℕ
  | .commitRecipe _ => Unit
  | .deleteRecipe _ => Unit
  | .n8n _ => HttpAnswer

/-- A handler of the recipes router. -/
abbrev RecipeHandler := Prog RecipeCall RecipeCall.Reply Exc

/-- Await one call of the router. -/
abbrev awaitRecipe (c : RecipeCall) : RecipeHandler c.Reply := Prog.call c

/-- `raise HTTPException`. -/
def recipeError {α : Type} (status : ℕ) (detail : String) : RecipeHandler α := .raise ⟨.http status, detail⟩

/-- The texts that the router takes from other libraries: `str` of a value, and of the exceptions
of the validators and the compiler. -/
structure RecipeTexts where
  py : Builtins
  invalid : SchemaError → String
  refusal : RecipeCompileError → String

/-- `RecipeOut`: the row, and why its last deploy did not reach n8n. -/
structure RecipeOut where
  row : RecipeRow
  deployError : Option String

/-- `RecipeActionOut`. -/
structure RecipeActionOut where
  status : String
  detail : Option String
deriving DecidableEq

/-- The truth value of a stored workflow id. -/
def storedId (workflowId : Option String) : Option String := workflowId.filter fun id => id ≠ ""

section Router

variable (texts : RecipeTexts)

/-- `_parse`. -/
def parseRecipe (body : RawRecipe) : RecipeHandler Recipe :=
  match body.validate with
  | .ok recipe => return recipe
  | .error error => recipeError 422 ("invalid recipe: " ++ texts.invalid error)

/-- The row of an id, or the 404 that every handler raises without one. -/
def recipeOr404 (recipeId : ℕ) : RecipeHandler RecipeRow := do
  match ← awaitRecipe (.getRecipe recipeId) with
  | some row => return row
  | none => recipeError 404 "recipe not found"

/-- The last part of `_deploy`: create the workflow. The result is the error and the id to store. -/
def createDeployment (payload : Workflow) (workflowId : Option String) :
    RecipeHandler (Option String × Option String) := do
  let result := N8nResult.ofAnswer (← awaitRecipe (.n8n (.createWorkflow payload)))
  match result.reachable, result.data with
  | true, .obj fields =>
    return (none, some (texts.py.str ((Json.get? fields "id").getD .null)))
  | _, _ => return (some (result.errorOr "n8n unreachable"), workflowId)

/-- `_deploy`: the error, and the workflow id that the row holds afterwards. -/
def deploy (recipe : Recipe) (workflowId : Option String) : RecipeHandler (Option String × Option String) :=
  match compileRecipe recipe with
  | .error refused => recipeError 422 (texts.refusal refused)
  | .ok payload =>
    match storedId workflowId with
    | none => createDeployment texts payload workflowId
    | some id => do
      let result := N8nResult.ofAnswer (← awaitRecipe (.n8n (.updateWorkflow id payload)))
      if result.reachable && result.data.truthy then return (none, workflowId)
      else if result.reachable && result.hasError && result.errorMentions "404" then
        createDeployment texts payload none
      else return (some (result.errorOr "n8n unreachable"), workflowId)

/-- `POST /v1/recipes`. -/
def createRecipe (sub : String) (body : RawRecipe) : RecipeHandler RecipeOut := do
  let recipe ← parseRecipe texts body
  match ← awaitRecipe (.findRecipe recipe.name) with
  | some _ => recipeError 409 ("recipe already exists: " ++ recipe.name)
  | none =>
    let id ← awaitRecipe (.flushRecipe recipe.name)
    let (deployError, workflowId) ← deploy texts recipe none
    let row : RecipeRow := ⟨id, recipe.name, recipe.description, recipe, workflowId, false, some sub⟩
    awaitRecipe (.commitRecipe row)
    return ⟨row, deployError⟩

/-- `PUT /v1/recipes/(recipe_id)`. -/
def updateRecipe (recipeId : ℕ) (body : RawRecipe) : RecipeHandler RecipeOut := do
  let row ← recipeOr404 recipeId
  let recipe ← parseRecipe texts body
  if recipe.name ≠ row.name then
    recipeError 422 "a recipe's name is its n8n workflow identity and cannot be changed"
  else
    let (deployError, workflowId) ← deploy texts recipe row.n8nWorkflowId
    let row := { row with
      description := recipe.description
      definition := recipe
      n8nWorkflowId := workflowId }
    awaitRecipe (.commitRecipe row)
    return ⟨row, deployError⟩

/-- `DELETE /v1/recipes/(recipe_id)`. -/
def deleteRecipe (recipeId : ℕ) : RecipeHandler RecipeActionOut := do
  let row ← recipeOr404 recipeId
  match storedId row.n8nWorkflowId with
  | none =>
    awaitRecipe (.deleteRecipe row.id)
    return ⟨"ok", none⟩
  | some id =>
    let result := N8nResult.ofAnswer (← awaitRecipe (.n8n (.deleteWorkflow id)))
    let detail := if result.reachable then none
      else some ("n8n unreachable — workflow " ++ workflowName row.name ++ " may still exist")
    awaitRecipe (.deleteRecipe row.id)
    return ⟨"ok", detail⟩

/-- `_set_active`. -/
def setRecipeActive (recipeId : ℕ) (active : Bool) : RecipeHandler RecipeActionOut := do
  let row ← recipeOr404 recipeId
  match storedId row.n8nWorkflowId with
  | none => return ⟨"not_deployed", some "recipe was never deployed to n8n"⟩
  | some id =>
    let result := N8nResult.ofAnswer (← awaitRecipe (.n8n (.setActive id active)))
    if !result.reachable then return ⟨"n8n_unreachable", result.error⟩
    else if result.hasError then return ⟨"trigger_failed", result.error⟩
    else
      awaitRecipe (.commitRecipe { row with active := active })
      return ⟨"ok", none⟩

/-- `POST /v1/recipes/(recipe_id)/activate`. -/
def activateRecipe (recipeId : ℕ) : RecipeHandler RecipeActionOut := setRecipeActive recipeId true

/-- `POST /v1/recipes/(recipe_id)/deactivate`. -/
def deactivateRecipe (recipeId : ℕ) : RecipeHandler RecipeActionOut := setRecipeActive recipeId false

/-- `POST /v1/recipes/(recipe_id)/run`. -/
def runRecipe (recipeId : ℕ) : RecipeHandler RecipeActionOut := do
  let row ← recipeOr404 recipeId
  if !row.active then return ⟨"not_deployed", some "activate the recipe before running it"⟩
  else
    let result := N8nResult.ofAnswer (← awaitRecipe (.n8n (.triggerWebhookJson (webhookPath row.name) (.obj []))))
    if !result.reachable then return ⟨"n8n_unreachable", result.error⟩
    else if result.hasError then return ⟨"trigger_failed", result.error⟩
    else return ⟨"ok", none⟩

end Router

end FleetWorkflow.Api
