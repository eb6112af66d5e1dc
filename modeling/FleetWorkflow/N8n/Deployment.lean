import FleetWorkflow.Api.RecipeOutcomes
import FleetWorkflow.Store.Table

/-!
# Recipes and their workflows over time

The recipes table of Fleet beside the workflows of n8n. A request of the recipes router runs against
both; at each of its calls n8n chooses its answer, whether it carries the request out, and which
workflows have been deleted inside n8n in the meantime.
-/

namespace FleetWorkflow.N8n

open Python Async Recipes Api Store

/-- The rows of Fleet, and for each workflow of n8n whether it was last set active. Two ghost fields
hold the ids deleted inside n8n: since the last request began, and before it. -/
structure World where
  recipes : Table RecipeRow RecipeRow.id
  workflows : String → Option Bool
  issued : List String
  earlier : List String
  recent : List String

/-- What n8n does at one call, whatever it answers: the workflows that its users delete first, the id
that it gives to a workflow it creates, and whether it does what it was asked for. -/
structure Turn where
  deleted : List String
  created : String
  carriedOut : Bool

/-- A call that was served, with the turn of n8n. -/
abbrev Event := Served RecipeCall RecipeCall.Reply × Turn

namespace World

/-- Users of n8n delete workflows. -/
def deleteInside (w : World) (ids : List String) : World :=
  { w with
    workflows := fun id => if id ∈ ids then none else w.workflows id
    recent := w.recent ++ ids.filter fun id => (w.workflows id).isSome }

/-- n8n carries out a request; a new workflow is not active. -/
def carryOut (w : World) (created : String) : N8nRequest → World
  | .createWorkflow _ =>
    { w with
      workflows := Function.update w.workflows created (some false)
      issued := created :: w.issued }
  | .deleteWorkflow id => { w with workflows := Function.update w.workflows id none }
  | .setActive id active => { w with workflows := Function.update w.workflows id (some active) }
  | _ => w

/-- A commit adds the row under its new id, or replaces the row of its id. -/
def store (w : World) (row : RecipeRow) : World :=
  { w with
    recipes :=
      if h : row.id = w.recipes.next then w.recipes.insert row h
      else w.recipes.update row.id (fun old => if old.id = row.id then row else old) (by
        intro old
        split
        · rename_i heq
          exact heq.symm
        · rfl) }

/-- What a served call does. -/
def act (w : World) (turn : Turn) : Served RecipeCall RecipeCall.Reply → World
  | ⟨.n8n request, _⟩ => if turn.carriedOut then w.carryOut turn.created request else w
  | ⟨.commitRecipe row, _⟩ => w.store row
  | ⟨.deleteRecipe recipeId, _⟩ => { w with recipes := w.recipes.delete recipeId }
  | _ => w

/-- One call: the deletions inside n8n come first. -/
def serve (w : World) (event : Event) : World := (w.deleteInside event.2.deleted).act event.2 event.1

/-- The world after a list of calls. -/
def after (w : World) (events : List Event) : World := events.foldl serve w

/-- A request begins: the deletions so far are no longer recent. -/
def begin (w : World) : World := { w with earlier := w.earlier ++ w.recent, recent := [] }

end World

/-- n8n can carry out a request: the workflow that it names exists, and a new id is new. -/
def N8nRequest.Possible (w : World) (created : String) : N8nRequest → Prop
  | .createWorkflow _ => created ∉ w.issued
  | .updateWorkflow id _ => w.workflows id ≠ none
  | .deleteWorkflow id => w.workflows id ≠ none
  | .setActive id _ => w.workflows id ≠ none
  | _ => True

/-- An answer that n8n can give: a success has been carried out, only what is possible is carried
out, and the object that answers a creation holds the id of the new workflow. -/
structure HonestAnswer (w : World) (turn : Turn) (request : N8nRequest) (answer : HttpAnswer) : Prop where
  success : answer.success = true → turn.carriedOut = true
  possible : turn.carriedOut = true → request.Possible w turn.created
  created : ∀ payload, request = .createWorkflow payload → ∀ fields, answer.object = some fields →
    Json.get? fields "id" = some (.str turn.created)

/-- A reply that the session or n8n can give. -/
def Honest (w : World) (turn : Turn) : Served RecipeCall RecipeCall.Reply → Prop
  | ⟨.getRecipe recipeId, row⟩ => row = w.recipes.row recipeId
  | ⟨.findRecipe name, row⟩ => row = w.recipes.rows.find? fun row => row.name = name
  | ⟨.flushRecipe _, recipeId⟩ => recipeId = w.recipes.next
  | ⟨.n8n request, answer⟩ => HonestAnswer w turn request answer
  | _ => True

/-- Every reply is honest in the world that it is given in. -/
def Follows : World → List Event → Prop
  | _, [] => True
  | w, event :: rest => Honest (w.deleteInside event.2.deleted) event.2 event.1 ∧ Follows (w.serve event) rest

/-- The requests that change recipes. -/
inductive RecipeRequest where
  | create (sub : String) (body : RawRecipe)
  | update (recipeId : ℕ) (body : RawRecipe)
  | activate (recipeId : ℕ)
  | deactivate (recipeId : ℕ)
  | delete (recipeId : ℕ)

/-- The handler of a request leaves a trace. -/
def RecipeRequest.Goes (texts : RecipeTexts) (trace : RecipeTrace) : RecipeRequest → Prop
  | .create sub body => ∃ result, (createRecipe texts sub body).Goes trace result
  | .update recipeId body => ∃ result, (updateRecipe texts recipeId body).Goes trace result
  | .activate recipeId => ∃ result, (activateRecipe recipeId).Goes trace result
  | .deactivate recipeId => ∃ result, (deactivateRecipe recipeId).Goes trace result
  | .delete recipeId => ∃ result, (deleteRecipe recipeId).Goes trace result

/-- A request with the calls that it made, or the deletion of a workflow between two requests. -/
inductive Occurrence where
  | request (request : RecipeRequest) (events : List Event)
  | deletedInside (id : String)

/-- What an occurrence makes of the world. -/
inductive Occurs (texts : RecipeTexts) (w : World) : Occurrence → World → Prop
  | request {request : RecipeRequest} {events : List Event} (hgoes : request.Goes texts (events.map Prod.fst))
      (hfollows : Follows w.begin events) : Occurs texts w (.request request events) (w.begin.after events)
  | deletedInside {id : String} : Occurs texts w (.deletedInside id) (w.deleteInside [id])

/-- The worlds of all runs that start without recipes, each occurrence meeting a condition on the
world before it. -/
inductive Reached (texts : RecipeTexts) (meets : World → Occurrence → Prop) : World → Prop
  | start {w : World} (hempty : w.recipes = .empty) : Reached texts meets w
  | step {w w' : World} {occurrence : Occurrence} (h : Reached texts meets w) (hmeets : meets w occurrence)
      (hoccurs : Occurs texts w occurrence w') : Reached texts meets w'

/-- A run under a condition is a run under a weaker one. -/
theorem Reached.mono {texts : RecipeTexts} {meets meets' : World → Occurrence → Prop} {w : World}
    (hmeets : ∀ w occurrence, meets w occurrence → meets' w occurrence) (h : Reached texts meets w) :
    Reached texts meets' w := by
  induction h with
  | start hempty => exact .start hempty
  | step _ hmeet hoccurs ih => exact .step ih (hmeets _ _ hmeet) hoccurs

/-! ## Reading the world after a call -/

namespace World

variable {w : World}

@[simp] theorem deleteInside_recipes (ids : List String) : (w.deleteInside ids).recipes = w.recipes := rfl

@[simp] theorem deleteInside_issued (ids : List String) : (w.deleteInside ids).issued = w.issued := rfl

@[simp] theorem carryOut_recipes (created : String) (request : N8nRequest) :
    (w.carryOut created request).recipes = w.recipes := by
  cases request <;> rfl

@[simp] theorem carryOut_recent (created : String) (request : N8nRequest) :
    (w.carryOut created request).recent = w.recent := by
  cases request <;> rfl

/-- Nothing that n8n does changes the rows. -/
@[simp] theorem act_asked_recipes (turn : Turn) (request : N8nRequest) (answer : HttpAnswer) :
    (w.act turn (asked request answer)).recipes = w.recipes := by
  simp only [act, asked]
  split
  · exact carryOut_recipes _ _
  · rfl

@[simp] theorem act_readRow (turn : Turn) (recipeId : ℕ) (row : Option RecipeRow) :
    w.act turn (readRow recipeId row) = w := rfl

@[simp] theorem act_found (turn : Turn) (name : String) (row : Option RecipeRow) :
    w.act turn (found name row) = w := rfl

@[simp] theorem act_flushed (turn : Turn) (name : String) (recipeId : ℕ) :
    w.act turn (flushed name recipeId) = w := rfl

@[simp] theorem act_committed (turn : Turn) (row : RecipeRow) : w.act turn (committed row) = w.store row := rfl

@[simp] theorem store_workflows (row : RecipeRow) : (w.store row).workflows = w.workflows := rfl

@[simp] theorem store_issued (row : RecipeRow) : (w.store row).issued = w.issued := rfl

@[simp] theorem store_recent (row : RecipeRow) : (w.store row).recent = w.recent := rfl

/-- Reading after a commit of a new row, or of a row that exists. -/
theorem store_row {row : RecipeRow} (hrow : row.id = w.recipes.next ∨ ∃ old, w.recipes.row row.id = some old)
    (recipeId : ℕ) :
    (w.store row).recipes.row recipeId = if recipeId = row.id then some row else w.recipes.row recipeId := by
  simp only [store]
  split
  · rename_i hnext
    rw [Table.row_insert, hnext]
  · rename_i hnext
    obtain ⟨old, hold⟩ := hrow.resolve_left hnext
    rw [Table.row_update, hold, Option.map_some, if_pos (w.recipes.keyed _ _ hold)]

end World

end FleetWorkflow.N8n
