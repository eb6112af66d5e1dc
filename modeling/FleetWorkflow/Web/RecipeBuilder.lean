import FleetWorkflow.Python.Value
import FleetWorkflow.Recipes.Preview
import FleetWorkflow.Recipes.Validated

/-!
# The recipe builder

The builder keeps a recipe as a flat draft, in which every parameter of an action has a text, and sends it without
the empty ones. A stored recipe has all parameters of its actions and none of them is empty, in the order in which the
builder lists them: what was opened is sent back as it was stored.
-/

namespace FleetWorkflow.Recipes

open Python

/-! ## The stored definition -/

/-- `model_dump(mode="json")` of a trigger. -/
def Trigger.modelDump : Trigger → Json
  | .schedule cron => .obj [("type", .str "schedule"), ("cron", .str cron)]
  | .manual => .obj [("type", .str "manual")]

/-- `model_dump(mode="json")` of an action. -/
def ActionStep.modelDump (step : ActionStep) : Json :=
  .obj [("type", .str "action"), ("id", .str step.id), ("action", .str step.action.value),
    ("params", .obj (step.params.map fun param => (param.1, .str param.2)))]

/-- `model_dump(mode="json")` of a step. -/
def Step.modelDump : Step → Json
  | .action step => step.modelDump
  | .condition step =>
    .obj [("type", .str "condition"), ("id", .str step.id), ("left", .str step.left),
      ("operator", .str step.operator.value), ("right", .str step.right),
      ("then_steps", .arr (step.thenSteps.map ActionStep.modelDump)),
      ("else_steps", .arr (step.elseSteps.map ActionStep.modelDump))]

/-- `recipe.model_dump(mode="json")`, which is what a row stores. -/
def Recipe.modelDump (recipe : Recipe) : Json :=
  .obj [("name", .str recipe.name), ("description", .str recipe.description), ("trigger", recipe.trigger.modelDump),
    ("steps", .arr (recipe.steps.map Step.modelDump))]

end FleetWorkflow.Recipes

namespace FleetWorkflow.Web

open Python Recipes Flow

/-- A recipe as the API returns it, as far as the builder reads it. -/
structure RecipeOut where
  name : String
  description : String
  definition : Json

/-- `_to_out` of the row of a recipe, which is written with the name, the description and the dump of the recipe. -/
def recipeOut (recipe : Recipe) : RecipeOut := ⟨recipe.name, recipe.description, recipe.modelDump⟩

/-! ## Drafts -/

/-- An action of a draft. -/
structure DraftAction where
  id : String
  action : ActionName
  params : Dict

/-- A condition of a draft. -/
structure DraftCondition where
  id : String
  left : String
  operator : Operator
  right : String
  thenSteps : List DraftAction
  elseSteps : List DraftAction

/-- A step of a draft. -/
inductive DraftStep where
  | action (step : DraftAction)
  | condition (step : DraftCondition)

/-- What the builder keeps of a recipe. -/
structure Draft where
  name : String
  description : String
  trigger : Json
  steps : List DraftStep

/-- The names of `ACTIONS[action].fields`. -/
def actionFields : ActionName → List String
  | .pgQuery => ["sql"]
  | .agentRun => ["agent", "question"]
  | .slackPost => ["channel", "text"]
  | .emailSend => ["to", "subject", "body"]
  | .httpNotify => ["title", "message"]

/-- `emptyParams(action)`. -/
def emptyParams (action : ActionName) : Dict := (actionFields action).map fun name => (name, .str "")

/-- `newAction(index)`. -/
def newAction (index : ℕ) : DraftAction := ⟨"step" ++ Nat.repr index, .pgQuery, emptyParams .pgQuery⟩

/-! ## From a draft to a request -/

/-- The payload of an action; empty parameters are dropped. -/
def DraftAction.payload (step : DraftAction) : Json :=
  .obj [("type", .str "action"), ("id", .str step.id), ("action", .str step.action.value),
    ("params", .obj (step.params.filter fun param => !param.2.eqStr ""))]

/-- The payload of a step. -/
def DraftStep.payload : DraftStep → Json
  | .action step => step.payload
  | .condition step =>
    .obj [("type", .str "condition"), ("id", .str step.id), ("left", .str step.left),
      ("operator", .str step.operator.value), ("right", .str step.right),
      ("then_steps", .arr (step.thenSteps.map DraftAction.payload)),
      ("else_steps", .arr (step.elseSteps.map DraftAction.payload))]

/-- `toPayload(name, description, trigger, steps)`. -/
def toPayload (draft : Draft) : Json :=
  .obj [("name", .str draft.name), ("description", .str draft.description), ("trigger", draft.trigger),
    ("steps", .arr (draft.steps.map DraftStep.payload))]

/-! ## From the API to a draft

The casts of the source are not checked when it runs. Here there is no draft of a definition that is not of the shape
which they assume. -/

/-- `value[key]`. -/
def member? : Json → String → Option Json
  | .obj fields, key => Json.get? fields key
  | _, _ => none

/-- `String(value)` of a text. -/
def text? : Json → Option String
  | .str text => some text
  | _ => none

/-- `value as Record<string, unknown>[]`. -/
def list? : Json → Option (List Json)
  | .arr items => some items
  | _ => none

/-- `value as Record<string, string>`. -/
def record? : Json → Option Dict
  | .obj fields => some fields
  | _ => none

/-- `value as ActionName`. -/
def actionName? (value : Json) : Option ActionName :=
  [.pgQuery, .agentRun, .slackPost, .emailSend, .httpNotify].find? fun action => value.eqStr action.value

/-- `value as Operator`. -/
def operator? (value : Json) : Option Operator :=
  [.eq, .ne, .gt, .gte, .lt, .lte, .contains].find? fun operator => value.eqStr operator.value

/-- An action of a definition; its parameters are spread over the empty ones. -/
def readAction (raw : Json) : Option DraftAction := do
  let id ← member? raw "id" >>= text?
  let action ← member? raw "action" >>= actionName?
  let params ← member? raw "params" >>= record?
  return ⟨id, action, Json.merge (emptyParams action) params⟩

/-- A condition of a definition. -/
def readCondition (raw : Json) : Option DraftCondition := do
  let id ← member? raw "id" >>= text?
  let left ← member? raw "left" >>= text?
  let operator ← member? raw "operator" >>= operator?
  let right ← member? raw "right" >>= text?
  let thenSteps ← member? raw "then_steps" >>= list?
  let thenSteps ← thenSteps.mapM readAction
  let elseSteps ← member? raw "else_steps" >>= list?
  let elseSteps ← elseSteps.mapM readAction
  return ⟨id, left, operator, right, thenSteps, elseSteps⟩

/-- A step of a definition. -/
def readStep (raw : Json) : Option DraftStep :=
  if (member? raw "type").any (·.eqStr "action") then DraftStep.action <$> readAction raw
  else DraftStep.condition <$> readCondition raw

/-- `fromRecipe(recipe)`. -/
def fromRecipe (recipe : RecipeOut) : Option Draft := do
  let trigger ← member? recipe.definition "trigger"
  let steps ← member? recipe.definition "steps" >>= list?
  let steps ← steps.mapM readStep
  return ⟨recipe.name, recipe.description, trigger, steps⟩

/-! ## What a stored action has -/

/-- The fields of the builder are those of the parameter models. -/
theorem actionFields_eq (action : ActionName) : actionFields action = (paramsByAction action).map ParamField.name := by
  cases action <;> rfl

/-- No two fields of an action have the same name. -/
theorem nodup_actionFields (action : ActionName) : (actionFields action).Nodup := by
  cases action <;> decide

/-- No parameter may be empty. -/
theorem one_le_minLength {action : ActionName} {field : ParamField} (h : field ∈ paramsByAction action) :
    1 ≤ field.minLength := by
  have hall : ∀ field ∈ paramsByAction action, 1 ≤ field.minLength := by cases action <;> decide
  exact hall field h

/-- All parameters of an action are there, in order, and none is empty. -/
def Filled (step : ActionStep) : Prop :=
  step.params.map Prod.fst = actionFields step.action ∧ ∀ param ∈ step.params, param.2 ≠ ""

/-- An accepted field is as long as its model wants it. -/
theorem validateField_minLength {params : Dict} {field : ParamField} {param : String × String}
    (h : validateField params field = .ok param) : field.minLength ≤ param.2.length := by
  unfold validateField at h
  split at h
  · cases h
  · split at h
    · cases h
    · rename_i hmin
      split at h
      · cases h
      · cases h
        exact Nat.le_of_not_lt hmin
  · cases h

/-- An accepted action is filled. -/
theorem filled_of_validate {raw : RawActionStep} {step : ActionStep} (h : raw.validate = .ok step) : Filled step := by
  obtain ⟨⟨⟩, -, h⟩ := bind_eq_ok.mp h
  obtain ⟨params, hparams, h⟩ := bind_eq_ok.mp h
  cases h
  refine ⟨(validateParams_ok hparams).1.trans (actionFields_eq _).symm, ?_⟩
  obtain ⟨found, hfound, h⟩ := bind_eq_ok.mp hparams
  obtain ⟨⟨⟩, -, h⟩ := bind_eq_ok.mp h
  obtain ⟨⟨⟩, -, h⟩ := bind_eq_ok.mp h
  cases h
  intro param hparam hempty
  obtain ⟨field, hfield, hvalid⟩ := of_mem_mapM hfound hparam
  have hlength := validateField_minLength hvalid
  have hmin := one_le_minLength hfield
  rw [hempty, String.length_empty] at hlength
  omega

/-- The actions of an accepted step were accepted. -/
theorem filled_of_step {raw : RawStep} {step : Step} (h : raw.validate = .ok step) {action : ActionStep}
    (haction : Step.action action ∈ step.withBranches) : Filled action := by
  cases raw with
  | action raw =>
    obtain ⟨accepted, hraw, rfl⟩ := map_eq_ok.mp h
    cases List.mem_singleton.mp haction
    exact filled_of_validate hraw
  | condition raw =>
    obtain ⟨condition, hraw, rfl⟩ := map_eq_ok.mp h
    obtain ⟨⟨⟩, -, hraw⟩ := bind_eq_ok.mp hraw
    obtain ⟨⟨⟩, -, hraw⟩ := bind_eq_ok.mp hraw
    obtain ⟨⟨⟩, -, hraw⟩ := bind_eq_ok.mp hraw
    obtain ⟨thenSteps, hthen, hraw⟩ := bind_eq_ok.mp hraw
    obtain ⟨elseSteps, helse, hraw⟩ := bind_eq_ok.mp hraw
    obtain ⟨⟨⟩, -, hraw⟩ := bind_eq_ok.mp hraw
    obtain ⟨⟨⟩, -, hraw⟩ := bind_eq_ok.mp hraw
    split at hraw
    · cases hraw
    · cases hraw
      simp only [Step.withBranches, Step.branchSteps, List.mem_cons, reduceCtorEq, List.mem_map, Step.action.injEq,
        exists_eq_right, List.mem_append, false_or] at haction
      rcases haction with haction | haction
      · obtain ⟨raw', -, hok⟩ := of_mem_mapM hthen haction
        exact filled_of_validate hok
      · obtain ⟨raw', -, hok⟩ := of_mem_mapM helse haction
        exact filled_of_validate hok

/-! ## Spreading over the empty parameters -/

/-- A field that is there is written in its place. -/
theorem insert_present {before after : Dict} {key : String} {value old : Json} (hbefore : key ∉ before.map Prod.fst)
    (hafter : key ∉ after.map Prod.fst) :
    Json.insert (before ++ (key, old) :: after) key value = before ++ (key, value) :: after := by
  have hother : ∀ fields : Dict, key ∉ fields.map Prod.fst →
      fields.map (fun field => if field.1 = key then (key, value) else field) = fields := by
    intro fields hfields
    calc fields.map (fun field => if field.1 = key then (key, value) else field)
        = fields.map id := by
          apply List.map_congr_left
          intro field hfield
          apply if_neg
          intro hkey
          rw [← hkey] at hfields
          exact hfields (List.mem_map_of_mem hfield)
      _ = fields := List.map_id fields
  rw [Json.insert, if_pos (by simp), List.map_append, List.map_cons, if_pos rfl, hother before hbefore, hother after hafter]

/-- Fields that are written over empty ones with their names, after some that have been written. -/
theorem merge_blank_append (done fields : Dict) (hnodup : ((done ++ fields).map Prod.fst).Nodup) :
    Json.merge (done ++ fields.map fun field => (field.1, .str "")) fields = done ++ fields := by
  induction fields generalizing done with
  | nil => simp [Json.merge_nil]
  | cons field rest ih =>
    have hdone : field.1 ∉ done.map Prod.fst := by
      intro hmem
      rw [List.map_append, List.nodup_append] at hnodup
      exact hnodup.2.2 _ hmem _ List.mem_cons_self rfl
    have hrest : field.1 ∉ (rest.map fun field => ((field.1, .str "") : String × Json)).map Prod.fst := by
      rw [List.map_append, List.nodup_append, List.map_cons, List.nodup_cons] at hnodup
      rw [List.map_map]
      exact hnodup.2.1.1
    have hshift : ∀ after : Dict, done ++ field :: after = (done ++ [field]) ++ after := fun after =>
      List.append_cons done field after
    calc Json.merge (done ++ (field :: rest).map fun field => (field.1, .str "")) (field :: rest)
        = Json.merge (done ++ field :: rest.map fun field => (field.1, .str "")) rest := by
          rw [List.map_cons, Json.merge_cons, insert_present hdone hrest]
      _ = done ++ [field] ++ rest := by
          rw [hshift]
          apply ih
          rw [← hshift]
          exact hnodup
      _ = done ++ field :: rest := (hshift rest).symm

/-- The parameters of a filled action are left as they are by the empty ones. -/
theorem merge_emptyParams {step : ActionStep} (h : Filled step) :
    Json.merge (emptyParams step.action) (step.params.map fun param => (param.1, .str param.2)) =
      step.params.map fun param => (param.1, .str param.2) := by
  have hempty : emptyParams step.action =
      (step.params.map fun param => ((param.1, .str param.2) : String × Json)).map fun field => (field.1, .str "") := by
    rw [emptyParams, ← h.1, List.map_map, List.map_map]
    rfl
  have hnodup : ((step.params.map fun param => ((param.1, .str param.2) : String × Json)).map Prod.fst).Nodup := by
    rw [List.map_map]
    exact h.1 ▸ nodup_actionFields step.action
  rw [hempty]
  exact merge_blank_append [] _ hnodup

/-! ## Opening and saving -/

/-- An action name is read back. -/
theorem actionName?_value (action : ActionName) : actionName? (.str action.value) = some action := by
  cases action <;> rfl

/-- An operator is read back. -/
theorem operator?_value (operator : Operator) : operator? (.str operator.value) = some operator := by
  cases operator <;> rfl

/-- The draft of a stored action. -/
def draftAction (step : ActionStep) : DraftAction :=
  ⟨step.id, step.action, step.params.map fun param => (param.1, .str param.2)⟩

/-- A stored action is opened with its own parameters. -/
theorem readAction_modelDump {step : ActionStep} (h : Filled step) : readAction step.modelDump = some (draftAction step) := by
  simp [readAction, ActionStep.modelDump, member?, Json.get?, text?, actionName?_value, record?, merge_emptyParams h,
    draftAction]

/-- It is sent as it was stored. -/
theorem payload_draftAction {step : ActionStep} (h : Filled step) : (draftAction step).payload = step.modelDump := by
  have hfilter : (step.params.map fun param => ((param.1, .str param.2) : String × Json)).filter
      (fun param => !param.2.eqStr "") = step.params.map fun param => (param.1, .str param.2) := by
    rw [List.filter_eq_self]
    intro field hfield
    obtain ⟨param, hparam, rfl⟩ := List.mem_map.mp hfield
    simpa [Json.eqStr] using h.2 param hparam
  simp only [DraftAction.payload, draftAction, hfilter, ActionStep.modelDump]

/-- Stored actions are opened and sent as they were stored. -/
theorem mapM_readAction {steps : List ActionStep} (h : ∀ step ∈ steps, Filled step) :
    (steps.map ActionStep.modelDump).mapM readAction = some (steps.map draftAction) := by
  induction steps with
  | nil => rfl
  | cons step rest ih =>
    rw [List.forall_mem_cons] at h
    simp [readAction_modelDump h.1, ih h.2]

/-- The draft of a stored step. -/
def draftStep : Step → DraftStep
  | .action step => .action (draftAction step)
  | .condition step =>
    .condition ⟨step.id, step.left, step.operator, step.right, step.thenSteps.map draftAction, step.elseSteps.map draftAction⟩

/-- All actions of a step are filled. -/
def StepFilled (step : Step) : Prop := ∀ action, Step.action action ∈ step.withBranches → Filled action

/-- The branches of a filled condition. -/
theorem stepFilled_condition {step : ConditionStep} (h : StepFilled (.condition step)) :
    (∀ action ∈ step.thenSteps, Filled action) ∧ ∀ action ∈ step.elseSteps, Filled action := by
  constructor
  · intro action haction
    apply h action
    simp [Step.withBranches, Step.branchSteps, haction]
  · intro action haction
    apply h action
    simp [Step.withBranches, Step.branchSteps, haction]

/-- A stored step is opened. -/
theorem readStep_modelDump {step : Step} (h : StepFilled step) : readStep step.modelDump = some (draftStep step) := by
  cases step with
  | action step =>
    have hread := readAction_modelDump (h step List.mem_cons_self)
    have htype : member? step.modelDump "type" = some (.str "action") := rfl
    simp only [readStep, Step.modelDump, htype, hread]
    rfl
  | condition step =>
    obtain ⟨hthen, helse⟩ := stepFilled_condition h
    have htype : member? (Step.condition step).modelDump "type" = some (.str "condition") := rfl
    have hread : readCondition (Step.condition step).modelDump =
        some ⟨step.id, step.left, step.operator, step.right, step.thenSteps.map draftAction,
          step.elseSteps.map draftAction⟩ := by
      simp [readCondition, Step.modelDump, member?, Json.get?, text?, operator?_value, list?, mapM_readAction hthen,
        mapM_readAction helse]
    simp only [readStep, htype, hread]
    rfl

/-- It is sent as it was stored. -/
theorem payload_draftStep {step : Step} (h : StepFilled step) : (draftStep step).payload = step.modelDump := by
  cases step with
  | action step => exact payload_draftAction (h step List.mem_cons_self)
  | condition step =>
    obtain ⟨hthen, helse⟩ := stepFilled_condition h
    have hactions : ∀ actions : List ActionStep, (∀ action ∈ actions, Filled action) →
        (actions.map draftAction).map DraftAction.payload = actions.map ActionStep.modelDump := by
      intro actions hfilled
      rw [List.map_map]
      exact List.map_congr_left fun action haction => payload_draftAction (hfilled action haction)
    simp only [draftStep, DraftStep.payload, hactions _ hthen, hactions _ helse, Step.modelDump]

/-- The steps of an accepted recipe are filled. -/
theorem stepFilled_of_mem (valid : ValidRecipe) {step : Step} (hstep : step ∈ valid.recipe.steps) : StepFilled step := by
  obtain ⟨recipe, raw, h⟩ := valid
  obtain ⟨⟨⟩, -, h⟩ := bind_eq_ok.mp h
  obtain ⟨⟨⟩, -, h⟩ := bind_eq_ok.mp h
  obtain ⟨trigger, -, h⟩ := bind_eq_ok.mp h
  obtain ⟨⟨⟩, -, h⟩ := bind_eq_ok.mp h
  obtain ⟨steps, hsteps, h⟩ := bind_eq_ok.mp h
  obtain ⟨seen, -, h⟩ := bind_eq_ok.mp h
  cases h
  obtain ⟨rawStep, -, hok⟩ := of_mem_mapM hsteps hstep
  exact fun action haction => filled_of_step hok haction

/-- Filled steps are opened one by one. -/
theorem mapM_readStep {steps : List Step} (h : ∀ step ∈ steps, StepFilled step) :
    (steps.map Step.modelDump).mapM readStep = some (steps.map draftStep) := by
  induction steps with
  | nil => rfl
  | cons step rest ih =>
    rw [List.forall_mem_cons] at h
    simp [readStep_modelDump h.1, ih h.2]

/-- The draft of a stored recipe. -/
def draftOf (recipe : Recipe) : Draft :=
  ⟨recipe.name, recipe.description, recipe.trigger.modelDump, recipe.steps.map draftStep⟩

/-- Every stored recipe is opened. -/
theorem fromRecipe_recipeOut (valid : ValidRecipe) : fromRecipe (recipeOut valid.recipe) = some (draftOf valid.recipe) := by
  have hsteps := mapM_readStep fun step => stepFilled_of_mem valid
  simp [fromRecipe, recipeOut, Recipe.modelDump, member?, Json.get?, list?, hsteps, draftOf]

/-- What is opened and saved without a change is sent as it was stored. -/
theorem toPayload_fromRecipe (valid : ValidRecipe) :
    (fromRecipe (recipeOut valid.recipe)).map toPayload = some valid.recipe.modelDump := by
  have hsteps : (valid.recipe.steps.map draftStep).map DraftStep.payload = valid.recipe.steps.map Step.modelDump := by
    rw [List.map_map]
    exact List.map_congr_left fun step hstep => payload_draftStep (stepFilled_of_mem valid hstep)
  rw [fromRecipe_recipeOut]
  simp only [Option.map_some, toPayload, draftOf, hsteps, Recipe.modelDump]

end FleetWorkflow.Web
