import FleetWorkflow.Python.Json
import FleetWorkflow.Recipes.Reference

/-!
# The recipe schema

The stored form of an automation and the validators that accept it. The raw types hold what
a request body carries once its shape and discriminators have been resolved; a validator
returns the first error it meets, where the original library collects the errors of
sibling fields.
-/

namespace FleetWorkflow.Recipes

open FleetWorkflow.Python

/-- The fixed action allowlist. -/
inductive ActionName where
  | pgQuery
  | agentRun
  | slackPost
  | emailSend
  | httpNotify
deriving DecidableEq, Repr

/-- The value of an action name. -/
def ActionName.value : ActionName → String
  | .pgQuery => "pg.query"
  | .agentRun => "agent.run"
  | .slackPost => "slack.post"
  | .emailSend => "email.send"
  | .httpNotify => "http.notify"

/-- The operators of a condition. -/
inductive Operator where
  | eq
  | ne
  | gt
  | gte
  | lt
  | lte
  | contains
deriving DecidableEq, Repr

/-- A text field of a parameter model with its length bounds. -/
structure ParamField where
  name : String
  minLength : ℕ
  maxLength : ℕ
deriving DecidableEq, Repr

/-- The fields of `PgQueryParams`. -/
def pgQueryParams : List ParamField := [⟨"sql", 1, 4000⟩]

/-- The fields of `AgentRunParams`. -/
def agentRunParams : List ParamField := [⟨"agent", 1, 64⟩, ⟨"question", 1, 4000⟩]

/-- The fields of `SlackPostParams`. -/
def slackPostParams : List ParamField := [⟨"channel", 2, 80⟩, ⟨"text", 1, 4000⟩]

/-- The fields of `EmailSendParams`. -/
def emailSendParams : List ParamField := [⟨"to", 3, 254⟩, ⟨"subject", 1, 200⟩, ⟨"body", 1, 8000⟩]

/-- The fields of `HttpNotifyParams`. -/
def httpNotifyParams : List ParamField := [⟨"title", 1, 200⟩, ⟨"message", 1, 4000⟩]

/-- `PARAMS_BY_ACTION`. -/
def paramsByAction : ActionName → List ParamField
  | .pgQuery => pgQueryParams
  | .agentRun => agentRunParams
  | .slackPost => slackPostParams
  | .emailSend => emailSendParams
  | .httpNotify => httpNotifyParams

/-- What a validator reports. -/
inductive SchemaError where
  | missing (field : String)
  | extraForbidden (field : String)
  | stringType (field : String)
  | tooShort (field : String) (minLength : ℕ)
  | tooLong (field : String) (maxLength : ℕ)
  | startsWithEquals (field : String)
  | onlyReferences (field value : String)
  | cronExpression (value : String)
  | stepId (value : String)
  | emptyCondition
  | recipeName (value : String)
  | duplicateStepId (id : String)
  | referenceOrder (step referenced : String)
deriving DecidableEq, Repr

/-- The text of a `RecipeValidationError`, with `repr` for Python's representation of a string. -/
def SchemaError.message (repr : String → String) : SchemaError → Option String
  | .startsWithEquals field => some s!"{field}: a value may not start with '=' (n8n expression)"
  | .onlyReferences field value =>
    some (field ++ ": only \x7b\x7bsteps.<id>.<field>\x7d\x7d references are allowed, got " ++ repr value)
  | .cronExpression value => some ("not a 5-field cron expression: " ++ repr value)
  | .stepId value => some ("step id must be lowercase a-z0-9_: " ++ repr value)
  | .emptyCondition => some "a condition needs at least one step on a branch"
  | .recipeName value => some ("name must be a lowercase kebab-case slug (3-64 chars): " ++ repr value)
  | .duplicateStepId id => some ("duplicate step id: " ++ repr id)
  | .referenceOrder step referenced =>
    some ("step " ++ repr step ++ " references " ++ repr referenced ++ ", which does not run before it")
  | _ => none

/-! ## Stored values -/

/-- When a recipe starts by itself. -/
inductive Trigger where
  | schedule (cron : String)
  | manual
deriving DecidableEq, Repr

/-- An action with the parameters that its typed model dumped, in field order. -/
structure ActionStep where
  id : String
  action : ActionName
  params : List (String × String)
deriving DecidableEq, Repr

/-- One level of branching. -/
structure ConditionStep where
  id : String
  left : String
  operator : Operator
  right : String
  thenSteps : List ActionStep
  elseSteps : List ActionStep
deriving DecidableEq, Repr

/-- A top-level step. -/
inductive Step where
  | action (step : ActionStep)
  | condition (step : ConditionStep)
deriving DecidableEq, Repr

/-- The identifier of a step. -/
def Step.id : Step → String
  | .action step => step.id
  | .condition step => step.id

/-- The canonical form of a user-defined automation. -/
structure Recipe where
  name : String
  description : String
  trigger : Trigger
  steps : List Step
deriving DecidableEq, Repr

/-! ## Text checks -/

/-- `check_text`: no leading `=`, and no brace outside a step reference. -/
def checkText (field value : String) : Except SchemaError Unit :=
  if value.toList.head? = some '=' then .error (.startsWithEquals field)
  else if (residue value).any (fun c => c = '{' || c = '}') then .error (.onlyReferences field value)
  else .ok ()

/-- `_STEP_ID_RE.match(value)`. -/
def matchStepId (value : String) : Bool :=
  let cs := dropFinalNewline value.toList
  1 ≤ cs.length && cs.length ≤ 64 && cs.all isStepChar

/-- `_RECIPE_NAME_RE.match(value)`. -/
def matchRecipeName (value : String) : Bool :=
  let cs := dropFinalNewline value.toList
  let alnum := fun c => isAsciiLower c || isAsciiDigit c
  3 ≤ cs.length && cs.length ≤ 64 && cs.head?.any alnum && cs.getLast?.any alnum &&
    cs.all fun c => alnum c || c = '-'

/-- The class of the first cron field. -/
def isCronChar (c : Char) : Bool := isDecimal c || c = '*' || c = ',' || c = '-' || c = '/'

/-- Exactly `count` further cron fields, each after some whitespace, up to the end. -/
def matchCronFields : ℕ → List Char → Bool
  | 0, cs => cs.isEmpty
  | count + 1, cs =>
    let isField := fun c => isCronChar c || isAsciiLower c || isAsciiUpper c
    let body := cs.dropWhile isSpace
    !(cs.takeWhile isSpace).isEmpty && !(body.takeWhile isField).isEmpty &&
      matchCronFields count (body.dropWhile isField)

/-- `_CRON_RE.match(value.strip())`; a stripped text has no final newline. -/
def matchCron (value : String) : Bool :=
  let cs := stripChars value.toList
  !(cs.takeWhile isCronChar).isEmpty && matchCronFields 4 (cs.dropWhile isCronChar)

/-! ## Validators -/

/-- One declared text field of a parameter model. -/
def validateField (params : List (String × Json)) (field : ParamField) :
    Except SchemaError (String × String) :=
  match Json.get? params field.name with
  | none => .error (.missing field.name)
  | some (.str value) =>
    if value.length < field.minLength then .error (.tooShort field.name field.minLength)
    else if field.maxLength < value.length then .error (.tooLong field.name field.maxLength)
    else .ok (field.name, value)
  | some _ => .error (.stringType field.name)

/-- `extra="forbid"`: no key outside the declared fields. -/
def forbidExtra (fields : List ParamField) (params : List (String × Json)) : Except SchemaError Unit :=
  match params.find? fun param => fields.all fun field => field.name ≠ param.1 with
  | some param => .error (.extraForbidden param.1)
  | none => .ok ()

/-- `model(**params).model_dump()` for the parameter model of an action. -/
def validateParams (action : ActionName) (params : List (String × Json)) :
    Except SchemaError (List (String × String)) := do
  let dumped ← (paramsByAction action).mapM (validateField params)
  forbidExtra (paramsByAction action) params
  dumped.forM fun param => checkText param.1 param.2
  return dumped

/-- The `_valid_id` validator of both step models. -/
def validId (value : String) : Except SchemaError Unit :=
  if matchStepId value then .ok () else .error (.stepId value)

/-- An action step before validation. -/
structure RawActionStep where
  id : String
  action : ActionName
  params : List (String × Json)

/-- A condition step before validation. -/
structure RawConditionStep where
  id : String
  left : String
  operator : Operator
  right : String
  thenSteps : List RawActionStep
  elseSteps : List RawActionStep

/-- A top-level step before validation. -/
inductive RawStep where
  | action (step : RawActionStep)
  | condition (step : RawConditionStep)

/-- A recipe before validation. -/
structure RawRecipe where
  name : String
  description : String
  trigger : Trigger
  steps : List RawStep

/-- The validators of `ActionStep`. -/
def RawActionStep.validate (raw : RawActionStep) : Except SchemaError ActionStep := do
  validId raw.id
  let params ← validateParams raw.action raw.params
  return ⟨raw.id, raw.action, params⟩

/-- The length bounds of a text field. -/
def checkLength (field : String) (minLength maxLength : ℕ) (value : String) : Except SchemaError Unit :=
  if value.length < minLength then .error (.tooShort field minLength)
  else if maxLength < value.length then .error (.tooLong field maxLength)
  else .ok ()

/-- The validators of `ConditionStep`. -/
def RawConditionStep.validate (raw : RawConditionStep) : Except SchemaError ConditionStep := do
  validId raw.id
  checkLength "left" 1 500 raw.left
  checkLength "right" 0 500 raw.right
  let thenSteps ← raw.thenSteps.mapM RawActionStep.validate
  let elseSteps ← raw.elseSteps.mapM RawActionStep.validate
  checkText "left" raw.left
  checkText "right" raw.right
  if thenSteps.isEmpty && elseSteps.isEmpty then .error .emptyCondition
  else return ⟨raw.id, raw.left, raw.operator, raw.right, thenSteps, elseSteps⟩

/-- The validators of a top-level step. -/
def RawStep.validate : RawStep → Except SchemaError Step
  | .action raw => Step.action <$> raw.validate
  | .condition raw => Step.condition <$> raw.validate

/-- `_valid_cron`: the stored expression is the stripped one. -/
def validTrigger : Trigger → Except SchemaError Trigger
  | .schedule cron => if matchCron cron then .ok (.schedule (strip cron)) else .error (.cronExpression cron)
  | .manual => .ok .manual

/-- The texts in which a step can refer to another one, in the order they are checked. -/
def Step.texts : Step → List String
  | .action step => step.params.map Prod.snd
  | .condition step =>
    [step.left, step.right] ++
      (step.thenSteps ++ step.elseSteps).flatMap fun branch => branch.params.map Prod.snd

/-- `_references`: the steps referred to in a step, branch steps included. -/
def Step.references (step : Step) : List String :=
  step.texts.flatMap fun text => (finditer text).map StepReference.step

/-- The branch steps of a step, the then branch first. -/
def Step.branchSteps : Step → List ActionStep
  | .action _ => []
  | .condition step => step.thenSteps ++ step.elseSteps

/-- Record the identifier of a branch step. -/
def seeBranchStep (seen : List String) (step : ActionStep) : Except SchemaError (List String) :=
  if step.id ∈ seen then .error (.duplicateStepId step.id) else .ok (seen ++ [step.id])

/-- One round of `_unique_ids_and_ordered_refs`. -/
def seeStep (seen : List String) (step : Step) : Except SchemaError (List String) :=
  if step.id ∈ seen then .error (.duplicateStepId step.id)
  else
    let seen := seen ++ [step.id]
    match step.references.find? fun referenced => referenced ∉ seen ∨ referenced = step.id with
    | some referenced => .error (.referenceOrder step.id referenced)
    | none => step.branchSteps.foldlM seeBranchStep seen

/-- The `_valid_name` validator. -/
def validName (value : String) : Except SchemaError Unit :=
  if matchRecipeName value then .ok () else .error (.recipeName value)

/-- The length bounds of the step list. -/
def checkStepCount (count : ℕ) : Except SchemaError Unit :=
  if count < 1 then .error (.tooShort "steps" 1)
  else if 20 < count then .error (.tooLong "steps" 20)
  else .ok ()

/-- The validators of `Recipe`. -/
def RawRecipe.validate (raw : RawRecipe) : Except SchemaError Recipe := do
  validName raw.name
  checkLength "description" 0 500 raw.description
  let trigger ← validTrigger raw.trigger
  checkStepCount raw.steps.length
  let steps ← raw.steps.mapM RawStep.validate
  let _ ← steps.foldlM seeStep []
  return ⟨raw.name, raw.description, trigger, steps⟩

/-- A recipe that the schema accepted. -/
structure ValidRecipe where
  recipe : Recipe
  accepted : ∃ raw : RawRecipe, raw.validate = .ok recipe

end FleetWorkflow.Recipes
