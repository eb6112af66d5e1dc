import FleetWorkflow.Recipes.Safety
import FleetWorkflow.Recipes.Scoping
import Mathlib.Data.List.Pairwise

/-!
# The preview of a recipe

`describe_recipe`, on which the user decides, against the workflow that `compile_recipe` deploys. Every listed step is
compared with the node that stands in its place: its name, the address it calls, the operands and the parameters that
are read back from its expressions. A branch of a condition has the steps that run when the condition is answered that
way, and only those.
-/

namespace FleetWorkflow.Recipes

open FleetWorkflow.Flow FleetWorkflow.Python

/-! ## What leaves the company -/

/-- `WRITE_EXTERNAL_ACTIONS`. -/
def writeExternalActions : List ActionName := [.emailSend]

/-- `ActionStep.is_write_external`. -/
def ActionStep.isWriteExternal (step : ActionStep) : Bool := writeExternalActions.contains step.action

/-- `ConditionStep.is_write_external`. -/
def ConditionStep.isWriteExternal (step : ConditionStep) : Bool :=
  (step.thenSteps ++ step.elseSteps).any ActionStep.isWriteExternal

/-- `is_write_external` of a top-level step. -/
def Step.isWriteExternal : Step → Bool
  | .action step => step.isWriteExternal
  | .condition step => step.isWriteExternal

/-- `Recipe.has_write_external`. -/
def Recipe.hasWriteExternal (recipe : Recipe) : Bool := recipe.steps.any Step.isWriteExternal

/-! ## The lines -/

/-- The value of an operator. -/
def Operator.value : Operator → String
  | .eq => "eq"
  | .ne => "ne"
  | .gt => "gt"
  | .gte => "gte"
  | .lt => "lt"
  | .lte => "lte"
  | .contains => "contains"

/-- An action as the preview lists it. -/
structure ActionEntry where
  id : String
  action : String
  params : List (String × String)
  writeExternal : Bool

/-- A condition as the preview lists it. -/
structure ConditionEntry where
  id : String
  left : String
  operator : String
  right : String
  thenEntries : List ActionEntry
  elseEntries : List ActionEntry

/-- A line of the preview. -/
inductive Line where
  | schedule (cron : String)
  | manual
  | action (entry : ActionEntry)
  | condition (entry : ConditionEntry)

/-- The fields of a listed action. -/
def ActionEntry.fields (entry : ActionEntry) : List (String × Json) :=
  [("id", .str entry.id), ("action", .str entry.action),
    ("params", .obj (entry.params.map fun param => (param.1, .str param.2))),
    ("write_external", .bool entry.writeExternal)]

/-- The dictionary that a line is sent as. -/
def Line.asDict : Line → Json
  | .schedule cron => .obj [("kind", .str "trigger"), ("trigger", .str "schedule"), ("cron", .str cron)]
  | .manual => .obj [("kind", .str "trigger"), ("trigger", .str "manual")]
  | .action entry => .obj (("kind", .str "action") :: entry.fields)
  | .condition entry =>
    .obj
      [("kind", .str "condition"), ("id", .str entry.id), ("left", .str entry.left),
        ("operator", .str entry.operator), ("right", .str entry.right),
        ("then", .arr (entry.thenEntries.map fun step => .obj step.fields)),
        ("else", .arr (entry.elseEntries.map fun step => .obj step.fields))]

/-- The entry of an action. -/
def ActionStep.entry (step : ActionStep) : ActionEntry :=
  ⟨step.id, step.action.value, step.params, step.isWriteExternal⟩

/-- The entry of a condition. -/
def ConditionStep.entry (step : ConditionStep) : ConditionEntry :=
  ⟨step.id, step.left, step.operator.value, step.right, step.thenSteps.map ActionStep.entry,
    step.elseSteps.map ActionStep.entry⟩

/-- The line of a trigger. -/
def Trigger.line : Trigger → Line
  | .schedule cron => .schedule cron
  | .manual => .manual

/-- The line of a step. -/
def Step.line : Step → Line
  | .action step => .action step.entry
  | .condition step => .condition step.entry

/-- The lines of a recipe. -/
def describeLines (recipe : Recipe) : List Line := recipe.trigger.line :: recipe.steps.map Step.line

/-- `describe_recipe`. -/
def describeRecipe (recipe : Recipe) : List Json := (describeLines recipe).map Line.asDict

/-! ## What a line says about the workflow -/

/-- Every listed step, the steps of a condition after it. -/
inductive Entry where
  | action (entry : ActionEntry)
  | condition (entry : ConditionEntry)

/-- The steps that a line lists. -/
def Line.entries : Line → List Entry
  | .schedule _ => []
  | .manual => []
  | .action entry => [.action entry]
  | .condition entry => .condition entry :: (entry.thenEntries ++ entry.elseEntries).map .action

/-- The identifier of a listed step. -/
def Entry.id : Entry → String
  | .action entry => entry.id
  | .condition entry => entry.id

/-- The node that a listed step is looked for under. -/
def Entry.nodeName : Entry → String
  | .action entry => entry.action ++ " (" ++ entry.id ++ ")"
  | .condition entry => "if (" ++ entry.id ++ ")"

/-- The nodes of the listed steps, by their identifiers. -/
def listedNames (lines : List Line) : NodeNames :=
  (lines.flatMap Line.entries).map fun entry => (entry.id, entry.nodeName)

/-- A node calls the e-mail endpoint. -/
def Node.CallsEmail (node : Node) : Prop :=
  fieldOf "url" node.parameters = some (.str (urlBase ++ "/v1/service/email-send"))

/-- The operator of the only comparison of an `if` node. -/
def operatorOf (parameters : Json) : Option (Json × Json) := do
  let .arr [comparison] ← (fieldOf "conditions" parameters).bind (fieldOf "conditions") | none
  let operator ← fieldOf "operator" comparison
  return (← fieldOf "type" operator, ← fieldOf "operation" operator)

/-- An expression of the node computes a text of the recipe: its literals, and the references to listed steps. -/
def Computes (names : NodeNames) (text : String) (value : Json) : Prop :=
  ∃ code, value = .str (braced code) ∧ tokens code = some (valueTokens names text)

/-- A request node does what an entry says. -/
structure ShowsAction (names : NodeNames) (entry : ActionEntry) (node : Node) : Prop where
  id : node.id = "http-" ++ entry.id
  type : node.type = "n8n-nodes-base.httpRequest"
  url : ∃ action : ActionName, action.value = entry.action ∧
    fieldOf "url" node.parameters = some (.str (urlBase ++ servicePaths action))
  body : ∃ code, fieldOf "jsonBody" node.parameters = some (.str (braced code)) ∧
    tokens code = some (bodyTokens (entry.params.map fun param => (param.1, valueTokens names param.2)))
  external : entry.writeExternal = true ↔ node.CallsEmail

/-- An `if` node compares what an entry says. -/
structure ShowsCondition (names : NodeNames) (entry : ConditionEntry) (node : Node) : Prop where
  id : node.id = "if-" ++ entry.id
  type : node.type = "n8n-nodes-base.if"
  operator : ∃ operator : Operator, operator.value = entry.operator ∧
    operatorOf node.parameters = some (.str (operators operator).1, .str (operators operator).2)
  operands : ∃ left right, operandsOf node.parameters = some (left, right) ∧ Computes names entry.left left ∧
    (Computes names entry.right right ∨ right.isNumber = true ∧ Json.loads entry.right = .ok right)
  not_external : ¬ node.CallsEmail

/-- A node does what an entry says. -/
structure Shows (names : NodeNames) (entry : Entry) (node : Node) : Prop where
  name : node.name = entry.nodeName
  parameters :
    match entry with
    | .action entry => ShowsAction names entry node
    | .condition entry => ShowsCondition names entry node

/-- Every run visits the node if and only if the condition is answered so. -/
def Workflow.RunsWhen (workflow : Workflow) (condition : String) (answer : Bool) (name : String) : Prop :=
  ∀ outcome : String → Bool, ∀ trigger ∈ workflow.nodes, trigger.isTrigger → ∀ path,
    Walk (workflow.next outcome) trigger.name path → (name ∈ path ↔ outcome condition = answer)

/-- A preview that tells the truth about a workflow: the nodes after the triggers are those of the listed steps, in their
order, the branches of the conditions have the listed steps, and what leaves the company is said. -/
structure TellsTruth (recipe : Recipe) (lines : List Line) (workflow : Workflow) : Prop where
  listed : ∃ triggers nodes, workflow.nodes = triggers ++ nodes ∧ (∀ trigger ∈ triggers, trigger.isTrigger) ∧
    List.Forall₂ (Shows (listedNames lines)) (lines.flatMap Line.entries) nodes
  thens : ∀ condition, .condition condition ∈ lines → ∀ entry ∈ lines.flatMap Line.entries,
    (entry ∈ condition.thenEntries.map Entry.action ↔
      workflow.RunsWhen (Entry.condition condition).nodeName true entry.nodeName)
  elses : ∀ condition, .condition condition ∈ lines → ∀ entry ∈ lines.flatMap Line.entries,
    (entry ∈ condition.elseEntries.map Entry.action ↔
      workflow.RunsWhen (Entry.condition condition).nodeName false entry.nodeName)
  external : recipe.hasWriteExternal = true ↔ ∃ node ∈ workflow.nodes, node.CallsEmail

/-! ## The listed steps -/

/-- The entry of a step. -/
def Step.entry : Step → Entry
  | .action step => .action step.entry
  | .condition step => .condition step.entry

/-- A line lists its step and the steps of its branches. -/
theorem Step.line_entries (step : Step) : step.line.entries = step.withBranches.map Step.entry := by
  cases step with
  | action step => rfl
  | condition step =>
    simp only [Step.line, Line.entries, ConditionStep.entry, Step.withBranches, Step.branchSteps, List.map_append,
      List.map_map, List.map_cons]
    rfl

/-- The preview lists every step, in the order in which they are emitted. -/
theorem describeLines_entries (recipe : Recipe) :
    (describeLines recipe).flatMap Line.entries = recipe.allSteps.map Step.entry := by
  have htrigger : recipe.trigger.line.entries = [] := by cases recipe.trigger <;> rfl
  rw [describeLines, List.flatMap_cons, htrigger, List.nil_append, List.flatMap_map, Recipe.allSteps, List.map_flatMap]
  simp only [Step.line_entries]

/-- An entry has the identifier of its step. -/
theorem Step.entry_id (step : Step) : step.entry.id = step.id := by cases step <;> rfl

/-- An entry is looked for under the name that its step is emitted under. -/
theorem Step.entry_nodeName (step : Step) : step.entry.nodeName = nodeName step := by
  cases step with
  | action step => rfl
  | condition step =>
    have hlabel : "if (" = "if" ++ " (" := by decide
    simp only [Step.entry, Entry.nodeName, ConditionStep.entry, nodeName, Step.label, Step.id, hlabel]

/-- The listed names are those of all steps. -/
theorem listedNames_describeLines (recipe : Recipe) :
    listedNames (describeLines recipe) = recipe.allSteps.map fun step => (step.id, nodeName step) := by
  rw [listedNames, describeLines_entries, List.map_map]
  exact List.map_congr_left fun step _ => Prod.ext step.entry_id step.entry_nodeName

/-- What an emission knows of the earlier steps is in the list. -/
theorem ValidRecipe.get_listedNames (valid : ValidRecipe) {nodeNames : NodeNames} (h : nodeNames.Of valid.recipe)
    {id name : String} (hget : nodeNames.get id = some name) :
    (listedNames (describeLines valid.recipe)).get id = some name := by
  obtain ⟨step, hstep, rfl, rfl⟩ := h.get hget
  have hof : NodeNames.Of valid.recipe (listedNames (describeLines valid.recipe)) := by
    intro entry hentry
    rw [listedNames_describeLines] at hentry
    obtain ⟨other, hother, rfl⟩ := List.mem_map.mp hentry
    exact ⟨other, hother, rfl⟩
  have hsome : ((listedNames (describeLines valid.recipe)).get step.id).isSome := by
    rw [listedNames_describeLines, NodeNames.get, Option.isSome_map, List.find?_isSome]
    exact ⟨_, List.mem_map_of_mem hstep, by simp⟩
  obtain ⟨found, hfound⟩ := Option.isSome_iff_exists.mp hsome
  obtain ⟨other, hother, hid, rfl⟩ := hof.get hfound
  rw [hfound, valid.eq_of_id hother hstep hid]

/-- The tokens of a text do not depend on when it was emitted. -/
theorem ValidRecipe.valueTokens_listed (valid : ValidRecipe) {nodeNames : NodeNames}
    (h : nodeNames.Of valid.recipe) {value code : String} (hcode : jsExpression nodeNames value = .ok code) :
    valueTokens nodeNames value = valueTokens (listedNames (describeLines valid.recipe)) value := by
  obtain ⟨parts, hparts, -⟩ := bind_eq_ok.mp hcode
  have hsegment : ∀ segment ∈ segments value,
      operandToken nodeNames segment = operandToken (listedNames (describeLines valid.recipe)) segment := by
    intro segment hsegment
    obtain ⟨part, -, hpart⟩ := mem_mapM hparts hsegment
    cases segment with
    | literal text => rfl
    | reference ref =>
      rw [jsPart] at hpart
      cases hget : nodeNames.get ref.step with
      | none => simp [hget] at hpart
      | some target => rw [operandToken, operandToken, hget, valid.get_listedNames h hget]
  rw [valueTokens, valueTokens, List.map_congr_left fun segment hmem => congrArg (fun token => [token])
    (hsegment segment hmem)]

/-! ## The emitted nodes -/

/-- A node was emitted for a step, when nodes of other steps of the recipe were named. -/
def EmittedAs (recipe : Recipe) (step : Step) (node : Node) : Prop :=
  ∃ nodeNames position, NodeNames.Of recipe nodeNames ∧
    match step with
    | .action step => httpNode step nodeNames position = .ok node
    | .condition step => ifNode step nodeNames position = .ok node

/-- After the triggers there is one node for each step so far. -/
structure Lists (recipe : Recipe) (done : List Step) (state : CompileState) : Prop where
  nodes : ∃ nodes, state.nodes = triggerNodes recipe ++ nodes ∧ List.Forall₂ (EmittedAs recipe) done nodes
  named : state.nodeNames.Of recipe

variable {recipe : Recipe} {done : List Step} {state state' : CompileState}

/-- Emitting the node of a step lists it. -/
theorem Lists.emit (h : Lists recipe done state) {step : Step} {node : Node} (hstep : step ∈ recipe.allSteps)
    (hnode : EmittedAs recipe step node) (hnodes : state'.nodes = state.nodes ++ [node])
    (hnames : state'.nodeNames = (step.id, nodeName step) :: state.nodeNames) :
    Lists recipe (done ++ [step]) state' := by
  obtain ⟨nodes, heq, hall⟩ := h.nodes
  constructor
  · refine ⟨nodes ++ [node], by rw [hnodes, heq, List.append_assoc], ?_⟩
    exact List.rel_append hall (.cons hnode .nil)
  · rw [hnames]
    exact h.named.cons hstep

/-- Opening other edges lists nothing. -/
theorem Lists.reopen (h : Lists recipe done state) (pending : List Port) (column : ℕ) :
    Lists recipe done { state with pending := pending, column := column } :=
  ⟨h.nodes, h.named⟩

/-- An emitted action is listed. -/
theorem emitAction_lists {row : ℤ} {step : ActionStep} (hstep : .action step ∈ recipe.allSteps)
    (h : Lists recipe done state) (hemit : emitAction row state step = .ok state') :
    Lists recipe (done ++ [.action step]) state' := by
  obtain ⟨node, hnode, hemit⟩ := bind_eq_ok.mp hemit
  cases hemit
  exact h.emit hstep ⟨_, _, h.named.cons hstep, hnode⟩ rfl rfl

/-- An emitted condition is listed. -/
theorem emitCondition_lists {step : ConditionStep} (hstep : .condition step ∈ recipe.allSteps)
    (h : Lists recipe done state) (hemit : emitCondition state step = .ok state') :
    Lists recipe (done ++ [.condition step]) state' := by
  obtain ⟨node, hnode, hemit⟩ := bind_eq_ok.mp hemit
  cases hemit
  exact h.emit hstep ⟨_, _, h.named.cons hstep, hnode⟩ rfl rfl

/-- The actions of an emitted branch are listed. -/
theorem emitActions_lists {row : ℤ} {branch : List ActionStep}
    (hbranch : ∀ step ∈ branch, .action step ∈ recipe.allSteps) (h : Lists recipe done state)
    (hemit : branch.foldlM (emitAction row) state = .ok state') :
    Lists recipe (done ++ branch.map Step.action) state' := by
  induction branch generalizing done state with
  | nil =>
    cases hemit
    simpa using h
  | cons step branch ih =>
    obtain ⟨hstep, hbranch⟩ := List.forall_mem_cons.mp hbranch
    rw [List.foldlM_cons] at hemit
    obtain ⟨next, hnext, hemit⟩ := bind_eq_ok.mp hemit
    have hlists := ih hbranch (emitAction_lists hstep h hnext) hemit
    rwa [List.append_assoc] at hlists

/-- One round of the loop lists the step and the steps of its branches. -/
theorem compileStep_lists {step : Step} (hparts : ∀ part ∈ step.withBranches, part ∈ recipe.allSteps)
    (h : Lists recipe done state) (hcompile : compileStep state step = .ok state') :
    Lists recipe (done ++ step.withBranches) state' := by
  have hself := hparts step List.mem_cons_self
  cases step with
  | action step => exact emitAction_lists hself h hcompile
  | condition step =>
    have hbranch : ∀ branch ∈ step.thenSteps ++ step.elseSteps, .action branch ∈ recipe.allSteps :=
      fun branch hmem => hparts _ (List.mem_cons_of_mem _ (List.mem_map_of_mem hmem))
    obtain ⟨hthens, helses⟩ := List.forall_mem_append.mp hbranch
    obtain ⟨atIf, hif, hcompile⟩ := bind_eq_ok.mp hcompile
    obtain ⟨afterThen, hthen, hcompile⟩ := bind_eq_ok.mp hcompile
    obtain ⟨afterElse, helse, hcompile⟩ := bind_eq_ok.mp hcompile
    cases hcompile
    have hatIf := emitCondition_lists hself h hif
    have hafterThen := emitActions_lists hthens (hatIf.reopen [(nodeName (.condition step), 0)] atIf.column) hthen
    have hafterElse := emitActions_lists helses (hafterThen.reopen [(nodeName (.condition step), 1)] atIf.column) helse
    have hparts : done ++ (Step.condition step).withBranches =
        done ++ [.condition step] ++ step.thenSteps.map Step.action ++ step.elseSteps.map Step.action := by
      simp [Step.withBranches, Step.branchSteps]
    rw [hparts]
    exact ⟨hafterElse.nodes, hafterElse.named⟩

/-- The loop lists the steps. -/
theorem compileSteps_lists {steps : List Step} (hsteps : ∀ step ∈ steps, ∀ part ∈ step.withBranches, part ∈ recipe.allSteps)
    (h : Lists recipe done state) (hcompile : steps.foldlM compileStep state = .ok state') :
    Lists recipe (done ++ steps.flatMap Step.withBranches) state' := by
  induction steps generalizing done state with
  | nil =>
    cases hcompile
    simpa using h
  | cons step steps ih =>
    obtain ⟨hstep, hsteps⟩ := List.forall_mem_cons.mp hsteps
    rw [List.foldlM_cons] at hcompile
    obtain ⟨next, hnext, hcompile⟩ := bind_eq_ok.mp hcompile
    have hlists := ih hsteps (compileStep_lists hstep h hnext) hcompile
    rwa [List.append_assoc] at hlists

/-- A compiled recipe has its triggers and one node for each step, in order. -/
theorem compileRecipe_lists {workflow : Workflow} (hcompile : compileRecipe recipe = .ok workflow) :
    ∃ nodes, workflow.nodes = triggerNodes recipe ++ nodes ∧
      List.Forall₂ (EmittedAs recipe) recipe.allSteps nodes := by
  obtain ⟨state, hstate, hcompile⟩ := bind_eq_ok.mp hcompile
  have hinitial : Lists recipe [] (initialState recipe) :=
    ⟨⟨[], (List.append_nil _).symm, .nil⟩, List.forall_mem_nil _⟩
  have hfinal := compileSteps_lists (fun step hstep part hpart => List.mem_flatMap.mpr ⟨step, hstep, hpart⟩) hinitial
    hstate
  dsimp only at hcompile
  split at hcompile
  · cases hcompile
  · cases hcompile
    exact hfinal.nodes

/-! ## The nodes do what is listed -/

/-- Only the e-mail action calls the e-mail endpoint, and it is the one that is marked. -/
theorem isWriteExternal_iff (step : ActionStep) :
    step.isWriteExternal = true ↔ urlBase ++ servicePaths step.action = urlBase ++ "/v1/service/email-send" := by
  rw [ActionStep.isWriteExternal]
  cases step.action <;> decide

/-- The right operand is the expression of its text, or the number that the text spells. -/
theorem rightValue_eq_ok {step : ConditionStep} {nodeNames : NodeNames} {right : Json}
    (h : rightValue step nodeNames = .ok right) :
    (∃ code, jsExpression nodeNames step.right = .ok code ∧ right = .str (braced code)) ∨
      (operators step.operator).1 = "number" ∧ right.isNumber = true ∧ Json.loads step.right = .ok right := by
  have hquoted : ∀ value, (fun code => Json.str (braced code)) <$> jsExpression nodeNames step.right = .ok value →
      ∃ code, jsExpression nodeNames step.right = .ok code ∧ value = .str (braced code) := by
    intro value hvalue
    obtain ⟨code, hcode, rfl⟩ := map_eq_ok.mp hvalue
    exact ⟨code, hcode, rfl⟩
  unfold rightValue at h
  dsimp only at h
  split at h
  · rename_i hkind
    rw [Bool.and_eq_true, decide_eq_true_eq] at hkind
    split at h
    · rename_i hloads
      split at h
      · rename_i hnumber
        cases h
        exact .inr ⟨hkind.1, hnumber, hloads⟩
      · exact .inl (hquoted _ h)
    · exact .inl (hquoted _ h)
  · exact .inl (hquoted _ h)

variable {valid : ValidRecipe}

/-- Identifiers and names of the recipe's own steps. -/
theorem ValidRecipe.names_of_allSteps (valid : ValidRecipe) : ∀ step ∈ valid.recipe.allSteps,
    matchStepId step.id = true ∧ nodeName step ∈ valid.recipe.allSteps.map nodeName :=
  fun _ hstep => ⟨valid.matchStepId_id hstep, List.mem_map_of_mem hstep⟩

/-- An emitted expression computes its text. -/
theorem ValidRecipe.computes (valid : ValidRecipe) {nodeNames : NodeNames} (hof : nodeNames.Of valid.recipe)
    {value code : String} (htext : AcceptedText value) (hcode : jsExpression nodeNames value = .ok code) :
    Computes (listedNames (describeLines valid.recipe)) value (.str (braced code)) := by
  refine ⟨code, rfl, ?_⟩
  rw [← valid.valueTokens_listed hof hcode]
  exact (tokens_of_jsonExpression valid.names_of_allSteps hof htext hcode).1

/-- The request node of an action does what its entry says. -/
theorem showsAction_of_httpNode {step : ActionStep} (hstep : .action step ∈ valid.recipe.allSteps)
    {nodeNames : NodeNames} (hof : nodeNames.Of valid.recipe) {position : ℤ × ℤ} {node : Node}
    (h : httpNode step nodeNames position = .ok node) :
    ShowsAction (listedNames (describeLines valid.recipe)) step.entry node := by
  obtain ⟨url, hurl, h⟩ := bind_eq_ok.mp h
  obtain ⟨body, hbody, h⟩ := bind_eq_ok.mp h
  rw [serviceUrl_ok] at hurl
  cases hurl
  cases h
  obtain ⟨code, rfl, -, htokens, -⟩ := tokens_of_jsonBody valid.names_of_allSteps hof (valid.wellFormed hstep) hbody
  have hlisted : ∀ param ∈ step.params, valueTokens nodeNames param.2 =
      valueTokens (listedNames (describeLines valid.recipe)) param.2 := by
    intro param hparam
    obtain ⟨fields, hfields, -⟩ := bind_eq_ok.mp hbody
    obtain ⟨field, -, hfield⟩ := mem_mapM hfields hparam
    obtain ⟨code, hcode, -⟩ := bind_eq_ok.mp hfield
    exact valid.valueTokens_listed hof hcode
  constructor
  · rfl
  · rfl
  · exact ⟨step.action, rfl, rfl⟩
  · refine ⟨code, rfl, ?_⟩
    rw [htokens, List.map_congr_left fun param hparam => congrArg (Prod.mk param.1) (hlisted param hparam)]
    rfl
  · rw [Node.CallsEmail]
    exact (isWriteExternal_iff step).trans ⟨fun heq => congrArg (fun url => some (Json.str url)) heq,
      fun heq => Json.str.inj (Option.some.inj heq)⟩

/-- The `if` node of a condition compares what its entry says. -/
theorem showsCondition_of_ifNode {step : ConditionStep} (hstep : .condition step ∈ valid.recipe.allSteps)
    {nodeNames : NodeNames} (hof : nodeNames.Of valid.recipe) {position : ℤ × ℤ} {node : Node}
    (h : ifNode step nodeNames position = .ok node) :
    ShowsCondition (listedNames (describeLines valid.recipe)) step.entry node := by
  obtain ⟨right, hright, h⟩ := bind_eq_ok.mp h
  obtain ⟨left, hleft, h⟩ := bind_eq_ok.mp h
  cases h
  obtain ⟨-, hleftText, hrightText⟩ := valid.wellFormed hstep
  constructor
  · rfl
  · rfl
  · exact ⟨step.operator, rfl, rfl⟩
  · refine ⟨_, right, rfl, valid.computes hof hleftText hleft, ?_⟩
    rcases rightValue_eq_ok hright with ⟨code, hcode, rfl⟩ | ⟨-, hnumber⟩
    · exact Or.inl (valid.computes hof hrightText hcode)
    · exact Or.inr hnumber
  · intro hcalls
    cases hcalls

/-- An emitted node has the name of its step. -/
theorem name_of_emittedAs {recipe : Recipe} {step : Step} {node : Node} (h : EmittedAs recipe step node) :
    node.name = nodeName step := by
  obtain ⟨nodeNames, position, -, hnode⟩ := h
  cases step with
  | action step =>
    obtain ⟨url, -, hnode⟩ := bind_eq_ok.mp hnode
    obtain ⟨body, -, hnode⟩ := bind_eq_ok.mp hnode
    cases hnode
    rfl
  | condition step =>
    obtain ⟨right, -, hnode⟩ := bind_eq_ok.mp hnode
    obtain ⟨left, -, hnode⟩ := bind_eq_ok.mp hnode
    cases hnode
    rfl

/-- An emitted node does what the entry of its step says. -/
theorem shows_of_emittedAs {step : Step} (hstep : step ∈ valid.recipe.allSteps) {node : Node}
    (h : EmittedAs valid.recipe step node) :
    Shows (listedNames (describeLines valid.recipe)) step.entry node := by
  have hname := (name_of_emittedAs h).trans step.entry_nodeName.symm
  obtain ⟨nodeNames, position, hof, hnode⟩ := h
  cases step with
  | action step => exact ⟨hname, showsAction_of_httpNode hstep hof hnode⟩
  | condition step => exact ⟨hname, showsCondition_of_ifNode hstep hof hnode⟩

/-! ## Branches -/

/-- The branch of a condition that an answer leads to. -/
def ConditionStep.branch (step : ConditionStep) (answer : Bool) : List ActionStep :=
  if answer then step.thenSteps else step.elseSteps

/-- The steps that run are the top-level steps, and those of the branches that the answers lead to. -/
theorem mem_interpret {outcome : String → Bool} {steps : List Step} {step : Step} :
    step ∈ interpret outcome steps ↔ step ∈ steps ∨ ∃ condition, .condition condition ∈ steps ∧
      step ∈ (condition.branch (outcome (nodeName (.condition condition)))).map Step.action := by
  rw [interpret_eq_flatMap, List.mem_flatMap]
  constructor
  · rintro ⟨top, htop, hvisited⟩
    cases top with
    | action top => exact Or.inl (List.mem_singleton.mp hvisited ▸ htop)
    | condition top =>
      rcases List.mem_cons.mp hvisited with rfl | hbranch
      · exact Or.inl htop
      · exact Or.inr ⟨top, htop, hbranch⟩
  · rintro (hstep | ⟨condition, hcondition, hbranch⟩)
    · obtain ⟨branch, hvisited, -⟩ := step.visited_eq_cons outcome
      exact ⟨step, hstep, hvisited ▸ List.mem_cons_self⟩
    · exact ⟨.condition condition, hcondition, List.mem_cons_of_mem _ hbranch⟩

/-- A step belongs to one top-level step only. -/
theorem ValidRecipe.eq_of_mem_withBranches (valid : ValidRecipe) {top other part : Step}
    (htop : top ∈ valid.recipe.steps) (hother : other ∈ valid.recipe.steps) (hpart : part ∈ top.withBranches)
    (hpart' : part ∈ other.withBranches) : top = other := by
  have hnodup : (valid.recipe.steps.flatMap Step.withBranches).Nodup := List.Nodup.of_map Step.id valid.ids_nodup
  have hsymm : Std.Symm (Function.onFun List.Disjoint Step.withBranches) := ⟨fun _ _ h _ ha hb => h hb ha⟩
  by_contra hne
  exact (List.nodup_flatMap.mp hnodup).2.forall htop hother hne hpart hpart'

/-- A step of a branch is a step of the recipe. -/
theorem ConditionStep.mem_withBranches {condition : ConditionStep} {answer : Bool} {step : Step}
    (h : step ∈ (condition.branch answer).map Step.action) : step ∈ (Step.condition condition).withBranches := by
  obtain ⟨branch, hbranch, rfl⟩ := List.mem_map.mp h
  apply List.mem_cons_of_mem _ (List.mem_map_of_mem _)
  rw [ConditionStep.branch] at hbranch
  split at hbranch
  · exact List.mem_append_left _ hbranch
  · exact List.mem_append_right _ hbranch

/-- No step is in both branches. -/
theorem ValidRecipe.not_both (valid : ValidRecipe) {condition : ConditionStep}
    (hcondition : .condition condition ∈ valid.recipe.steps) {answer : Bool} {step : Step}
    (h : step ∈ (condition.branch answer).map Step.action) :
    step ∉ (condition.branch (!answer)).map Step.action := by
  have hnodup : (valid.recipe.steps.flatMap Step.withBranches).Nodup := List.Nodup.of_map Step.id valid.ids_nodup
  have hparts := ((List.nodup_flatMap.mp hnodup).1 _ hcondition).of_cons
  rw [Step.branchSteps, List.map_append] at hparts
  have hdisjoint := List.disjoint_of_nodup_append hparts
  intro h'
  cases answer with
  | true => exact hdisjoint h h'
  | false => exact hdisjoint h' h

/-- A branch has the steps that run when the condition is answered that way, and only then. -/
theorem ValidRecipe.mem_branch_iff (valid : ValidRecipe) {condition : ConditionStep}
    (hcondition : .condition condition ∈ valid.recipe.steps) (answer : Bool) (step : Step) :
    step ∈ (condition.branch answer).map Step.action ↔
      ∀ outcome : String → Bool, (step ∈ interpret outcome valid.recipe.steps ↔
        outcome (nodeName (.condition condition)) = answer) := by
  constructor
  · intro hbranch outcome
    rw [mem_interpret]
    constructor
    · rintro (htop | ⟨other, hother, hmem⟩)
      · -- a top-level step is no step of a branch
        have hsame := valid.eq_of_mem_withBranches htop hcondition List.mem_cons_self (ConditionStep.mem_withBranches hbranch)
        obtain ⟨action, -, rfl⟩ := List.mem_map.mp hbranch
        cases hsame
      · have hsame := valid.eq_of_mem_withBranches hother hcondition (ConditionStep.mem_withBranches hmem)
          (ConditionStep.mem_withBranches hbranch)
        cases hsame
        by_contra hanswer
        rw [Bool.eq_not.mpr hanswer] at hmem
        exact valid.not_both hcondition hbranch hmem
    · intro hanswer
      exact Or.inr ⟨condition, hcondition, hanswer ▸ hbranch⟩
  · intro hruns
    -- the answer everywhere, and the other answer here only
    have hall := (hruns fun _ => answer).mpr rfl
    have hother := mt (hruns fun name => if name = nodeName (.condition condition) then !answer else answer).mp
      (by simp)
    rw [mem_interpret] at hall hother
    rw [not_or] at hother
    obtain ⟨found, hfound, hmem⟩ := hall.resolve_left hother.1
    by_cases hname : nodeName (.condition found) = nodeName (.condition condition)
    · have hsame := valid.eq_of_nodeName (List.mem_flatMap.mpr ⟨_, hfound, List.mem_cons_self⟩)
        (List.mem_flatMap.mpr ⟨_, hcondition, List.mem_cons_self⟩) hname
      cases hsame
      exact hmem
    · refine absurd ⟨found, hfound, ?_⟩ hother.2
      rw [if_neg hname]
      exact hmem

/-- Steps of a recipe have the same entry only if they are the same. -/
theorem ValidRecipe.eq_of_entry (valid : ValidRecipe) {a b : Step} (ha : a ∈ valid.recipe.allSteps)
    (hb : b ∈ valid.recipe.allSteps) (h : a.entry = b.entry) : a = b :=
  valid.eq_of_id ha hb (a.entry_id.symm.trans ((congrArg Entry.id h).trans b.entry_id))

/-- The entries of a branch are those of its steps. -/
theorem ValidRecipe.mem_entries_iff (valid : ValidRecipe) {condition : ConditionStep}
    (hcondition : .condition condition ∈ valid.recipe.steps) (answer : Bool) {step : Step}
    (hstep : step ∈ valid.recipe.allSteps) :
    step.entry ∈ ((condition.branch answer).map ActionStep.entry).map Entry.action ↔
      step ∈ (condition.branch answer).map Step.action := by
  rw [List.map_map]
  constructor
  · intro h
    obtain ⟨action, haction, heq⟩ := List.mem_map.mp h
    have hmem : Step.action action ∈ (condition.branch answer).map Step.action := List.mem_map_of_mem haction
    have hpart := List.mem_flatMap.mpr ⟨_, hcondition, ConditionStep.mem_withBranches hmem⟩
    exact valid.eq_of_entry hpart hstep heq ▸ hmem
  · intro h
    obtain ⟨action, haction, rfl⟩ := List.mem_map.mp h
    exact List.mem_map.mpr ⟨action, haction, rfl⟩

/-! ## The whole preview -/

/-- A listed condition is one of the recipe. -/
theorem condition_of_mem_describeLines {recipe : Recipe} {entry : ConditionEntry}
    (h : .condition entry ∈ describeLines recipe) :
    ∃ condition, .condition condition ∈ recipe.steps ∧ entry = condition.entry := by
  rcases List.mem_cons.mp h with h | h
  · cases htrigger : recipe.trigger <;> rw [htrigger] at h <;> cases h
  · obtain ⟨step, hstep, heq⟩ := List.mem_map.mp h
    cases step with
    | action step => cases heq
    | condition step =>
      cases heq
      exact ⟨step, hstep, rfl⟩

/-- The runs of a compiled recipe visit the node of a step when the condition is answered so. -/
theorem runsWhen_iff {workflow : Workflow} (hcompile : compileRecipe valid.recipe = .ok workflow)
    (condition : ConditionStep) (answer : Bool) {step : Step} (hstep : step ∈ valid.recipe.allSteps) :
    workflow.RunsWhen (nodeName (.condition condition)) answer (nodeName step) ↔
      ∀ outcome : String → Bool, (step ∈ interpret outcome valid.recipe.steps ↔
        outcome (nodeName (.condition condition)) = answer) := by
  obtain ⟨compiled, state, hcompiled, hnodes, hconnections, htracks⟩ := compileRecipe_tracks valid
  cases hcompile.symm.trans hcompiled
  have hmem : ∀ outcome, nodeName step ∈ (interpret outcome valid.recipe.steps).map nodeName ↔
      step ∈ interpret outcome valid.recipe.steps := by
    intro outcome
    refine ⟨fun h => ?_, fun h => List.mem_map_of_mem h⟩
    obtain ⟨other, hother, hname⟩ := List.mem_map.mp h
    exact valid.eq_of_nodeName (interpret_subset outcome valid.recipe hother) hstep hname ▸ hother
  constructor
  · intro hruns outcome
    obtain ⟨trigger, htrigger, hstarts⟩ := exists_trigger_of_tracks htracks hnodes
    rw [← hmem outcome]
    exact hruns outcome trigger htrigger hstarts _
      ((walk_iff_of_tracks htracks hnodes hconnections outcome htrigger hstarts _).mpr rfl)
  · intro hruns outcome trigger htrigger hstarts path hpath
    rw [(walk_iff_of_tracks htracks hnodes hconnections outcome htrigger hstarts path).mp hpath, hmem outcome]
    exact hruns outcome

/-- The branches of a condition are listed as they run. -/
theorem listed_branch_iff {workflow : Workflow} (hcompile : compileRecipe valid.recipe = .ok workflow)
    {condition : ConditionStep} (hcondition : .condition condition ∈ valid.recipe.steps) (answer : Bool) :
    ∀ entry ∈ (describeLines valid.recipe).flatMap Line.entries,
      (entry ∈ ((condition.branch answer).map ActionStep.entry).map Entry.action ↔
        workflow.RunsWhen (Entry.condition condition.entry).nodeName answer entry.nodeName) := by
  intro entry hentry
  rw [describeLines_entries] at hentry
  obtain ⟨step, hstep, rfl⟩ := List.mem_map.mp hentry
  rw [valid.mem_entries_iff hcondition answer hstep, valid.mem_branch_iff hcondition, step.entry_nodeName,
    ← runsWhen_iff hcompile condition answer hstep]
  exact Iff.of_eq (congrArg (fun name => workflow.RunsWhen name answer (nodeName step))
    (Step.entry_nodeName (.condition condition)).symm)

/-- The triggers call nothing. -/
theorem not_callsEmail_of_trigger {recipe : Recipe} {trigger : Node} (h : trigger ∈ triggerNodes recipe) :
    trigger.isTrigger ∧ ¬ trigger.CallsEmail := by
  have hschedule : ∀ cron, ¬ (scheduleNode cron).CallsEmail := fun _ hcalls => by cases hcalls
  have hmanual : ∀ name, ¬ (manualNode name).CallsEmail := fun _ hcalls => by cases hcalls
  unfold triggerNodes at h
  split at h
  · rcases List.mem_cons.mp h with rfl | h
    · exact ⟨Or.inl rfl, hschedule _⟩
    · rw [List.mem_singleton.mp h]
      exact ⟨Or.inr rfl, hmanual _⟩
  · rw [List.mem_singleton.mp h]
    exact ⟨Or.inr rfl, hmanual _⟩

/-- Something leaves the company if and only if some step is marked. -/
theorem hasWriteExternal_iff (recipe : Recipe) :
    recipe.hasWriteExternal = true ↔ ∃ action, .action action ∈ recipe.allSteps ∧ action.isWriteExternal = true := by
  rw [Recipe.hasWriteExternal, List.any_eq_true]
  constructor
  · rintro ⟨step, hstep, hexternal⟩
    cases step with
    | action action => exact ⟨action, List.mem_flatMap.mpr ⟨_, hstep, List.mem_cons_self⟩, hexternal⟩
    | condition condition =>
      obtain ⟨action, haction, hexternal⟩ := List.any_eq_true.mp hexternal
      exact ⟨action, List.mem_flatMap.mpr ⟨_, hstep, List.mem_cons_of_mem _ (List.mem_map_of_mem haction)⟩, hexternal⟩
  · rintro ⟨action, haction, hexternal⟩
    obtain ⟨step, hstep, hpart⟩ := List.mem_flatMap.mp haction
    refine ⟨step, hstep, ?_⟩
    cases step with
    | action step =>
      cases List.mem_singleton.mp hpart
      exact hexternal
    | condition condition =>
      obtain ⟨branch, hbranch, heq⟩ := List.mem_map.mp ((List.mem_cons.mp hpart).resolve_left (fun h => by cases h))
      cases heq
      exact List.any_eq_true.mpr ⟨action, hbranch, hexternal⟩

/-- The preview of an accepted recipe tells the truth about its workflow. -/
theorem describeRecipe_tells_truth (valid : ValidRecipe) :
    ∃ workflow lines, compileRecipe valid.recipe = .ok workflow ∧
      describeRecipe valid.recipe = lines.map Line.asDict ∧ TellsTruth valid.recipe lines workflow := by
  obtain ⟨workflow, -, hcompile, -⟩ := compileRecipe_tracks valid
  obtain ⟨nodes, hnodes, hemitted⟩ := compileRecipe_lists hcompile
  have hsteps : List.Forall₂ (fun step => Shows (listedNames (describeLines valid.recipe)) step.entry)
      valid.recipe.allSteps nodes :=
    ((List.forall₂_and_left _ _).mpr ⟨fun _ hstep => hstep, hemitted⟩).imp fun _ _ h => shows_of_emittedAs h.1 h.2
  have hshows : List.Forall₂ (Shows (listedNames (describeLines valid.recipe)))
      ((describeLines valid.recipe).flatMap Line.entries) nodes := by
    rw [describeLines_entries, List.forall₂_map_left_iff]
    exact hsteps
  refine ⟨workflow, describeLines valid.recipe, hcompile, rfl, ?_, ?_, ?_, ?_⟩
  · exact ⟨triggerNodes valid.recipe, nodes, hnodes, fun trigger h => (not_callsEmail_of_trigger h).1, hshows⟩
  · intro entry hentry
    obtain ⟨condition, hcondition, rfl⟩ := condition_of_mem_describeLines hentry
    exact listed_branch_iff hcompile hcondition true
  · intro entry hentry
    obtain ⟨condition, hcondition, rfl⟩ := condition_of_mem_describeLines hentry
    exact listed_branch_iff hcompile hcondition false
  · rw [hasWriteExternal_iff, hnodes]
    constructor
    · rintro ⟨action, haction, hexternal⟩
      obtain ⟨node, hnode, hshown⟩ := exists_of_forall₂ hsteps.flip haction
      exact ⟨node, List.mem_append_right _ hnode, hshown.parameters.external.mp hexternal⟩
    · rintro ⟨node, hnode, hcalls⟩
      rcases List.mem_append.mp hnode with htrigger | hnode
      · exact absurd hcalls (not_callsEmail_of_trigger htrigger).2
      · obtain ⟨step, hstep, hshown⟩ := exists_of_forall₂ hsteps hnode
        cases step with
        | action action => exact ⟨action, hstep, hshown.parameters.external.mpr hcalls⟩
        | condition condition => exact absurd hcalls hshown.parameters.not_external

end FleetWorkflow.Recipes
