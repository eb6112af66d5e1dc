import FleetWorkflow.Recipes.Emission
import FleetWorkflow.Recipes.Validated

/-!
# Compiled recipes mean what they say

A recipe is interpreted top to bottom under an outcome for each condition; its workflow is walked
from a trigger along the connections under the same outcomes. The walk visits the nodes of the
interpreted steps. What a node does when it is visited is n8n's business and is not modelled.
-/

namespace FleetWorkflow.Recipes

open FleetWorkflow.Flow FleetWorkflow.Python

/-! ## The two meanings -/

/-- The steps that run top to bottom, when each condition has the outcome of its node. -/
def interpret (outcome : String → Bool) : List Step → List Step
  | [] => []
  | .action step :: rest => .action step :: interpret outcome rest
  | .condition step :: rest =>
    .condition step ::
      (if outcome (nodeName (.condition step)) then step.thenSteps else step.elseSteps).map Step.action ++
        interpret outcome rest

/-- The output through which a node of the workflow is left: an `if` node answers its outcome. -/
def Workflow.taken (workflow : Workflow) (outcome : String → Bool) (name : String) : ℕ :=
  match workflow.nodes.find? fun node => node.name = name with
  | some node => if node.type = "n8n-nodes-base.if" then (if outcome name then 0 else 1) else 0
  | none => 0

/-- The nodes that the connections lead to after a node. -/
def Workflow.next (workflow : Workflow) (outcome : String → Bool) (name : String) : List String :=
  (workflow.connections.at name (workflow.taken outcome name)).map Target.node

/-- A node that starts a run. -/
def Node.isTrigger (node : Node) : Prop :=
  node.type = "n8n-nodes-base.scheduleTrigger" ∨ node.type = "n8n-nodes-base.webhook"

/-! ## The whole loop -/

/-- The item that a step is wired as. -/
def Step.item : Step → Item String
  | .action step => .step (nodeName (.action step))
  | .condition step =>
    .branch (nodeName (.condition step)) (step.thenSteps.map fun branch => nodeName (.action branch))
      (step.elseSteps.map fun branch => nodeName (.action branch))

/-- The nodes of a step's item are those of the step and its branches. -/
theorem Step.item_nodes (step : Step) : step.item.nodes = step.withBranches.map nodeName := by
  cases step with
  | action step => rfl
  | condition step => simp [Step.item, Item.nodes, Step.withBranches, Step.branchSteps, Function.comp_def]

/-- A reference in a text of a step is a reference of the step. -/
theorem Step.mem_references {step : Step} {text : String} (htext : text ∈ step.texts) {ref : StepReference}
    (href : ref ∈ finditer text) : ref.step ∈ step.references :=
  List.mem_flatMap.mpr ⟨text, htext, List.mem_map.mpr ⟨ref, href, rfl⟩⟩

variable {recipe : Recipe} {known : String → Prop} {done : List Step} {state : CompileState}
  {w : Wiring String}

/-- One round of the loop succeeds and wires the step's item. -/
theorem compileStep_tracks (h : Tracks recipe known done state w) (step : Step)
    (hknown : ∀ part ∈ step.withBranches, known (nodeName part))
    (hrefs : ∀ referenced ∈ step.references, referenced ∈ done.map Step.id) :
    ∃ state', compileStep state step = .ok state' ∧
      Tracks recipe known (done ++ step.withBranches) state' (wireItem w step.item) := by
  have hself : known (nodeName step) := hknown step List.mem_cons_self
  cases step with
  | action step =>
    exact emitAction_tracks h 0 step hself fun text htext ref href =>
      hrefs ref.step (Step.mem_references htext href)
  | condition step =>
    have hbranch : ∀ branch ∈ step.thenSteps ++ step.elseSteps, ∀ text ∈ branch.params.map Prod.snd,
        ∀ ref ∈ finditer text, ref.step ∈ done.map Step.id := by
      intro branch hmem text htext ref href
      refine hrefs ref.step (Step.mem_references (List.mem_append_right _ ?_) href)
      exact List.mem_flatMap.mpr ⟨branch, hmem, htext⟩
    have hnames : ∀ branch ∈ step.thenSteps ++ step.elseSteps, known (nodeName (.action branch)) :=
      fun branch hmem => hknown _ (List.mem_cons_of_mem _ (List.mem_map.mpr ⟨branch, hmem, rfl⟩))
    have hresolves : Resolves state.nodeNames [step.left, step.right] :=
      h.resolves fun text htext ref href =>
        hrefs ref.step (Step.mem_references (List.mem_append_left _ htext) href)
    obtain ⟨node, hnode, hhead⟩ := ifNode_ok (((state.column + 1 : ℕ) : ℤ) * 240, 0)
      (hresolves.cons step.id (nodeName (.condition step)))
    have hif := h.emit hself hhead 0 (state.column + 1)
    obtain ⟨afterThen, hthen, htracksThen⟩ := emitActions_tracks (-160) step.thenSteps hif
      (fun branch hmem => hnames branch (List.mem_append_left _ hmem))
      (fun branch hmem text htext ref href => by
        rw [List.map_append]
        exact List.mem_append_left _
          (hbranch branch (List.mem_append_left _ hmem) text htext ref href))
    have hreopen := htracksThen.reopen [(nodeName (.condition step), 1)]
      (fun port hport => by rw [List.mem_singleton.mp hport]; exact hself) (state.column + 1)
    obtain ⟨afterElse, helse, htracksElse⟩ := emitActions_tracks 160 step.elseSteps hreopen
      (fun branch hmem => hnames branch (List.mem_append_right _ hmem))
      (fun branch hmem text htext ref href => by
        rw [List.map_append, List.map_append]
        exact List.mem_append_left _ (List.mem_append_left _
          (hbranch branch (List.mem_append_right _ hmem) text htext ref href)))
    have hcondition : emitCondition state step = .ok
        { nodes := state.nodes ++ [node]
          connections := connectPending state.connections state.pending (nodeName (.condition step))
          nodeNames := (step.id, nodeName (.condition step)) :: state.nodeNames
          pending := []
          column := state.column + 1 } := by
      rw [emitCondition, hnode]
      rfl
    have hcompile : compileStep state (.condition step) = .ok
        { afterElse with
          pending := afterThen.pending ++ afterElse.pending
          column := state.column + 1 + max step.thenSteps.length step.elseSteps.length } := by
      refine bind_eq_ok.mpr ⟨_, hcondition, bind_eq_ok.mpr ⟨_, hthen, bind_eq_ok.mpr ⟨_, helse, rfl⟩⟩⟩
    refine ⟨_, hcompile, ?_⟩
    have hjoin := htracksElse.reopen (afterThen.pending ++ afterElse.pending)
      (fun port hport => (List.mem_append.mp hport).elim (htracksThen.pending_known port)
        (htracksElse.pending_known port))
      (state.column + 1 + max step.thenSteps.length step.elseSteps.length)
    rw [htracksThen.pending, htracksElse.pending] at hjoin ⊢
    simpa [Step.withBranches, Step.branchSteps, wireItem, Step.item] using hjoin

/-- The loop over ordered steps succeeds and wires their items. -/
theorem compileSteps_tracks (steps : List Step) (h : Tracks recipe known done state w)
    (hordered : Ordered (done.map Step.id) steps)
    (hknown : ∀ part ∈ steps.flatMap Step.withBranches, known (nodeName part)) :
    ∃ state', steps.foldlM compileStep state = .ok state' ∧
      Tracks recipe known (done ++ steps.flatMap Step.withBranches) state' (wire w (steps.map Step.item)) := by
  induction steps generalizing done state w with
  | nil => exact ⟨state, rfl, by simpa [wire] using h⟩
  | cons step rest ih =>
    rw [List.flatMap_cons] at hknown
    obtain ⟨next, hnext, htracks⟩ := compileStep_tracks h step
      (fun part hpart => hknown part (List.mem_append_left _ hpart)) hordered.1.references_seen
    obtain ⟨state', hstate, htracks'⟩ := ih htracks
      (by simpa only [List.map_append, Step.ids] using hordered.2)
      (fun part hpart => hknown part (List.mem_append_right _ hpart))
    refine ⟨state', by rw [List.foldlM_cons, hnext]; exact hstate, ?_⟩
    simpa [wire] using htracks'

/-! ## Names and identifiers of the emitted nodes -/

/-- The text between the parentheses that end a node name. -/
def parenthesised (name : String) : List Char := ((name.toList.dropWhile fun c => c ≠ '(').tail).dropLast

/-- A label has no parenthesis, so a node name shows the identifier of its step. -/
theorem parenthesised_nodeName (step : Step) : parenthesised (nodeName step) = step.id.toList := by
  have hlabel : ∀ c ∈ step.label.toList, (decide (c ≠ '(')) = true := by
    cases step with
    | action step => cases haction : step.action <;> simp [Step.label, haction, ActionName.value]
    | condition step => simp [Step.label]
  have hname : (nodeName step).toList =
      step.label.toList ++ (' ' :: '(' :: (step.id.toList ++ [')'])) := by
    simp [nodeName]
  rw [parenthesised, hname, List.dropWhile_append_of_pos hlabel]
  simp

/-- The text after the first hyphen of a node identifier. -/
def afterHyphen (id : String) : List Char := (id.toList.dropWhile fun c => c ≠ '-').tail

/-- A node identifier ends with the identifier of its step. -/
theorem afterHyphen_head (step : Step) : afterHyphen step.head.id = step.id.toList := by
  cases step with
  | action step => simp [afterHyphen, Step.head, Step.id]
  | condition step => simp [afterHyphen, Step.head, Step.id]

/-- The trigger nodes have distinct names and identifiers. -/
theorem triggerNodes_nodup (recipe : Recipe) :
    ((triggerNodes recipe).map Node.name).Nodup ∧ ((triggerNodes recipe).map Node.id).Nodup := by
  cases htrigger : recipe.trigger with
  | schedule cron => simp [triggerNodes, htrigger, scheduleNode, manualNode]
  | manual => simp [triggerNodes, htrigger]

/-- A trigger name is no step's node name, and a trigger identifier no step's node identifier. -/
theorem triggerNodes_disjoint {recipe : Recipe} {trigger : Node} (htrigger : trigger ∈ triggerNodes recipe)
    {step : Step} (hstep : matchStepId step.id = true) :
    trigger.name ≠ nodeName step ∧ trigger.id ≠ step.head.id := by
  have hparenthesised : matchStepId (String.ofList (parenthesised trigger.name)) = false ∧
      trigger.id.toList.head? = some 't' := by
    have hcases : trigger.name = "Schedule" ∧ trigger.id = "trigger-schedule" ∨
        trigger.name = "Manual run (from Fleet)" ∧ trigger.id = "trigger-webhook" := by
      unfold triggerNodes at htrigger
      split at htrigger
      · rcases List.mem_cons.mp htrigger with rfl | htrigger
        · exact .inl ⟨rfl, rfl⟩
        · rw [List.mem_singleton.mp htrigger]
          exact .inr ⟨rfl, rfl⟩
      · rw [List.mem_singleton.mp htrigger]
        exact .inr ⟨rfl, rfl⟩
    rcases hcases with ⟨hname, hid⟩ | ⟨hname, hid⟩
    · rw [hname, hid]
      decide
    · rw [hname, hid]
      decide
  refine ⟨fun heq => ?_, fun heq => ?_⟩
  · have hfalse := hparenthesised.1
    rw [heq, parenthesised_nodeName, String.ofList_toList, hstep] at hfalse
    cases hfalse
  · have hletter := hparenthesised.2
    rw [heq] at hletter
    cases step with
    | action step => simp [Step.head] at hletter
    | condition step => simp [Step.head] at hletter

/-- The nodes of a compiled recipe have distinct names. -/
theorem names_nodup (valid : ValidRecipe) :
    ((triggerNodes valid.recipe).map Node.name ++ valid.recipe.allSteps.map nodeName).Nodup := by
  refine List.nodup_append.mpr ⟨(triggerNodes_nodup _).1, ?_, ?_⟩
  · refine List.Nodup.of_map parenthesised ?_
    have hmap : (valid.recipe.allSteps.map nodeName).map parenthesised =
        (valid.recipe.allSteps.map Step.id).map String.toList := by
      simp [Function.comp_def, parenthesised_nodeName]
    rw [hmap]
    exact valid.ids_nodup.map fun a b hab => String.toList_inj.mp hab
  · intro name hname other hother heq
    obtain ⟨trigger, htrigger, rfl⟩ := List.mem_map.mp hname
    obtain ⟨step, hstep, rfl⟩ := List.mem_map.mp hother
    exact (triggerNodes_disjoint htrigger (valid.matchStepId_id hstep)).1 heq

/-- The nodes of a compiled recipe have distinct identifiers. -/
theorem ids_nodup (valid : ValidRecipe) :
    ((triggerNodes valid.recipe).map Node.id ++
      valid.recipe.allSteps.map fun step => step.head.id).Nodup := by
  refine List.nodup_append.mpr ⟨(triggerNodes_nodup _).2, ?_, ?_⟩
  · refine List.Nodup.of_map afterHyphen ?_
    have hmap : (valid.recipe.allSteps.map fun step => step.head.id).map afterHyphen =
        (valid.recipe.allSteps.map Step.id).map String.toList := by
      simp [Function.comp_def, afterHyphen_head]
    rw [hmap]
    exact valid.ids_nodup.map fun a b hab => String.toList_inj.mp hab
  · intro id hid other hother heq
    obtain ⟨trigger, htrigger, rfl⟩ := List.mem_map.mp hid
    obtain ⟨step, hstep, rfl⟩ := List.mem_map.mp hother
    exact (triggerNodes_disjoint htrigger (valid.matchStepId_id hstep)).2 heq

/-! ## The walk -/

/-- The wiring before the first step. -/
def startWiring (recipe : Recipe) : Wiring String :=
  ⟨[], (triggerNodes recipe).map fun trigger => (trigger.name, 0)⟩

/-- Before the first step the triggers wait, and nothing is connected. -/
theorem initialState_tracks (recipe : Recipe) (hknown : ∀ trigger ∈ triggerNodes recipe, known trigger.name) :
    Tracks recipe known [] (initialState recipe) (startWiring recipe) where
  heads := by simp [initialState]
  named := fun step hstep => by cases hstep
  pending := rfl
  edges := fun source output => rfl
  joins := fun entry hentry => by cases hentry
  pending_known := by
    intro port hport
    obtain ⟨trigger, htrigger, rfl⟩ := List.mem_map.mp hport
    exact hknown trigger htrigger

/-- In a workflow with distinct names a node is found by its name. -/
theorem Workflow.taken_of_mem {workflow : Workflow} (hnodup : (workflow.nodes.map Node.name).Nodup)
    {node : Node} (hnode : node ∈ workflow.nodes) (outcome : String → Bool) :
    workflow.taken outcome node.name =
      if node.type = "n8n-nodes-base.if" then (if outcome node.name then 0 else 1) else 0 := by
  have hfind : workflow.nodes.find? (fun other => other.name = node.name) = some node := by
    have hsome : (workflow.nodes.find? fun other => other.name = node.name).isSome :=
      List.find?_isSome.mpr ⟨node, hnode, by simp⟩
    obtain ⟨found, hfound⟩ := Option.isSome_iff_exists.mp hsome
    have hname : found.name = node.name := by simpa using List.find?_some hfound
    rw [hfound, List.inj_on_of_nodup_map hnodup (List.mem_of_find?_eq_some hfound) hnode hname]
  rw [Workflow.taken, hfind]

/-- Running the items of the steps visits the nodes of the interpreted steps. -/
theorem run_items (outcome : String → Bool) (taken : String → ℕ) (steps : List Step)
    (htaken : ∀ condition, Step.condition condition ∈ steps →
      taken (nodeName (.condition condition)) = if outcome (nodeName (.condition condition)) then 0 else 1) :
    run taken (steps.map Step.item) = (interpret outcome steps).map nodeName := by
  induction steps with
  | nil => rfl
  | cons step rest ih =>
    have hrest := ih fun condition hmem => htaken condition (List.mem_cons_of_mem _ hmem)
    cases step with
    | action step =>
      simp only [List.map_cons, Step.item, run, interpret, hrest]
    | condition step =>
      have hstep := htaken step List.mem_cons_self
      simp only [List.map_cons, Step.item, run, interpret, hrest, hstep, List.map_append]
      cases houtcome : outcome (nodeName (.condition step)) with
      | true => simp [Function.comp_def]
      | false => simp [Function.comp_def]

/-- The types of the emitted nodes are allowlisted. -/
theorem Tracks.types_allowed (h : Tracks recipe known done state w) :
    (state.nodes.map Node.type).filter (fun type => type ∉ allowedNodeTypes) = [] := by
  have htypes : state.nodes.map Node.type = (state.nodes.map Node.head).map NodeHead.type := by
    simp [Node.head, Function.comp_def]
  rw [htypes, h.heads, List.filter_eq_nil_iff]
  intro type htype
  rw [List.map_append, List.mem_append] at htype
  rcases htype with htype | htype
  · unfold triggerNodes at htype
    split at htype
    · rcases (by simpa [Node.head, scheduleNode, manualNode] using htype) with rfl | rfl
      · decide
      · decide
    · obtain rfl : type = "n8n-nodes-base.webhook" := by simpa [Node.head, manualNode] using htype
      decide
  · obtain ⟨head, hhead, rfl⟩ := List.mem_map.mp htype
    obtain ⟨step, -, rfl⟩ := List.mem_map.mp hhead
    cases step with
    | action step => simp [Step.head, allowedNodeTypes]
    | condition step => simp [Step.head, allowedNodeTypes]

/-- A compiled recipe: the workflow, and the loop state it was rendered from. -/
theorem compileRecipe_tracks (valid : ValidRecipe) :
    ∃ workflow state, compileRecipe valid.recipe = .ok workflow ∧ workflow.nodes = state.nodes ∧
      workflow.connections = state.connections ∧
      Tracks valid.recipe
        (· ∈ (triggerNodes valid.recipe).map Node.name ++ valid.recipe.allSteps.map nodeName)
        valid.recipe.allSteps state
        (wire (startWiring valid.recipe) (valid.recipe.steps.map Step.item)) := by
  have hinitial : Tracks valid.recipe
      (· ∈ (triggerNodes valid.recipe).map Node.name ++ valid.recipe.allSteps.map nodeName) []
      (initialState valid.recipe) (startWiring valid.recipe) :=
    initialState_tracks valid.recipe fun trigger htrigger =>
      List.mem_append_left _ (List.mem_map.mpr ⟨trigger, htrigger, rfl⟩)
  obtain ⟨state, hstate, htracks⟩ := compileSteps_tracks valid.recipe.steps hinitial valid.ordered
    fun part hpart => List.mem_append_right _ (List.mem_map.mpr ⟨part, hpart, rfl⟩)
  refine ⟨⟨workflowName valid.recipe.name, state.nodes, state.connections,
    .obj [("executionOrder", .str "v1")]⟩, state, ?_, rfl, rfl, by simpa [Recipe.allSteps] using htracks⟩
  exact bind_eq_ok.mpr ⟨state, hstate, by simp only [htracks.types_allowed]; rfl⟩

variable {valid : ValidRecipe} {workflow : Workflow}

/-- In the workflow of a recipe an `if` node is left by its outcome, every other node by output 0. -/
theorem taken_of_tracks
    (h : Tracks valid.recipe known valid.recipe.allSteps state w) (hnodes : workflow.nodes = state.nodes)
    (hnodup : (workflow.nodes.map Node.name).Nodup) (outcome : String → Bool) :
    (∀ trigger ∈ triggerNodes valid.recipe, workflow.taken outcome trigger.name = 0) ∧
      ∀ step ∈ valid.recipe.allSteps, workflow.taken outcome (nodeName step) =
        match step with
        | .action _ => 0
        | .condition _ => if outcome (nodeName step) then 0 else 1 := by
  have hfound : ∀ head ∈ (triggerNodes valid.recipe).map Node.head ++ valid.recipe.allSteps.map Step.head,
      workflow.taken outcome head.name =
        if head.type = "n8n-nodes-base.if" then (if outcome head.name then 0 else 1) else 0 := by
    intro head hhead
    rw [← h.heads, ← hnodes] at hhead
    obtain ⟨node, hnode, rfl⟩ := List.mem_map.mp hhead
    exact Workflow.taken_of_mem hnodup hnode outcome
  refine ⟨fun trigger htrigger => ?_, fun step hstep => ?_⟩
  · have htype : trigger.type ≠ "n8n-nodes-base.if" := by
      unfold triggerNodes at htrigger
      split at htrigger
      · rcases List.mem_cons.mp htrigger with rfl | htrigger
        · simp [scheduleNode]
        · rw [List.mem_singleton.mp htrigger]
          simp [manualNode]
      · rw [List.mem_singleton.mp htrigger]
        simp [manualNode]
    have htaken := hfound trigger.head (List.mem_append_left _ (List.mem_map.mpr ⟨trigger, htrigger, rfl⟩))
    rwa [if_neg (show trigger.head.type ≠ _ from htype)] at htaken
  · have htaken := hfound step.head (List.mem_append_right _ (List.mem_map.mpr ⟨step, hstep, rfl⟩))
    cases step with
    | action step => simpa [Step.head] using htaken
    | condition step =>
      rw [if_pos (by rfl)] at htaken
      exact htaken

/-- A trigger node of the workflow is one of the recipe's triggers. -/
theorem mem_triggerNodes_of_tracks
    (h : Tracks valid.recipe known valid.recipe.allSteps state w) {trigger : Node}
    (hmem : trigger ∈ state.nodes) (htrigger : trigger.isTrigger) :
    ∃ other ∈ triggerNodes valid.recipe, other.name = trigger.name := by
  have hhead : trigger.head ∈ state.nodes.map Node.head := List.mem_map.mpr ⟨trigger, hmem, rfl⟩
  rw [h.heads] at hhead
  rcases List.mem_append.mp hhead with hhead | hhead
  · obtain ⟨other, hother, heq⟩ := List.mem_map.mp hhead
    exact ⟨other, hother, congrArg NodeHead.name heq⟩
  · obtain ⟨step, -, heq⟩ := List.mem_map.mp hhead
    have htype : step.head.type = trigger.type := congrArg NodeHead.type heq
    rcases htrigger with htrigger | htrigger
    · rw [htrigger] at htype
      cases step with
      | action step => simp [Step.head] at htype
      | condition step => simp [Step.head] at htype
    · rw [htrigger] at htype
      cases step with
      | action step => simp [Step.head] at htype
      | condition step => simp [Step.head] at htype

/-- The nodes of the items are those of all steps. -/
theorem flatMap_item_nodes (steps : List Step) :
    (steps.map Step.item).flatMap Item.nodes = (steps.flatMap Step.withBranches).map nodeName := by
  simp [List.flatMap_map, List.map_flatMap, Step.item_nodes]

/-- At the start every port is distinct and every step node is still to come. -/
theorem startWiring_fresh (valid : ValidRecipe) :
    Fresh (startWiring valid.recipe) [] ((valid.recipe.steps.map Step.item).flatMap Item.nodes) := by
  have hnames := List.nodup_append.mp (names_nodup valid)
  rw [flatMap_item_nodes]
  refine ⟨?_, hnames.2.1, fun port hport hmem => ?_⟩
  · refine List.Nodup.of_map Prod.fst ?_
    simpa [startWiring, Function.comp_def] using hnames.1
  · have hname : port.1 ∈ (triggerNodes valid.recipe).map Node.name := by
      simp only [startWiring, List.map_nil, List.nil_append, List.append_nil, List.mem_map] at hport
      obtain ⟨trigger, htrigger, rfl⟩ := hport
      exact List.mem_map.mpr ⟨trigger, htrigger, rfl⟩
    exact hnames.2.2 port.1 hname port.1 hmem rfl

/-- The nodes of the steps answer with the outputs that their items have. -/
theorem items_answer {taken : String → ℕ} {outcome : String → Bool} {steps : List Step}
    (htaken : ∀ step ∈ steps.flatMap Step.withBranches, taken (nodeName step) =
      match step with
      | .action _ => 0
      | .condition _ => if outcome (nodeName step) then 0 else 1) :
    ∀ item ∈ steps.map Step.item, Answers taken item := by
  intro item hitem
  obtain ⟨step, hstep, rfl⟩ := List.mem_map.mp hitem
  have hpart : ∀ part ∈ step.withBranches, part ∈ steps.flatMap Step.withBranches :=
    fun part hpart => List.mem_flatMap.mpr ⟨step, hstep, hpart⟩
  have hself := htaken step (hpart step List.mem_cons_self)
  cases step with
  | action step => exact hself
  | condition step =>
    have hcondition : taken (nodeName (.condition step)) =
        if outcome (nodeName (.condition step)) then 0 else 1 := hself
    refine ⟨?_, fun name hname => ?_⟩
    · rw [hcondition]
      split
      · exact Nat.zero_le 1
      · exact Nat.le_refl 1
    · rw [← List.map_append] at hname
      obtain ⟨branch, hbranch, rfl⟩ := List.mem_map.mp hname
      exact htaken (.action branch) (hpart _ (List.mem_cons_of_mem _ (List.mem_map.mpr ⟨branch, hbranch, rfl⟩)))

/-- The nodes of a compiled recipe are its triggers and one node for each step. -/
theorem names_of_tracks (h : Tracks valid.recipe known valid.recipe.allSteps state w)
    (hnodes : workflow.nodes = state.nodes) :
    workflow.nodes.map Node.name =
      (triggerNodes valid.recipe).map Node.name ++ valid.recipe.allSteps.map nodeName := by
  have hheads := congrArg (List.map NodeHead.name) h.heads
  rw [← hnodes] at hheads
  have hstep : ∀ step : Step, step.head.name = nodeName step := fun step => by cases step <;> rfl
  simpa [Node.head, Function.comp_def, hstep] using hheads

/-- A compiled recipe has a trigger. -/
theorem exists_trigger_of_tracks (h : Tracks valid.recipe known valid.recipe.allSteps state w)
    (hnodes : workflow.nodes = state.nodes) : ∃ trigger ∈ workflow.nodes, trigger.isTrigger := by
  have hhead : (manualNode valid.recipe.name).head ∈ workflow.nodes.map Node.head := by
    rw [hnodes, h.heads]
    refine List.mem_append_left _ (List.mem_map.mpr ⟨_, ?_, rfl⟩)
    cases htrigger : valid.recipe.trigger with
    | schedule cron => simp [triggerNodes, htrigger]
    | manual => simp [triggerNodes, htrigger]
  obtain ⟨node, hnode, heq⟩ := List.mem_map.mp hhead
  exact ⟨node, hnode, .inr (congrArg NodeHead.type heq)⟩

/-- From a trigger the workflow of a recipe visits the nodes of the interpreted steps. -/
theorem walk_iff_of_tracks
    (h : Tracks valid.recipe known valid.recipe.allSteps state
      (wire (startWiring valid.recipe) (valid.recipe.steps.map Step.item)))
    (hnodes : workflow.nodes = state.nodes) (hconnections : workflow.connections = state.connections)
    (outcome : String → Bool) {trigger : Node} (hmem : trigger ∈ workflow.nodes) (htrigger : trigger.isTrigger)
    (path : List String) :
    Walk (workflow.next outcome) trigger.name path ↔
      path = (interpret outcome valid.recipe.steps).map nodeName := by
  have hnodup : (workflow.nodes.map Node.name).Nodup := names_of_tracks h hnodes ▸ names_nodup valid
  have hrun : run (workflow.taken outcome) (valid.recipe.steps.map Step.item) =
      (interpret outcome valid.recipe.steps).map nodeName :=
    run_items outcome _ valid.recipe.steps fun condition hcondition =>
      (taken_of_tracks h hnodes hnodup outcome).2 (.condition condition)
        (List.mem_flatMap.mpr ⟨.condition condition, hcondition, List.mem_cons_self⟩)
  obtain ⟨other, hother, hname⟩ := mem_triggerNodes_of_tracks h (hnodes ▸ hmem) htrigger
  obtain ⟨htakenTrigger, htakenStep⟩ := taken_of_tracks h hnodes hnodup outcome
  have hnext : workflow.next outcome =
      follow (wire (startWiring valid.recipe) (valid.recipe.steps.map Step.item)).edges
        (workflow.taken outcome) := by
    funext name
    rw [Workflow.next, hconnections, h.edges]
    rfl
  have hwalk : Walk (workflow.next outcome) trigger.name
      ((interpret outcome valid.recipe.steps).map nodeName) := by
    rw [hnext, ← hrun, ← hname]
    exact wire_walk (startWiring_fresh valid) (items_answer htakenStep) (other.name, 0)
      (List.mem_map.mpr ⟨other, hother, rfl⟩) (htakenTrigger other hother)
  exact ⟨fun hpath => hpath.unique hwalk, fun hpath => hpath ▸ hwalk⟩

/-- Compilation succeeds on every accepted recipe and preserves its meaning: node names and node
identifiers are distinct, connections join emitted nodes, and under every assignment of outcomes
the only walk from a trigger visits the nodes of the interpreted steps, each once, and stops. -/
theorem compileRecipe_preserves_meaning (valid : ValidRecipe) :
    ∃ workflow, compileRecipe valid.recipe = .ok workflow ∧
      (workflow.nodes.map Node.name).Nodup ∧ (workflow.nodes.map Node.id).Nodup ∧
      Joins (· ∈ workflow.nodes.map Node.name) workflow.connections ∧
      (∃ trigger ∈ workflow.nodes, trigger.isTrigger) ∧
      ∀ outcome, ((interpret outcome valid.recipe.steps).map nodeName).Nodup ∧
        ∀ trigger ∈ workflow.nodes, trigger.isTrigger → ∀ path,
          Walk (workflow.next outcome) trigger.name path ↔
            path = (interpret outcome valid.recipe.steps).map nodeName := by
  obtain ⟨workflow, state, hcompile, hnodes, hconnections, htracks⟩ := compileRecipe_tracks valid
  have hnames := names_of_tracks htracks hnodes
  have hids : workflow.nodes.map Node.id =
      (triggerNodes valid.recipe).map Node.id ++ valid.recipe.allSteps.map fun step => step.head.id := by
    have h := congrArg (List.map NodeHead.id) htracks.heads
    rw [← hnodes] at h
    simpa [Node.head, Function.comp_def] using h
  have hnodup : (workflow.nodes.map Node.name).Nodup := hnames ▸ names_nodup valid
  refine ⟨workflow, hcompile, hnodup, hids ▸ ids_nodup valid, ?_, exists_trigger_of_tracks htracks hnodes,
    fun outcome => ⟨?_, ?_⟩⟩
  · rw [hnames, hconnections]
    exact htracks.joins
  · have hrun := run_items outcome (workflow.taken outcome) valid.recipe.steps fun condition hcondition =>
      (taken_of_tracks htracks hnodes hnodup outcome).2 (.condition condition)
        (List.mem_flatMap.mpr ⟨.condition condition, hcondition, List.mem_cons_self⟩)
    rw [← hrun]
    exact (run_sublist _ _).nodup (startWiring_fresh valid).nodes_nodup
  · intro trigger hmem htrigger path
    exact walk_iff_of_tracks htracks hnodes hconnections outcome hmem htrigger path

end FleetWorkflow.Recipes
