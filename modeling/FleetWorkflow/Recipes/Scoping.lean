import FleetWorkflow.Recipes.Preservation

/-!
# References along a path

The schema records the steps of a branch as seen before it checks the next step, so a later step
may refer to a step that runs on one branch only. A path of the workflow meets every referenced
step before the reference when, and only when, the references of the recipe name top-level steps.
-/

namespace FleetWorkflow.Recipes

open FleetWorkflow.Flow

/-- The texts of a step's own node; the steps of a branch have nodes of their own. -/
def Step.ownTexts : Step → List String
  | .action step => step.params.map Prod.snd
  | .condition step => [step.left, step.right]

/-- The steps referred to in the node of a step. -/
def Step.ownReferences (step : Step) : List String :=
  step.ownTexts.flatMap fun text => (finditer text).map StepReference.step

/-- Where a path reaches the node of a step, it has passed the node of every step referred to there. -/
def RefersBack (recipe : Recipe) (path : List String) : Prop :=
  ∀ step ∈ recipe.allSteps, ∀ before after, path = before ++ nodeName step :: after →
    ∀ referenced ∈ step.ownReferences,
      ∃ target ∈ recipe.allSteps, target.id = referenced ∧ nodeName target ∈ before

/-- The steps that run when the loop is at a step: itself, and the branch of its outcome. -/
def Step.visited (outcome : String → Bool) : Step → List Step
  | .action step => [.action step]
  | .condition step =>
    .condition step ::
      (if outcome (nodeName (.condition step)) then step.thenSteps else step.elseSteps).map Step.action

/-! ## Visited steps -/

/-- An interpretation visits the steps one after the other. -/
theorem interpret_eq_flatMap (outcome : String → Bool) (steps : List Step) :
    interpret outcome steps = steps.flatMap (Step.visited outcome) := by
  induction steps with
  | nil => rfl
  | cons step rest ih =>
    cases step with
    | action step => simp [interpret, Step.visited, ih]
    | condition step => simp [interpret, Step.visited, ih]

/-- A step is visited first when the loop is at it. -/
theorem Step.visited_eq_cons (outcome : String → Bool) (step : Step) :
    ∃ branch, step.visited outcome = step :: branch ∧ branch ⊆ step.branchSteps.map Step.action := by
  cases step with
  | action step => exact ⟨[], rfl, List.nil_subset _⟩
  | condition step =>
    refine ⟨_, rfl, List.map_subset _ ?_⟩
    split
    · exact List.subset_append_left _ _
    · exact List.subset_append_right _ _

/-- Only the step and its branch steps are visited when the loop is at it. -/
theorem Step.visited_subset (outcome : String → Bool) (step : Step) :
    step.visited outcome ⊆ step.withBranches := by
  obtain ⟨branch, hvisited, hbranch⟩ := step.visited_eq_cons outcome
  rw [hvisited]
  exact List.cons_subset_cons _ hbranch

/-- Every visited step is a step of the recipe. -/
theorem interpret_subset (outcome : String → Bool) (recipe : Recipe) :
    interpret outcome recipe.steps ⊆ recipe.allSteps := by
  intro step hstep
  rw [interpret_eq_flatMap] at hstep
  obtain ⟨top, htop, hvisited⟩ := List.mem_flatMap.mp hstep
  exact List.mem_flatMap.mpr ⟨top, htop, top.visited_subset outcome hvisited⟩

/-- The references of a visited step are among those that the schema checks for its top-level step. -/
theorem Step.ownReferences_subset {step part : Step} (hpart : part ∈ step.withBranches) :
    part.ownReferences ⊆ step.references := by
  have htexts : part.ownTexts ⊆ step.texts := by
    rcases List.mem_cons.mp hpart with rfl | hbranch
    · cases part with
      | action part => exact List.Subset.refl _
      | condition part => exact List.subset_append_left _ _
    · obtain ⟨branch, hmem, rfl⟩ := List.mem_map.mp hbranch
      cases step with
      | action step => exact absurd hmem List.not_mem_nil
      | condition step =>
        intro text htext
        exact List.mem_append_right [step.left, step.right] (List.mem_flatMap.mpr ⟨branch, hmem, htext⟩)
  intro referenced hreferenced
  obtain ⟨text, htext, href⟩ := List.mem_flatMap.mp hreferenced
  exact List.mem_flatMap.mpr ⟨text, htexts htext, href⟩

/-- Identifiers determine the steps of an accepted recipe. -/
theorem ValidRecipe.eq_of_id (valid : ValidRecipe) {a b : Step} (ha : a ∈ valid.recipe.allSteps)
    (hb : b ∈ valid.recipe.allSteps) (h : a.id = b.id) : a = b :=
  List.inj_on_of_nodup_map valid.ids_nodup ha hb h

/-- Node names determine the steps of an accepted recipe. -/
theorem ValidRecipe.eq_of_nodeName (valid : ValidRecipe) {a b : Step} (ha : a ∈ valid.recipe.allSteps)
    (hb : b ∈ valid.recipe.allSteps) (h : nodeName a = nodeName b) : a = b :=
  List.inj_on_of_nodup_map (List.nodup_append.mp (names_nodup valid)).2.1 ha hb h

/-! ## One recipe under one outcome -/

/-- A place in a concatenation is a place in one of its parts. -/
theorem exists_of_flatMap_eq {α β : Type*} {f : α → List β} {parts : List α} {before after : List β} {x : β}
    (h : parts.flatMap f = before ++ x :: after) :
    ∃ done part rest, parts = done ++ part :: rest ∧ x ∈ f part ∧ done.flatMap f ⊆ before := by
  induction parts generalizing before with
  | nil => simp at h
  | cons first parts ih =>
    rw [List.flatMap_cons] at h
    by_cases hlength : (f first).length ≤ before.length
    · obtain ⟨gap, rfl⟩ := List.prefix_of_prefix_length_le (h ▸ List.prefix_append (f first) _)
        (List.prefix_append before _) hlength
      rw [List.append_assoc, List.append_cancel_left_eq] at h
      obtain ⟨done, part, rest, rfl, hpart, hdone⟩ := ih h
      refine ⟨first :: done, part, rest, rfl, hpart, ?_⟩
      rw [List.flatMap_cons]
      exact List.append_subset.mpr
        ⟨List.subset_append_left _ _, List.Subset.trans hdone (List.subset_append_right _ _)⟩
    · refine ⟨[], first, parts, rfl, ?_, List.nil_subset _⟩
      have hget := congrArg (fun xs => xs[before.length]?) h
      rw [List.getElem?_append_left (by omega)] at hget
      exact List.mem_of_getElem? (hget.trans (by simp))

/-- A step is ordered after the steps before it. -/
theorem Ordered.split {done rest : List Step} {step : Step} {seen : List String}
    (h : Ordered seen (done ++ step :: rest)) : StepOrdered (seen ++ done.flatMap Step.ids) step := by
  induction done generalizing seen with
  | nil => simpa using h.1
  | cons first done ih => simpa using ih h.2

/-- Steps with a shared identifier are on the same side of a place in the recipe. -/
theorem ValidRecipe.not_mem_later (valid : ValidRecipe) {done rest : List Step}
    (hsplit : valid.recipe.steps = done ++ rest) {id : String} (hdone : id ∈ done.flatMap Step.ids) :
    id ∉ rest.flatMap Step.ids := by
  have hnodup := valid.ordered.ids_nodup.1
  rw [hsplit, List.flatMap_append] at hnodup
  exact fun hrest => (List.nodup_append.mp hnodup).2.2 id hdone id hrest rfl

/-- A reference to a top-level step finds it among the steps visited before. -/
theorem ValidRecipe.refersBack (valid : ValidRecipe) (outcome : String → Bool)
    (htop : ∀ step ∈ valid.recipe.allSteps, ∀ referenced ∈ step.ownReferences,
      referenced ∈ valid.recipe.steps.map Step.id) :
    RefersBack valid.recipe ((interpret outcome valid.recipe.steps).map nodeName) := by
  intro step hstep before after hpath referenced hreferenced
  obtain ⟨visited, later, hvisited, rfl, hlater⟩ := List.map_eq_append_iff.mp hpath
  obtain ⟨other, later, rfl, hname, rfl⟩ := List.map_eq_cons_iff.mp hlater
  have hother : other ∈ valid.recipe.allSteps := interpret_subset outcome _ (by rw [hvisited]; simp)
  obtain rfl := valid.eq_of_nodeName hother hstep hname
  rw [interpret_eq_flatMap] at hvisited
  obtain ⟨done, top, rest, hsteps, hpart, hdone⟩ := exists_of_flatMap_eq hvisited
  have hseen : referenced ∈ [] ++ done.flatMap Step.ids :=
    (hsteps ▸ valid.ordered).split.references_seen referenced
      (Step.ownReferences_subset (top.visited_subset outcome hpart) hreferenced)
  obtain ⟨target, htarget, rfl⟩ := List.mem_map.mp (htop other hother referenced hreferenced)
  have hbefore : target ∈ done := by
    rw [hsteps] at htarget
    refine (List.mem_append.mp htarget).resolve_right fun hlater => ?_
    exact valid.not_mem_later hsteps hseen (List.mem_flatMap.mpr ⟨target, hlater, List.mem_cons_self⟩)
  obtain ⟨branch, hbranch, -⟩ := target.visited_eq_cons outcome
  refine ⟨target, List.mem_flatMap.mpr ⟨target, htarget, List.mem_cons_self⟩, rfl, ?_⟩
  exact List.mem_map.mpr ⟨target, hdone (List.mem_flatMap.mpr ⟨target, hbefore, by rw [hbranch]; simp⟩), rfl⟩

/-- The identifiers of the steps in the then branch. -/
def Step.thenIds : Step → List String
  | .action _ => []
  | .condition step => step.thenSteps.map ActionStep.id

/-- The outcomes that lead to a step of one top-level step, and elsewhere away from a referenced step. -/
def avoiding (recipe : Recipe) (top step : Step) (referenced : String) (name : String) : Bool :=
  if name = nodeName top then step.id ∈ top.thenIds
  else recipe.steps.all fun other => nodeName other ≠ name ∨ referenced ∉ other.thenIds

/-- No step of the else branch shares its identifier with one of the then branch. -/
theorem StepOrdered.not_mem_thenIds {seen : List String} {condition : ConditionStep}
    (h : StepOrdered seen (.condition condition)) {branch : ActionStep} (hbranch : branch ∈ condition.elseSteps) :
    branch.id ∉ (Step.condition condition).thenIds := by
  have hnodup := h.ids_nodup
  simp only [Step.ids, Step.withBranches, Step.branchSteps, List.map_cons, List.map_append, List.map_map,
    List.nodup_cons, List.nodup_append] at hnodup
  intro hthen
  obtain ⟨other, hother, hid⟩ := List.mem_map.mp hthen
  exact hnodup.2.2.2 other.id (List.mem_map.mpr ⟨other, hother, rfl⟩) branch.id
    (List.mem_map.mpr ⟨branch, hbranch, rfl⟩) hid

/-- A step is visited under the outcomes that lead to it. -/
theorem mem_visited_avoiding {seen : List String} {recipe : Recipe} {top step : Step} {referenced : String}
    (h : StepOrdered seen top) (hstep : step ∈ top.withBranches) :
    step ∈ top.visited (avoiding recipe top step referenced) := by
  rcases List.mem_cons.mp hstep with rfl | hbranch
  · obtain ⟨branch, hvisited, -⟩ := step.visited_eq_cons (avoiding recipe step step referenced)
    rw [hvisited]
    exact List.mem_cons_self
  · obtain ⟨branch, hmem, rfl⟩ := List.mem_map.mp hbranch
    cases top with
    | action top => exact absurd hmem List.not_mem_nil
    | condition top =>
      refine List.mem_cons_of_mem _ (List.mem_map.mpr ⟨branch, ?_, rfl⟩)
      rw [avoiding, if_pos rfl]
      rcases List.mem_append.mp hmem with hthen | helse
      · have hmem : (Step.action branch).id ∈ (Step.condition top).thenIds :=
          List.mem_map.mpr ⟨branch, hthen, rfl⟩
        rw [if_pos (decide_eq_true hmem)]
        exact hthen
      · have hmem : (Step.action branch).id ∉ (Step.condition top).thenIds := h.not_mem_thenIds helse
        rw [if_neg (by simpa using hmem)]
        exact helse

/-- Under these outcomes a referenced step of another branch is not visited. -/
theorem ValidRecipe.eq_of_mem_avoiding (valid : ValidRecipe) {top step other part : Step}
    (hother : other ∈ valid.recipe.steps) (hname : nodeName other ≠ nodeName top)
    (hpart : part ∈ other.visited (avoiding valid.recipe top step part.id)) : part = other := by
  have hordered : ∃ seen, StepOrdered seen other := by
    obtain ⟨done, rest, hsteps⟩ := List.append_of_mem hother
    exact ⟨_, (hsteps ▸ valid.ordered).split⟩
  obtain ⟨seen, hordered⟩ := hordered
  cases other with
  | action other => exact List.mem_singleton.mp hpart
  | condition other =>
    refine (List.mem_cons.mp hpart).resolve_right fun hbranch => ?_
    obtain ⟨branch, hbranch, rfl⟩ := List.mem_map.mp hbranch
    rw [avoiding, if_neg hname] at hbranch
    split at hbranch
    · rename_i hall
      have havoid := List.all_eq_true.mp hall _ hother
      have hmem : (Step.action branch).id ∈ (Step.condition other).thenIds :=
        List.mem_map.mpr ⟨branch, hbranch, rfl⟩
      simp [hmem] at havoid
    · rename_i hall
      rw [Bool.not_eq_true, List.all_eq_false] at hall
      obtain ⟨found, hfound, hmem⟩ := hall
      simp only [ne_eq, decide_eq_true_eq, not_or, not_not] at hmem
      have heq : found = .condition other :=
        valid.eq_of_nodeName (List.mem_flatMap.mpr ⟨found, hfound, List.mem_cons_self⟩)
          (List.mem_flatMap.mpr ⟨_, hother, List.mem_cons_self⟩) hmem.1
      exact hordered.not_mem_thenIds hbranch (heq ▸ hmem.2)

/-- A reference to a branch step is missed by the path that takes the other branch. -/
theorem ValidRecipe.not_refersBack (valid : ValidRecipe) {step : Step} (hstep : step ∈ valid.recipe.allSteps)
    {referenced : String} (hreferenced : referenced ∈ step.ownReferences)
    (htop : referenced ∉ valid.recipe.steps.map Step.id) :
    ∃ outcome, ¬ RefersBack valid.recipe ((interpret outcome valid.recipe.steps).map nodeName) := by
  obtain ⟨top, htopMem, hpart⟩ := List.mem_flatMap.mp hstep
  obtain ⟨done, rest, hsteps⟩ := List.append_of_mem htopMem
  have hordered := (hsteps ▸ valid.ordered).split
  refine ⟨avoiding valid.recipe top step referenced, fun hback => ?_⟩
  have hvisited : step ∈ interpret (avoiding valid.recipe top step referenced) valid.recipe.steps := by
    rw [interpret_eq_flatMap]
    exact List.mem_flatMap.mpr ⟨top, htopMem, mem_visited_avoiding hordered hpart⟩
  obtain ⟨before, after, hsplit⟩ := List.append_of_mem (List.mem_map_of_mem (f := nodeName) hvisited)
  obtain ⟨target, htarget, rfl, hbefore⟩ := hback step hstep before after hsplit referenced hreferenced
  obtain ⟨found, hfound, hname⟩ := List.mem_map.mp (hsplit ▸ List.mem_append_left _ hbefore)
  obtain rfl := valid.eq_of_nodeName (interpret_subset _ _ hfound) htarget hname
  rw [interpret_eq_flatMap] at hfound
  obtain ⟨other, hother, hfound⟩ := List.mem_flatMap.mp hfound
  have hne : nodeName other ≠ nodeName top := by
    intro heq
    obtain rfl := valid.eq_of_nodeName (List.mem_flatMap.mpr ⟨other, hother, List.mem_cons_self⟩)
      (List.mem_flatMap.mpr ⟨top, htopMem, List.mem_cons_self⟩) heq
    exact hordered.ids_new found.id (List.mem_map.mpr ⟨found, other.visited_subset _ hfound, rfl⟩)
      (hordered.references_seen _ (Step.ownReferences_subset hpart hreferenced))
  exact htop (List.mem_map.mpr ⟨other, hother, by rw [valid.eq_of_mem_avoiding hother hne hfound]⟩)

/-! ## Compiled recipes -/

/-- On every path of the compiled workflow a reference follows the step that it names, exactly
when the references of the recipe name top-level steps. -/
theorem compileRecipe_refersBack_iff (valid : ValidRecipe) :
    ∃ workflow, compileRecipe valid.recipe = .ok workflow ∧
      ((∀ outcome, ∀ trigger ∈ workflow.nodes, trigger.isTrigger → ∀ path,
          Walk (workflow.next outcome) trigger.name path → RefersBack valid.recipe path) ↔
        ∀ step ∈ valid.recipe.allSteps, ∀ referenced ∈ step.ownReferences,
          referenced ∈ valid.recipe.steps.map Step.id) := by
  obtain ⟨workflow, state, hcompile, hnodes, hconnections, htracks⟩ := compileRecipe_tracks valid
  refine ⟨workflow, hcompile, ?_, ?_⟩
  · intro hback step hstep referenced hreferenced
    by_contra htop
    obtain ⟨outcome, hmissed⟩ := valid.not_refersBack hstep hreferenced htop
    obtain ⟨trigger, hmem, htrigger⟩ := exists_trigger_of_tracks htracks hnodes
    exact hmissed (hback outcome trigger hmem htrigger _
      ((walk_iff_of_tracks htracks hnodes hconnections outcome hmem htrigger _).mpr rfl))
  · intro htop outcome trigger hmem htrigger path hpath
    rw [(walk_iff_of_tracks htracks hnodes hconnections outcome hmem htrigger path).mp hpath]
    exact valid.refersBack outcome htop

/-- A recipe as submitted: its last step refers to the only step of a then branch. -/
def rawBranchReference : RawRecipe where
  name := "branch-reference"
  description := ""
  trigger := .manual
  steps :=
    [.condition ⟨"big", "1", .gt, "2",
        [⟨"warn", .httpNotify, [("title", .str "Big"), ("message", .str "Look")]⟩], []⟩,
      .action ⟨"tell", .httpNotify,
        [("title", .str "Told"), ("message", .str "\x7b\x7bsteps.warn.ok\x7d\x7d")]⟩]

/-- What the schema stores for it. -/
def branchReference : Recipe where
  name := "branch-reference"
  description := ""
  trigger := .manual
  steps :=
    [.condition ⟨"big", "1", .gt, "2", [⟨"warn", .httpNotify, [("title", "Big"), ("message", "Look")]⟩], []⟩,
      .action ⟨"tell", .httpNotify, [("title", "Told"), ("message", "\x7b\x7bsteps.warn.ok\x7d\x7d")]⟩]

/-- The schema accepts it, and when the condition fails its workflow reaches the reference without
having run the referenced step. -/
theorem branchReference_misses :
    ∃ valid : ValidRecipe, valid.recipe = branchReference ∧
      ∃ workflow, compileRecipe valid.recipe = .ok workflow ∧
        ∃ trigger ∈ workflow.nodes, trigger.isTrigger ∧
          Walk (workflow.next fun _ => false) trigger.name ["if (big)", "http.notify (tell)"] ∧
          ¬ RefersBack valid.recipe ["if (big)", "http.notify (tell)"] := by
  let valid : ValidRecipe := ⟨branchReference, rawBranchReference, by decide⟩
  obtain ⟨workflow, state, hcompile, hnodes, hconnections, htracks⟩ := compileRecipe_tracks valid
  obtain ⟨trigger, hmem, htrigger⟩ := exists_trigger_of_tracks htracks hnodes
  refine ⟨valid, rfl, workflow, hcompile, trigger, hmem, htrigger, ?_, fun hback => ?_⟩
  · exact (walk_iff_of_tracks htracks hnodes hconnections _ hmem htrigger _).mpr (by decide)
  · obtain ⟨target, htarget, hid, hbefore⟩ := hback (.action ⟨"tell", .httpNotify,
        [("title", "Told"), ("message", "\x7b\x7bsteps.warn.ok\x7d\x7d")]⟩) (by decide)
      ["if (big)"] [] (by decide) "warn" (by decide)
    have hnone : ∀ other ∈ branchReference.allSteps, other.id = "warn" → nodeName other ∉ ["if (big)"] := by
      decide
    exact hnone target htarget hid hbefore

end FleetWorkflow.Recipes
