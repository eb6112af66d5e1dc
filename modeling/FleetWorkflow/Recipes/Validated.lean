import FleetWorkflow.Flow.Fallible
import FleetWorkflow.Recipes.Schema

/-!
# What an accepted recipe satisfies

The facts that the schema establishes for the compiler: step identifiers are well formed and
pairwise distinct, texts are free of expressions, and a reference names a step that the validator
has already seen.
-/

namespace FleetWorkflow.Recipes

open FleetWorkflow.Flow FleetWorkflow.Python

/-- A step followed by its branch steps, in emission order. -/
def Step.withBranches (step : Step) : List Step := step :: step.branchSteps.map Step.action

/-- Every step of a recipe, branch steps included. -/
def Recipe.allSteps (recipe : Recipe) : List Step := recipe.steps.flatMap Step.withBranches

/-- The identifiers of a step and its branch steps. -/
def Step.ids (step : Step) : List String := step.withBranches.map Step.id

/-- The identifiers of a step are new and distinct, and it refers to earlier ones only. -/
structure StepOrdered (seen : List String) (step : Step) : Prop where
  ids_nodup : step.ids.Nodup
  ids_new : ∀ id ∈ step.ids, id ∉ seen
  references_seen : ∀ referenced ∈ step.references, referenced ∈ seen

/-- Each step is ordered after the steps before it. -/
def Ordered : List String → List Step → Prop
  | _, [] => True
  | seen, step :: rest => StepOrdered seen step ∧ Ordered (seen ++ step.ids) rest

/-- Recording branch steps succeeds on new and distinct identifiers only. -/
theorem seeBranchSteps_ok {branch : List ActionStep} {seen seen' : List String}
    (h : branch.foldlM seeBranchStep seen = .ok seen') :
    seen' = seen ++ branch.map ActionStep.id ∧ (branch.map ActionStep.id).Nodup ∧
      ∀ id ∈ branch.map ActionStep.id, id ∉ seen := by
  induction branch generalizing seen with
  | nil =>
    cases h
    simp
  | cons step rest ih =>
    rw [List.foldlM_cons, bind_eq_ok] at h
    obtain ⟨next, hstep, hrest⟩ := h
    by_cases hseen : step.id ∈ seen
    · rw [seeBranchStep, if_pos hseen] at hstep
      cases hstep
    · rw [seeBranchStep, if_neg hseen] at hstep
      cases hstep
      obtain ⟨rfl, hnodup, hnew⟩ := ih hrest
      refine ⟨by simp, ?_, ?_⟩
      · refine List.nodup_cons.mpr ⟨fun hmem => hnew step.id hmem ?_, hnodup⟩
        exact List.mem_append_right _ (List.mem_singleton.mpr rfl)
      · intro id hid
        rcases List.mem_cons.mp hid with rfl | hid
        · exact hseen
        · exact fun hmem => hnew id hid (List.mem_append_left _ hmem)

/-- One accepted round of the identifier check. -/
theorem seeStep_ok {seen seen' : List String} {step : Step} (h : seeStep seen step = .ok seen') :
    seen' = seen ++ step.ids ∧ StepOrdered seen step := by
  unfold seeStep at h
  by_cases hseen : step.id ∈ seen
  · rw [if_pos hseen] at h
    cases h
  · rw [if_neg hseen] at h
    cases hfind : step.references.find? fun referenced =>
        referenced ∉ seen ++ [step.id] ∨ referenced = step.id with
    | some referenced =>
      simp only [hfind] at h
      cases h
    | none =>
      simp only [hfind] at h
      obtain ⟨rfl, hnodup, hnew⟩ := seeBranchSteps_ok h
      have hids : step.ids = step.id :: step.branchSteps.map ActionStep.id := by
        simp [Step.ids, Step.withBranches, Function.comp_def, Step.id]
      refine ⟨by rw [hids, List.append_assoc]; rfl, ?_, ?_, ?_⟩
      · rw [hids]
        refine List.nodup_cons.mpr ⟨fun hmem => hnew _ hmem ?_, hnodup⟩
        exact List.mem_append_right _ (List.mem_singleton.mpr rfl)
      · rw [hids]
        intro id hid
        rcases List.mem_cons.mp hid with rfl | hid
        · exact hseen
        · exact fun hmem => hnew id hid (List.mem_append_left _ hmem)
      · intro referenced hmem
        have hcheck := List.find?_eq_none.mp hfind referenced hmem
        simp only [decide_eq_true_eq, not_or, not_not] at hcheck
        rcases List.mem_append.mp hcheck.1 with hold | hown
        · exact hold
        · exact absurd (List.mem_singleton.mp hown) hcheck.2

/-- An accepted identifier check orders the steps. -/
theorem seeSteps_ok {steps : List Step} {seen seen' : List String}
    (h : steps.foldlM seeStep seen = .ok seen') : Ordered seen steps := by
  induction steps generalizing seen with
  | nil => trivial
  | cons step rest ih =>
    rw [List.foldlM_cons, bind_eq_ok] at h
    obtain ⟨next, hstep, hrest⟩ := h
    obtain ⟨rfl, hordered⟩ := seeStep_ok hstep
    exact ⟨hordered, ih hrest⟩

/-- Ordered steps have distinct identifiers. -/
theorem Ordered.ids_nodup {seen : List String} {steps : List Step} (h : Ordered seen steps) :
    (steps.flatMap Step.ids).Nodup ∧ ∀ id ∈ steps.flatMap Step.ids, id ∉ seen := by
  induction steps generalizing seen with
  | nil => exact ⟨List.nodup_nil, fun id hid => by cases hid⟩
  | cons step rest ih =>
    obtain ⟨hrest, hnew⟩ := ih h.2
    rw [List.flatMap_cons]
    refine ⟨List.nodup_append.mpr ⟨h.1.ids_nodup, hrest, ?_⟩, ?_⟩
    · rintro id hid other hother rfl
      exact hnew id hother (List.mem_append_right _ hid)
    · intro id hid
      rcases List.mem_append.mp hid with hid | hid
      · exact h.1.ids_new id hid
      · exact fun hmem => hnew id hid (List.mem_append_left _ hmem)

/-! ## From the validators -/

/-- A text that the schema accepts: no leading `=`, and no brace outside its step references. -/
structure AcceptedText (value : String) : Prop where
  no_equals : value.toList.head? ≠ some '='
  no_brace : ∀ c ∈ residue value, c ≠ '\x7b' ∧ c ≠ '\x7d'

/-- `check_text` succeeds on accepted texts. -/
theorem checkText_eq_ok {field value : String} : checkText field value = .ok () ↔ AcceptedText value := by
  constructor
  · intro h
    unfold checkText at h
    split at h
    · cases h
    · rename_i hequals
      split at h
      · cases h
      · rename_i hbrace
        refine ⟨hequals, fun c hc => ?_⟩
        rw [← not_or]
        exact fun heq => hbrace (List.any_eq_true.mpr ⟨c, hc, by simpa using heq⟩)
  · intro h
    rw [checkText, if_neg h.no_equals, if_neg]
    intro hany
    obtain ⟨c, hc, heq⟩ := List.any_eq_true.mp hany
    simp [h.no_brace c hc] at heq

/-- What the schema checks in the node of a step. -/
def Step.WellFormed (step : Step) : Prop :=
  matchStepId step.id = true ∧
    match step with
    | .action step => step.params.map Prod.fst = (paramsByAction step.action).map ParamField.name ∧
        ∀ param ∈ step.params, AcceptedText param.2
    | .condition step => AcceptedText step.left ∧ AcceptedText step.right

/-- An accepted identifier matches its pattern. -/
theorem matchStepId_of_validId {value : String} (h : validId value = .ok ()) : matchStepId value = true := by
  by_contra hmatch
  rw [validId, if_neg hmatch] at h
  cases h

/-- A declared field is dumped under its own name. -/
theorem validateField_name {params : List (String × Json)} {field : ParamField} {param : String × String}
    (h : validateField params field = .ok param) : param.1 = field.name := by
  unfold validateField at h
  split at h
  · cases h
  · split at h
    · cases h
    · split at h
      · cases h
      · cases h
        rfl
  · cases h

/-- Accepted parameters are the declared fields with accepted texts. -/
theorem validateParams_ok {action : ActionName} {params : List (String × Json)} {dumped : List (String × String)}
    (h : validateParams action params = .ok dumped) :
    dumped.map Prod.fst = (paramsByAction action).map ParamField.name ∧
      ∀ param ∈ dumped, AcceptedText param.2 := by
  obtain ⟨found, hfound, h⟩ := bind_eq_ok.mp h
  obtain ⟨⟨⟩, -, h⟩ := bind_eq_ok.mp h
  obtain ⟨⟨⟩, htexts, h⟩ := bind_eq_ok.mp h
  cases h
  refine ⟨map_eq_of_forall₂ (forall₂_of_mapM hfound) fun field param => validateField_name, ?_⟩
  exact fun param hparam => checkText_eq_ok.mp (of_forM htexts hparam)

/-- An accepted action step is well formed. -/
theorem RawActionStep.validate_ok {raw : RawActionStep} {step : ActionStep} (h : raw.validate = .ok step) :
    (Step.action step).WellFormed := by
  obtain ⟨⟨⟩, hid, h⟩ := bind_eq_ok.mp h
  obtain ⟨params, hparams, h⟩ := bind_eq_ok.mp h
  cases h
  exact ⟨matchStepId_of_validId hid, validateParams_ok hparams⟩

/-- An accepted condition is well formed, and so are the steps of its branches. -/
theorem RawConditionStep.validate_ok {raw : RawConditionStep} {step : ConditionStep}
    (h : raw.validate = .ok step) :
    (Step.condition step).WellFormed ∧
      ∀ branch ∈ step.thenSteps ++ step.elseSteps, (Step.action branch).WellFormed := by
  obtain ⟨⟨⟩, hid, h⟩ := bind_eq_ok.mp h
  obtain ⟨⟨⟩, -, h⟩ := bind_eq_ok.mp h
  obtain ⟨⟨⟩, -, h⟩ := bind_eq_ok.mp h
  obtain ⟨thenSteps, hthen, h⟩ := bind_eq_ok.mp h
  obtain ⟨elseSteps, helse, h⟩ := bind_eq_ok.mp h
  obtain ⟨⟨⟩, hleft, h⟩ := bind_eq_ok.mp h
  obtain ⟨⟨⟩, hright, h⟩ := bind_eq_ok.mp h
  split at h
  · cases h
  · cases h
    refine ⟨⟨matchStepId_of_validId hid, checkText_eq_ok.mp hleft, checkText_eq_ok.mp hright⟩, ?_⟩
    intro branch hbranch
    rcases List.mem_append.mp hbranch with hmem | hmem
    · obtain ⟨raw', -, hok⟩ := of_mem_mapM hthen hmem
      exact RawActionStep.validate_ok hok
    · obtain ⟨raw', -, hok⟩ := of_mem_mapM helse hmem
      exact RawActionStep.validate_ok hok

/-- An accepted step is well formed throughout. -/
theorem RawStep.validate_ok {raw : RawStep} {step : Step} (h : raw.validate = .ok step) :
    ∀ part ∈ step.withBranches, part.WellFormed := by
  intro part hpart
  cases raw with
  | action raw =>
    obtain ⟨action, hraw, rfl⟩ := map_eq_ok.mp h
    rw [List.mem_singleton.mp hpart]
    exact RawActionStep.validate_ok hraw
  | condition raw =>
    obtain ⟨condition, hraw, rfl⟩ := map_eq_ok.mp h
    have hparts := RawConditionStep.validate_ok hraw
    rcases List.mem_cons.mp hpart with rfl | hpart
    · exact hparts.1
    · obtain ⟨branch, hbranch, rfl⟩ := List.mem_map.mp hpart
      exact hparts.2 branch hbranch

/-- An accepted cron expression does not begin with `=`. -/
theorem validTrigger_cron {raw : Trigger} {cron : String} (h : validTrigger raw = .ok (.schedule cron)) :
    cron.toList.head? ≠ some '=' := by
  cases raw with
  | manual => cases h
  | schedule value =>
    rw [validTrigger] at h
    by_cases hcron : matchCron value = true
    · rw [if_pos hcron] at h
      cases h
      intro hhead
      rw [strip, String.toList_ofList] at hhead
      obtain ⟨rest, hchars⟩ := List.head?_eq_some_iff.mp hhead
      rw [matchCron, hchars] at hcron
      exact absurd hcron (by simp [isCronChar, isDecimal, decimalZeros])
    · rw [if_neg hcron] at h
      cases h

/-- What acceptance says about a recipe. -/
theorem RawRecipe.validate_ok {raw : RawRecipe} {recipe : Recipe} (h : raw.validate = .ok recipe) :
    Ordered [] recipe.steps ∧ (∀ step ∈ recipe.allSteps, step.WellFormed) ∧
      ∀ cron, recipe.trigger = .schedule cron → cron.toList.head? ≠ some '=' := by
  obtain ⟨⟨⟩, -, h⟩ := bind_eq_ok.mp h
  obtain ⟨⟨⟩, -, h⟩ := bind_eq_ok.mp h
  obtain ⟨trigger, htrigger, h⟩ := bind_eq_ok.mp h
  obtain ⟨⟨⟩, -, h⟩ := bind_eq_ok.mp h
  obtain ⟨steps, hsteps, h⟩ := bind_eq_ok.mp h
  obtain ⟨seen, hseen, h⟩ := bind_eq_ok.mp h
  cases h
  refine ⟨seeSteps_ok hseen, fun part hpart => ?_, fun cron hcron => ?_⟩
  · obtain ⟨step, hstep, hpart⟩ := List.mem_flatMap.mp hpart
    obtain ⟨rawStep, -, hok⟩ := of_mem_mapM hsteps hstep
    exact RawStep.validate_ok hok part hpart
  · exact validTrigger_cron (htrigger.trans (congrArg Except.ok hcron))

/-- The steps of an accepted recipe are ordered. -/
theorem ValidRecipe.ordered (valid : ValidRecipe) : Ordered [] valid.recipe.steps :=
  valid.accepted.elim fun _ h => (RawRecipe.validate_ok h).1

/-- The steps of an accepted recipe are well formed. -/
theorem ValidRecipe.wellFormed (valid : ValidRecipe) {step : Step} (hstep : step ∈ valid.recipe.allSteps) :
    step.WellFormed :=
  valid.accepted.elim fun _ h => (RawRecipe.validate_ok h).2.1 step hstep

/-- The identifiers of an accepted recipe match the identifier pattern. -/
theorem ValidRecipe.matchStepId_id (valid : ValidRecipe) {step : Step} (hstep : step ∈ valid.recipe.allSteps) :
    matchStepId step.id = true :=
  (valid.wellFormed hstep).1

/-- The cron expression of an accepted recipe does not begin with `=`. -/
theorem ValidRecipe.cron_head (valid : ValidRecipe) {cron : String}
    (htrigger : valid.recipe.trigger = .schedule cron) : cron.toList.head? ≠ some '=' :=
  valid.accepted.elim fun _ h => (RawRecipe.validate_ok h).2.2 cron htrigger

/-- The identifiers of an accepted recipe are pairwise distinct. -/
theorem ValidRecipe.ids_nodup (valid : ValidRecipe) : (valid.recipe.allSteps.map Step.id).Nodup := by
  have h := valid.ordered.ids_nodup.1
  rwa [Recipe.allSteps, List.map_flatMap]

end FleetWorkflow.Recipes
