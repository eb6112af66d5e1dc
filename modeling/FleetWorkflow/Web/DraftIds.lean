import Mathlib.Data.List.Flatten
import Mathlib.Data.List.Induction
import FleetWorkflow.Web.RecipeBuilder

/-!
# The ids of a draft

The builder derives the id of what it adds from the size of the draft, or from the size of a branch, and removals make
both smaller. An id is thus given again as soon as the size comes back to where it has been, and a stored recipe may
have any ids to begin with. What holds of every run is that the ids stay distinct as long as no addition derives one
that the draft has.
-/

namespace FleetWorkflow.Web

open Recipes

/-! ## Ids and operations -/

/-- The ids of a step, those of its branches after its own. -/
def DraftStep.ids : DraftStep → List String
  | .action step => [step.id]
  | .condition step => step.id :: (step.thenSteps.map DraftAction.id ++ step.elseSteps.map DraftAction.id)

/-- `stepIds`: all ids of a draft. -/
def draftIds (steps : List DraftStep) : List String := steps.flatMap DraftStep.ids

/-- A step is a condition. -/
def DraftStep.isCondition : DraftStep → Bool
  | .action _ => false
  | .condition _ => true

/-- The branches of a condition. -/
inductive Branch where
  | thenBranch
  | elseBranch
deriving DecidableEq

/-- The name of a branch. -/
def Branch.name : Branch → String
  | .thenBranch => "then"
  | .elseBranch => "else"

/-- `step[branch]`. -/
def DraftCondition.branch (step : DraftCondition) : Branch → List DraftAction
  | .thenBranch => step.thenSteps
  | .elseBranch => step.elseSteps

/-- `{ ...step, [branch]: actions }`. -/
def DraftCondition.setBranch (step : DraftCondition) (actions : List DraftAction) : Branch → DraftCondition
  | .thenBranch => { step with thenSteps := actions }
  | .elseBranch => { step with elseSteps := actions }

/-- What the buttons of the builder do. -/
inductive Operation where
  | addStep
  | addCondition
  | addBranchStep (index : ℕ) (branch : Branch)
  | removeStep (index : ℕ)
  | removeBranchStep (index : ℕ) (branch : Branch) (branchIndex : ℕ)
deriving DecidableEq

/-- The id of a new branch step. -/
def branchStepId (step : DraftCondition) (branch : Branch) : String :=
  branch.name ++ Nat.repr ((step.branch branch).length + 1) ++ "_" ++ step.id

/-- A step with another step on a branch, if it is a condition. -/
def addToBranch (size : ℕ) (branch : Branch) : DraftStep → DraftStep
  | .action step => .action step
  | .condition step =>
    .condition (step.setBranch (step.branch branch ++
      [{ newAction (size + 1) with id := branchStepId step branch }]) branch)

/-- A step without one of its branch steps, if it is a condition. -/
def removeFromBranch (branch : Branch) (branchIndex : ℕ) : DraftStep → DraftStep
  | .action step => .action step
  | .condition step => .condition (step.setBranch ((step.branch branch).eraseIdx branchIndex) branch)

/-- The draft after a button was pressed. There is no second condition to be added. -/
def operate (steps : List DraftStep) : Operation → List DraftStep
  | .addStep => steps ++ [.action (newAction ((draftIds steps).length + 1))]
  | .addCondition =>
    if steps.any DraftStep.isCondition then steps
    else
      steps ++ [.condition
        { id := "cond" ++ Nat.repr (steps.length + 1)
          left := ""
          operator := .gt
          right := "0"
          thenSteps := [{ newAction ((draftIds steps).length + 1) with id := "then" ++ Nat.repr (steps.length + 1) }]
          elseSteps := [] }]
  | .addBranchStep index branch => steps.modify index (addToBranch (draftIds steps).length branch)
  | .removeStep index => steps.eraseIdx index
  | .removeBranchStep index branch branchIndex => steps.modify index (removeFromBranch branch branchIndex)

/-- The draft after some buttons. -/
def operateAll (steps : List DraftStep) (operations : List Operation) : List DraftStep := operations.foldl operate steps

/-- What the builder is opened with: nothing, or a stored recipe. -/
inductive Opened where
  | empty
  | stored (valid : ValidRecipe)

/-- The steps of the draft that the builder starts with. -/
def Opened.steps : Opened → List DraftStep
  | .empty => [.action (newAction 1)]
  | .stored valid => ((fromRecipe (recipeOut valid.recipe)).map Draft.steps).getD []

/-! ## What an operation does to the ids -/

/-- The ids that an operation gives. -/
def newIds (steps : List DraftStep) : Operation → List String
  | .addStep => ["step" ++ Nat.repr ((draftIds steps).length + 1)]
  | .addCondition =>
    if steps.any DraftStep.isCondition then []
    else ["cond" ++ Nat.repr (steps.length + 1), "then" ++ Nat.repr (steps.length + 1)]
  | .addBranchStep index branch =>
    match steps[index]? with
    | some (.condition step) => [branchStepId step branch]
    | _ => []
  | .removeStep _ | .removeBranchStep _ _ _ => []

/-- The ids that an operation gives are not in the draft. -/
def Fresh (steps : List DraftStep) (operation : Operation) : Prop :=
  ∀ id ∈ newIds steps operation, id ∉ draftIds steps

/-- An operation takes something away. -/
def Operation.removes : Operation → Bool
  | .removeStep _ | .removeBranchStep _ _ _ => true
  | _ => false

variable {steps : List DraftStep}

/-- The ids of an operation are different ones. -/
theorem nodup_newIds (operation : Operation) : (newIds steps operation).Nodup := by
  cases operation with
  | addCondition =>
    rw [newIds]
    split
    · exact List.nodup_nil
    · rw [List.nodup_cons]
      refine ⟨?_, List.nodup_singleton _⟩
      intro hmem
      have heq := congrArg String.toList (List.mem_singleton.mp hmem)
      rw [String.toList_append, String.toList_append] at heq
      exact absurd (List.cons.inj heq).1 (by decide)
  | addBranchStep index branch =>
    rw [newIds]
    split
    · exact List.nodup_singleton _
    · exact List.nodup_nil
  | addStep => exact List.nodup_singleton _
  | _ => exact List.nodup_nil

/-- Some ids that a step gains are gained by the draft. -/
theorem draftIds_modify_perm {index : ℕ} {f : DraftStep → DraftStep} {gained : List String} {step : DraftStep}
    (hstep : steps[index]? = some step) (hids : (f step).ids.Perm (gained ++ step.ids)) :
    (draftIds (steps.modify index f)).Perm (gained ++ draftIds steps) := by
  induction steps generalizing index with
  | nil => cases hstep
  | cons first rest ih =>
    cases index with
    | zero =>
      cases hstep
      rw [List.modify_zero_cons, draftIds, draftIds, List.flatMap_cons, List.flatMap_cons, ← List.append_assoc]
      exact hids.append_right _
    | succ index =>
      rw [List.modify_succ_cons, draftIds, draftIds, List.flatMap_cons, List.flatMap_cons]
      calc first.ids ++ draftIds (rest.modify index f)
          |>.Perm (first.ids ++ (gained ++ draftIds rest)) := (ih hstep).append_left _
        _ |>.Perm (gained ++ (first.ids ++ draftIds rest)) := List.perm_append_comm_assoc _ _ _

/-- Ids that every step keeps some of are kept by the draft. -/
theorem draftIds_modify_sublist {index : ℕ} {f : DraftStep → DraftStep} (hids : ∀ step, (f step).ids.Sublist step.ids) :
    (draftIds (steps.modify index f)).Sublist (draftIds steps) := by
  induction steps generalizing index with
  | nil => simp
  | cons first rest ih =>
    cases index with
    | zero => exact (hids first).append (List.Sublist.refl _)
    | succ index => exact (List.Sublist.refl _).append ih

/-- A step gains the id of a new branch step. -/
theorem ids_addToBranch (size : ℕ) (branch : Branch) (step : DraftCondition) :
    (addToBranch size branch (.condition step)).ids.Perm ([branchStepId step branch] ++ (DraftStep.condition step).ids) := by
  cases branch with
  | thenBranch =>
    simp only [addToBranch, DraftStep.ids, DraftCondition.setBranch, DraftCondition.branch, List.map_append,
      List.map_cons, List.map_nil, List.append_assoc, List.singleton_append]
    exact (List.perm_middle.cons _).trans (List.Perm.swap _ _ _)
  | elseBranch =>
    simp only [addToBranch, DraftStep.ids, DraftCondition.setBranch, DraftCondition.branch, List.map_append,
      List.map_cons, List.map_nil, ← List.append_assoc, List.singleton_append]
    exact ((List.perm_append_singleton _ _).cons _).trans (List.Perm.swap _ _ _)

/-- A step without one of its branch steps has no other ids. -/
theorem ids_removeFromBranch (branch : Branch) (branchIndex : ℕ) (step : DraftStep) :
    (removeFromBranch branch branchIndex step).ids.Sublist step.ids := by
  cases step with
  | action step => exact List.Sublist.refl _
  | condition step =>
    have hbranch (actions : List DraftAction) :
        ((actions.eraseIdx branchIndex).map DraftAction.id).Sublist (actions.map DraftAction.id) :=
      (List.eraseIdx_sublist _ _).map _
    cases branch with
    | thenBranch => exact ((hbranch _).append (List.Sublist.refl _)).cons_cons _
    | elseBranch => exact ((List.Sublist.refl _).append (hbranch _)).cons_cons _

/-- An addition adds its ids to those of the draft. -/
theorem draftIds_operate_perm {operation : Operation} (h : operation.removes = false) :
    (draftIds (operate steps operation)).Perm (newIds steps operation ++ draftIds steps) := by
  cases operation with
  | addStep =>
    simp only [operate, newIds, draftIds, List.flatMap_append, List.flatMap_singleton]
    exact List.perm_append_comm
  | addCondition =>
    rw [operate, newIds]
    split
    · exact List.Perm.refl _
    · simp only [draftIds, List.flatMap_append, List.flatMap_singleton]
      exact List.perm_append_comm
  | addBranchStep index branch =>
    simp only [operate, newIds]
    cases hstep : steps[index]? with
    | none =>
      rw [List.modify_eq_self (List.getElem?_eq_none_iff.mp hstep)]
      exact List.Perm.refl _
    | some step =>
      cases step with
      | action step => exact draftIds_modify_perm hstep (List.Perm.refl _)
      | condition step => exact draftIds_modify_perm hstep (ids_addToBranch _ _ _)
  | removeStep index => cases h
  | removeBranchStep index branch branchIndex => cases h

/-- A removal gives no ids. -/
theorem draftIds_operate_sublist {operation : Operation} (h : operation.removes = true) :
    (draftIds (operate steps operation)).Sublist (draftIds steps) := by
  cases operation with
  | removeStep index => exact (List.eraseIdx_sublist _ _).flatMap _
  | removeBranchStep index branch branchIndex => exact draftIds_modify_sublist (ids_removeFromBranch branch branchIndex)
  | _ => cases h

/-- From distinct ids an operation leads to distinct ids exactly when the ones that it gives are new. -/
theorem nodup_operate_iff (hnodup : (draftIds steps).Nodup) (operation : Operation) :
    (draftIds (operate steps operation)).Nodup ↔ Fresh steps operation := by
  cases h : operation.removes with
  | false =>
    rw [(draftIds_operate_perm h).nodup_iff, List.nodup_append]
    constructor
    · intro hall id hid hmem
      exact hall.2.2 id hid id hmem rfl
    · intro hfresh
      refine ⟨nodup_newIds operation, hnodup, ?_⟩
      intro id hid other hother heq
      rw [heq] at hid
      exact hfresh other hid hother
  | true =>
    have hnone : Fresh steps operation := by
      cases operation with
      | removeStep index => exact List.forall_mem_nil _
      | removeBranchStep index branch branchIndex => exact List.forall_mem_nil _
      | _ => cases h
    simp only [hnone, iff_true]
    exact (draftIds_operate_sublist h).nodup hnodup

/-! ## Runs -/

/-- The ids of the drafts of a run stay distinct. -/
def StaysDistinct (start : List DraftStep) (operations : List Operation) : Prop :=
  ∀ done rest, operations = done ++ rest → (draftIds (operateAll start done)).Nodup

/-- Every operation of a run gives new ids. -/
def AlwaysFresh (start : List DraftStep) (operations : List Operation) : Prop :=
  ∀ done operation rest, operations = done ++ operation :: rest → Fresh (operateAll start done) operation

/-- One more operation. -/
theorem operateAll_concat (start : List DraftStep) (done : List Operation) (operation : Operation) :
    operateAll start (done ++ [operation]) = operate (operateAll start done) operation := by
  simp [operateAll]

/-- From distinct ids, the ids of a run stay distinct exactly when every operation gives new ids. -/
theorem staysDistinct_iff_of_nodup {start : List DraftStep} (hstart : (draftIds start).Nodup) (operations : List Operation) :
    StaysDistinct start operations ↔ AlwaysFresh start operations := by
  constructor
  · intro h done operation rest hoperations
    have hbefore := h done (operation :: rest) hoperations
    have hafter := h (done ++ [operation]) rest (by rw [hoperations, List.append_assoc, List.singleton_append])
    rw [operateAll_concat] at hafter
    exact (nodup_operate_iff hbefore operation).mp hafter
  · intro h done
    induction done using List.reverseRecOn with
    | nil => exact fun _ _ => hstart
    | append_singleton done operation ih =>
      intro rest hoperations
      rw [List.append_assoc, List.singleton_append] at hoperations
      rw [operateAll_concat]
      exact (nodup_operate_iff (ih _ hoperations) operation).mpr (h done operation rest hoperations)

/-- The ids of the draft of a stored recipe are those of its steps. -/
theorem draftIds_stored (valid : ValidRecipe) :
    draftIds (Opened.stored valid).steps = valid.recipe.allSteps.map Step.id := by
  have hids (step : Step) : (draftStep step).ids = step.withBranches.map Step.id := by
    cases step with
    | action step => rfl
    | condition step =>
      simp [draftStep, DraftStep.ids, Step.withBranches, Step.branchSteps, Step.id, draftAction, Function.comp_def]
  simp only [Opened.steps, fromRecipe_recipeOut, Option.map_some, Option.getD_some, draftOf, draftIds, Recipe.allSteps,
    List.flatMap_map, List.map_flatMap, hids]

/-- The builder starts with distinct ids. -/
theorem nodup_opened (opened : Opened) : (draftIds opened.steps).Nodup := by
  cases opened with
  | empty => exact List.nodup_singleton _
  | stored valid =>
    rw [draftIds_stored]
    exact valid.ids_nodup

/-- From whatever the builder is opened with, the ids of its drafts stay distinct through some operations exactly when
each of these gives ids that the draft does not have. -/
theorem staysDistinct_iff (opened : Opened) (operations : List Operation) :
    StaysDistinct opened.steps operations ↔ AlwaysFresh opened.steps operations :=
  staysDistinct_iff_of_nodup (nodup_opened opened) operations

/-- A step that is added after the first of two was removed has the id of the second. -/
theorem removedStep_duplicate : ¬StaysDistinct Opened.empty.steps [.addStep, .removeStep 0, .addStep] := by
  intro h
  have hlast := h [.addStep, .removeStep 0, .addStep] [] rfl
  revert hlast
  decide

end FleetWorkflow.Web
