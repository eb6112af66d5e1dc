import Mathlib.Data.List.MinMax
import Mathlib.Data.Rat.Defs
import FleetWorkflow.Python.Value

/-!
# Sensitivity routing

A request has an effective sensitivity, and goes to a model of its role whose clearance covers it;
among these the lowest clearance is preferred. A request that no model covers is refused.
-/

namespace FleetWorkflow.Llm

open Python

/-- The ordered classification. -/
inductive Sensitivity where
  | unclassified
  | internal
  | confidential
  | pii
deriving DecidableEq, Repr

/-- The value of the enumeration. -/
def Sensitivity.level : Sensitivity → ℕ
  | .unclassified => 0
  | .internal => 1
  | .confidential => 2
  | .pii => 3

/-- The members under their names. -/
def Sensitivity.members : List (String × Sensitivity) :=
  [("PUBLIC", .unclassified), ("INTERNAL", .internal), ("CONFIDENTIAL", .confidential), ("PII", .pii)]

/-- `name.lower()`. -/
def Sensitivity.lowerName : Sensitivity → String
  | .unclassified => "public"
  | .internal => "internal"
  | .confidential => "confidential"
  | .pii => "pii"

/-- What a call to a model can raise; `abandoned` is the exit of a generator that is not resumed. -/
inductive Raised where
  | refusal (message : String)
  | budgetExceeded (scope : String) (spentUsd limitUsd : ℚ)
  | gateway (message : String)
  | exception (error : Exc)
  | abandoned

/-- The built-in functions on texts that the gateway uses. -/
structure GatewayTexts where
  py : Builtins
  upper : String → String
  str : Raised → String

/-- A sensitivity as it is declared: a member, or a text. -/
inductive Declared where
  | level (sensitivity : Sensitivity)
  | text (value : String)

/-- A row of the model registry with its derived role. -/
structure ModelRow where
  name : String
  provider : String
  litellmModelId : String
  sensitivityClearance : String
  inputPricePer1k : ℚ
  outputPricePer1k : ℚ
  cachedInputPrice : Option ℚ
  fleetRole : String
deriving DecidableEq

variable (texts : GatewayTexts)

/-- `Sensitivity.parse(value)`. -/
def Sensitivity.parse : Declared → Except Raised Sensitivity
  | .level sensitivity => .ok sensitivity
  | .text value =>
    match Sensitivity.members.find? fun member => member.1 = texts.upper value with
    | some member => .ok member.2
    | none => .error (.exception ⟨.valueError, "unknown sensitivity: " ++ texts.py.repr (.str value)⟩)

/-- The greater of two members. -/
def Sensitivity.max (a b : Sensitivity) : Sensitivity := if a.level < b.level then b else a

/-- The top of the levels, after the redaction rule. -/
def effectiveLevel (levels : List Sensitivity) (redacted : Bool) : Sensitivity :=
  let top := levels.foldl Sensitivity.max .unclassified
  if redacted && top = .confidential then .internal else top

/-- `effective_sensitivity(inputs, redacted=...)`. -/
def effectiveSensitivity (inputs : List Declared) (redacted : Bool) : Except Raised Sensitivity := do
  let levels ← inputs.mapM (Sensitivity.parse texts)
  return effectiveLevel levels redacted

/-- `_clearance(model)`. -/
def clearance (model : ModelRow) : Except Raised Sensitivity :=
  Sensitivity.parse texts (.text model.sensitivityClearance)

/-- The models of a role that cover a sensitivity, with their clearances. -/
def candidates (role : String) (effective : Sensitivity) :
    List ModelRow → Except Raised (List (ModelRow × Sensitivity))
  | [] => .ok []
  | model :: rest => do
    if model.fleetRole = role then
      let cleared ← clearance texts model
      let others ← candidates role effective rest
      return if effective.level ≤ cleared.level then (model, cleared) :: others else others
    else candidates role effective rest

/-- `select_model(models, role=..., sensitivity=..., redacted=...)`. -/
def selectModel (models : List ModelRow) (role : String) (sensitivity : Declared) (redacted : Bool) :
    Except Raised ModelRow := do
  let effective ← effectiveSensitivity texts [sensitivity] redacted
  let cleared ← candidates texts role effective models
  match cleared.argmin fun candidate => candidate.2.level with
  | some candidate => return candidate.1
  | none => .error (.refusal ("no " ++ role ++ " model cleared for effective sensitivity " ++
      effective.lowerName ++ "; request refused (CLAUDE.md rule 2)"))

/-! ## Which model is selected -/

/-- A model of the role covers a sensitivity. -/
def Covers (role : String) (effective : Sensitivity) (model : ModelRow) : Prop :=
  model.fleetRole = role ∧ ∃ cleared, clearance texts model = .ok cleared ∧ effective.level ≤ cleared.level

/-- A model covers a sensitivity with the least clearance among those that do. -/
def LeastCovering (models : List ModelRow) (role : String) (effective : Sensitivity) (model : ModelRow) : Prop :=
  model ∈ models ∧ Covers texts role effective model ∧
    ∀ other ∈ models, Covers texts role effective other → ∀ cleared cleared',
      clearance texts model = .ok cleared → clearance texts other = .ok cleared' → cleared.level ≤ cleared'.level

variable {texts} {models : List ModelRow} (role : String)

/-- The candidates are the models that cover the sensitivity, with their clearances. -/
theorem candidates_eq (effective : Sensitivity) (hvalid : ∀ model ∈ models, ∃ cleared, clearance texts model = .ok cleared) :
    ∃ cleared, candidates texts role effective models = .ok cleared ∧
      ∀ model level, (model, level) ∈ cleared ↔
        model ∈ models ∧ model.fleetRole = role ∧ clearance texts model = .ok level ∧ effective.level ≤ level.level := by
  induction models with
  | nil => exact ⟨[], rfl, by simp⟩
  | cons first rest ih =>
    obtain ⟨others, hothers, hmem⟩ := ih fun model hmodel => hvalid model (List.mem_cons_of_mem _ hmodel)
    obtain ⟨level, hlevel⟩ := hvalid first List.mem_cons_self
    by_cases hrole : first.fleetRole = role
    · refine ⟨if effective.level ≤ level.level then (first, level) :: others else others, ?_, ?_⟩
      · rw [candidates, if_pos hrole, hlevel, hothers]
        rfl
      · intro model level'
        by_cases hcovered : effective.level ≤ level.level
        · rw [if_pos hcovered, List.mem_cons, hmem, List.mem_cons]
          constructor
          · rintro (heq | ⟨hin, hrest⟩)
            · cases heq
              exact ⟨.inl rfl, hrole, hlevel, hcovered⟩
            · exact ⟨.inr hin, hrest⟩
          · rintro ⟨rfl | hin, hrest⟩
            · rw [hlevel] at hrest
              cases hrest.2.1
              exact .inl rfl
            · exact .inr ⟨hin, hrest⟩
        · rw [if_neg hcovered, hmem, List.mem_cons]
          constructor
          · rintro ⟨hin, hrest⟩
            exact ⟨.inr hin, hrest⟩
          · rintro ⟨rfl | hin, hrest⟩
            · rw [hlevel] at hrest
              cases hrest.2.1
              exact absurd hrest.2.2 hcovered
            · exact ⟨hin, hrest⟩
    · refine ⟨others, ?_, ?_⟩
      · rw [candidates, if_neg hrole]
        exact hothers
      · intro model level'
        rw [hmem, List.mem_cons]
        constructor
        · rintro ⟨hin, hrest⟩
          exact ⟨.inr hin, hrest⟩
        · rintro ⟨rfl | hin, hrest⟩
          · exact absurd hrest.1 hrole
          · exact ⟨hin, hrest⟩

/-- One declared sensitivity: its level, or `internal` for redacted confidential content. -/
theorem effectiveSensitivity_singleton {declared : Declared} {level : Sensitivity}
    (h : Sensitivity.parse texts declared = .ok level) (redacted : Bool) :
    effectiveSensitivity texts [declared] redacted = .ok (effectiveLevel [level] redacted) := by
  simp only [effectiveSensitivity, List.mapM_cons, List.mapM_nil, h]
  rfl

/-- The effective level of one sensitivity; `pii` stays as it is. -/
theorem effectiveLevel_singleton (level : Sensitivity) (redacted : Bool) :
    effectiveLevel [level] redacted =
      if redacted = true ∧ level = .confidential then .internal else level := by
  cases level <;> cases redacted <;> rfl

/-- A model is selected exactly when one covers the sensitivity, and then it is one with the least clearance. -/
theorem selectModel_spec (redacted : Bool) {sensitivity : Declared} {level : Sensitivity}
    (hvalid : ∀ model ∈ models, ∃ cleared, clearance texts model = .ok cleared)
    (hlevel : Sensitivity.parse texts sensitivity = .ok level) :
    (∃ model, selectModel texts models role sensitivity redacted = .ok model ∧
        LeastCovering texts models role (effectiveLevel [level] redacted) model) ∨
      (∃ message, selectModel texts models role sensitivity redacted = .error (.refusal message)) ∧
        ∀ model ∈ models, ¬ Covers texts role (effectiveLevel [level] redacted) model := by
  obtain ⟨cleared, hcleared, hmem⟩ := candidates_eq role (effectiveLevel [level] redacted) hvalid
  have hselect : selectModel texts models role sensitivity redacted =
      match cleared.argmin fun candidate => candidate.2.level with
      | some candidate => .ok candidate.1
      | none => .error (.refusal ("no " ++ role ++ " model cleared for effective sensitivity " ++
          (effectiveLevel [level] redacted).lowerName ++ "; request refused (CLAUDE.md rule 2)")) := by
    rw [selectModel, effectiveSensitivity_singleton hlevel]
    simp only [bind, Except.bind, hcleared]
    rfl
  cases hmin : cleared.argmin fun candidate => candidate.2.level with
  | none =>
    rw [List.argmin_eq_none] at hmin
    rw [hselect, hmin]
    refine .inr ⟨⟨_, rfl⟩, ?_⟩
    intro model hmodel hcovers
    obtain ⟨hrole, level', hlevel', hle⟩ := hcovers
    have hin := (hmem model level').mpr ⟨hmodel, hrole, hlevel', hle⟩
    rw [hmin] at hin
    cases hin
  | some candidate =>
    rw [hselect, hmin]
    refine .inl ⟨candidate.1, rfl, ?_⟩
    obtain ⟨hmodel, hrole, hclearance, hle⟩ := (hmem candidate.1 candidate.2).mp (List.argmin_mem hmin)
    refine ⟨hmodel, ⟨hrole, candidate.2, hclearance, hle⟩, ?_⟩
    intro other hother hcovers cleared₁ cleared₂ hcleared₁ hcleared₂
    rw [hclearance] at hcleared₁
    cases hcleared₁
    obtain ⟨hrole', level', hlevel', hle'⟩ := hcovers
    have hother' := (hmem other level').mpr ⟨hother, hrole', hlevel', hle'⟩
    have hleast := List.le_of_mem_argmin hother' (Option.mem_def.mpr hmin)
    rw [hlevel'] at hcleared₂
    cases hcleared₂
    exact hleast

end FleetWorkflow.Llm
