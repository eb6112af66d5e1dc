import Mathlib.Algebra.BigOperators.Group.List.Basic
import Mathlib.Data.List.MinMax
import FleetWorkflow.Llm.Client

/-!
# Budget checks

The spend of a scope in the current period is evaluated against a budget of the scope, for each scope
that a call belongs to. Which of several budgets of one scope is read is up to the database.
-/

namespace FleetWorkflow.Llm

open Python

/-- A point of time in UTC. -/
structure DateTime where
  year : ℕ
  month : ℕ
  day : ℕ
  microsecond : ℕ
deriving DecidableEq, Repr

/-- `start <= ts`. -/
def DateTime.le (start ts : DateTime) : Bool :=
  start.year < ts.year || start.year = ts.year &&
    (start.month < ts.month || start.month = ts.month &&
      (start.day < ts.day || start.day = ts.day && start.microsecond ≤ ts.microsecond))

/-- A row of the budgets table. -/
structure BudgetRow where
  id : ℕ
  scopeType : String
  scopeId : Option String
  period : String
  limitUsd : ℚ
  softPct : ℤ
deriving DecidableEq

/-- What a budget check reads of a row of the spend ledger. -/
structure SpendEntry where
  ts : DateTime
  costUsd : ℚ
  deptId : Option String
  agentId : Option String
  userId : Option String

/-- `evaluate_budget(...)`. -/
def evaluateBudget (spentUsd : ℚ) (limitUsd : Option ℚ) (softPct : ℤ) (scope : String) : BudgetStatus :=
  match limitUsd with
  | none => ⟨scope, spentUsd, none, softPct, true, false, false, 0⟩
  | some limit =>
    let utilization := if 0 < limit then spentUsd / limit else 1
    let hard := decide (limit ≤ spentUsd)
    let soft := decide (limit * (softPct / 100) ≤ spentUsd)
    ⟨scope, spentUsd, some limit, softPct, !hard, soft, hard, utilization⟩

/-- `_period_start(period, now)`. -/
def periodStart (period : String) (now : DateTime) : DateTime :=
  if period = "daily" then { now with microsecond := 0 } else { now with day := 1, microsecond := 0 }

/-- The column of the ledger that a type of scope is compared with; the global scope is compared with none. -/
def scopeColumn : String → Option (SpendEntry → Option String)
  | "dept" => some (·.deptId)
  | "agent" => some (·.agentId)
  | "user" => some (·.userId)
  | _ => none

/-- The entries of a scope; a null equals nothing. -/
def ofScope (scopeType : String) (scopeId : Option String) (entry : SpendEntry) : Bool :=
  match scopeColumn scopeType with
  | some column => scopeId.isSome && column entry = scopeId
  | none => true

/-- The sum of the costs of a scope from a point of time on. -/
def spentSince (ledger : List SpendEntry) (start : DateTime) (scopeType : String) (scopeId : Option String) : ℚ :=
  ((ledger.filter fun entry => start.le entry.ts && ofScope scopeType scopeId entry).map (·.costUsd)).sum

/-- A choice of the database: one of the rows that a query matches. -/
structure LimitOne where
  pick : List BudgetRow → Option BudgetRow
  pick_mem : ∀ rows row, pick rows = some row → row ∈ rows
  pick_nil : ∀ rows, pick rows = none → rows = []

/-- The types of scopes. -/
def validScopeTypes : List String := ["global", "dept", "agent", "user"]

/-- The name of a scope in messages. -/
def scopeLabel (scopeType : String) : Option String → String
  | some id => if id = "" then scopeType else scopeType ++ ":" ++ id
  | none => scopeType

section Check

variable (limitOne : LimitOne) (table : List BudgetRow) (ledger : List SpendEntry) (now : DateTime)

/-- The rows of a scope; the query compares null scope ids as equal. -/
def matching (scopeType : String) (scopeId : Option String) : List BudgetRow :=
  table.filter fun row => row.scopeType = scopeType && row.scopeId = scopeId

/-- `check_budget(session_factory, scope_type=..., scope_id=..., now=...)`. -/
def checkScope (scopeType : String) (scopeId : Option String) : Except Raised BudgetStatus :=
  let label := scopeLabel scopeType scopeId
  match limitOne.pick (matching table scopeType scopeId) with
  | none => .ok (evaluateBudget 0 none 80 label)
  | some budget =>
    if scopeType ∈ validScopeTypes then
      .ok (evaluateBudget (spentSince ledger (periodStart budget.period now) scopeType scopeId) (some budget.limitUsd)
        budget.softPct label)
    else .error (.exception ⟨.valueError, "unknown scope_type: " ++ scopeType⟩)

/-- The scopes of a call. -/
def callScopes (texts : GatewayTexts) (callMeta : Dict) : List (String × Option String) :=
  ("global", none) :: ["dept", "agent", "user"].filterMap fun scopeType =>
    let id := LlmClient.metaValue callMeta (scopeType ++ "_id")
    if id.truthy then some (scopeType, some (texts.py.str id)) else none

/-- The status that a call is judged by: any hard stop, else any soft flag, else the highest utilization. -/
def mostConstrained (statuses : List BudgetStatus) : Option BudgetStatus :=
  match statuses.find? (·.hardExceeded) with
  | some status => some status
  | none =>
    match statuses.filter (·.softExceeded) with
    | [] => statuses.argmax (·.utilization)
    | soft => soft.argmax (·.utilization)

/-- `DbBudgetChecker.__call__(meta)`. -/
def dbBudgetChecker (texts : GatewayTexts) (callMeta : Dict) : Except Raised BudgetStatus := do
  let statuses ← (callScopes texts callMeta).mapM fun scope => checkScope limitOne table ledger now scope.1 scope.2
  match mostConstrained statuses with
  | some status => return status
  | none => throw (.exception ⟨.valueError, "max() iterable argument is empty"⟩)

end Check

/-! ## The status of a call -/

/-- A status stops a call exactly when it is hard. -/
theorem raises_iff {status : BudgetStatus} :
    (∃ error, status.raiseIfExceeded = .error error) ↔ status.hardExceeded = true := by
  rw [BudgetStatus.raiseIfExceeded]
  split
  · rename_i hhard
    exact iff_of_true ⟨_, rfl⟩ hhard
  · rename_i hhard
    refine iff_of_false ?_ hhard
    rintro ⟨error, hnever⟩
    cases hnever

/-- What the choice among statuses is for: a hard one if there is one, else a soft one of the highest utilization. -/
structure Constrains (statuses : List BudgetStatus) (status : BudgetStatus) : Prop where
  mem : status ∈ statuses
  hard : status.hardExceeded = true ↔ ∃ other ∈ statuses, other.hardExceeded = true
  soft : (∀ other ∈ statuses, ¬ other.hardExceeded = true) →
    (status.softExceeded = true ↔ ∃ other ∈ statuses, other.softExceeded = true)
  highest : (∀ other ∈ statuses, ¬ other.hardExceeded = true) → ∀ other ∈ statuses, other.softExceeded = true →
    other.utilization ≤ status.utilization

/-- Some status is the highest of those among which it is chosen. -/
theorem exists_argmax {among : List BudgetStatus} (h : among ≠ []) : ∃ status ∈ among,
    among.argmax (·.utilization) = some status ∧ ∀ other ∈ among, other.utilization ≤ status.utilization := by
  cases hmax : among.argmax (·.utilization) with
  | none => exact absurd (List.argmax_eq_none.mp hmax) h
  | some status => exact ⟨status, List.argmax_mem hmax, rfl, fun other hother => List.le_of_mem_argmax hother hmax⟩

/-- The choice among statuses is the one that constrains a call most. -/
theorem mostConstrained_constrains {statuses : List BudgetStatus} (h : statuses ≠ []) :
    ∃ status, mostConstrained statuses = some status ∧ Constrains statuses status := by
  rw [mostConstrained]
  cases hfind : statuses.find? (·.hardExceeded) with
  | some status =>
    have hhard : status.hardExceeded = true := List.find?_some hfind
    have hmem := List.mem_of_find?_eq_some hfind
    refine ⟨status, rfl, hmem, iff_of_true hhard ⟨status, hmem, hhard⟩, fun hnone => ?_, fun hnone => ?_⟩
    · exact absurd hhard (hnone status hmem)
    · exact absurd hhard (hnone status hmem)
  | none =>
    have hnone : ∀ other ∈ statuses, ¬ other.hardExceeded = true := by simpa using hfind
    have hnever : ¬ ∃ other ∈ statuses, other.hardExceeded = true := by
      rintro ⟨other, hother, hhard⟩
      exact hnone other hother hhard
    dsimp only
    split
    · rename_i hsoft
      have hquiet : ∀ other ∈ statuses, ¬ other.softExceeded = true := by simpa using hsoft
      obtain ⟨status, hmem, hmax, -⟩ := exists_argmax h
      refine ⟨status, hmax, hmem, iff_of_false (hnone status hmem) hnever, fun _ => ?_, fun _ other hother hflag => ?_⟩
      · apply iff_of_false (hquiet status hmem)
        rintro ⟨other, hother, hflag⟩
        exact hquiet other hother hflag
      · exact absurd hflag (hquiet other hother)
    · rename_i hsoft
      obtain ⟨status, hmem, hmax, hhighest⟩ := exists_argmax hsoft
      obtain ⟨hmem, hflag⟩ := List.mem_filter.mp hmem
      refine ⟨status, hmax, hmem, iff_of_false (hnone status hmem) hnever, fun _ => ?_, fun _ other hother hsoft => ?_⟩
      · exact iff_of_true hflag ⟨status, hmem, hflag⟩
      · exact hhighest other (List.mem_filter.mpr ⟨hother, hsoft⟩)

end FleetWorkflow.Llm
