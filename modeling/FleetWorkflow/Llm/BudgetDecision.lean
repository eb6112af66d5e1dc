import FleetWorkflow.Flow.Fallible
import FleetWorkflow.Llm.Budget

/-!
# The decision over a hierarchy of scopes

A call belongs to several scopes, each with or without a limit. It is stopped when any of them has used up its limit;
otherwise it is flagged when any of them has reached its soft percentage, on behalf of a scope whose spend is the
largest part of its limit.
-/

namespace FleetWorkflow.Llm

open Python Flow

section Decision

variable (limitOne : LimitOne) (table : List BudgetRow) (ledger : List SpendEntry) (now : DateTime)

/-- A type of scope and the id of a scope of this type. -/
abbrev Scope := String × Option String

/-- The budget that is read for a scope. -/
def budgetOf (scope : Scope) : Option BudgetRow := limitOne.pick (matching table scope.1 scope.2)

/-- The spend of a scope in the period of a budget. -/
def spendOf (scope : Scope) (budget : BudgetRow) : ℚ :=
  spentSince ledger (periodStart budget.period now) scope.1 scope.2

/-- A scope has a limit, and its spend is at or above it. -/
def Exhausted (scope : Scope) : Prop :=
  ∃ budget, budgetOf limitOne table scope = some budget ∧ budget.limitUsd ≤ spendOf ledger now scope budget

/-- A scope has a limit, and its spend is at or above the soft percentage of it. -/
def Warned (scope : Scope) : Prop :=
  ∃ budget, budgetOf limitOne table scope = some budget ∧
    budget.limitUsd * (budget.softPct / 100) ≤ spendOf ledger now scope budget

/-- The part of its limit that a scope has spent. -/
def utilisation (scope : Scope) : ℚ :=
  match budgetOf limitOne table scope with
  | none => 0
  | some budget => spendOf ledger now scope budget / budget.limitUsd

/-- The status of a scope. -/
def statusOf (scope : Scope) : BudgetStatus :=
  match budgetOf limitOne table scope with
  | none => evaluateBudget 0 none 80 (scopeLabel scope.1 scope.2)
  | some budget =>
    evaluateBudget (spendOf ledger now scope budget) (some budget.limitUsd) budget.softPct (scopeLabel scope.1 scope.2)

variable {limitOne table ledger now}

/-- A check of a scope of a known type comes to its status. -/
theorem checkScope_eq {scope : Scope} (h : scope.1 ∈ validScopeTypes) :
    checkScope limitOne table ledger now scope.1 scope.2 = .ok (statusOf limitOne table ledger now scope) := by
  rw [checkScope, statusOf, budgetOf]
  cases limitOne.pick (matching table scope.1 scope.2) with
  | none => rfl
  | some budget => simp only [if_pos h, spendOf]

/-- The scopes of a call are of known types. -/
theorem mem_validScopeTypes {texts : GatewayTexts} {callMeta : Dict} {scope : Scope}
    (h : scope ∈ callScopes texts callMeta) : scope.1 ∈ validScopeTypes := by
  rcases List.mem_cons.mp h with rfl | h
  · decide
  · obtain ⟨scopeType, htype, hscope⟩ := List.mem_filterMap.mp h
    obtain ⟨-, hscope⟩ := Option.ite_none_right_eq_some.mp hscope
    rw [← Option.some.inj hscope]
    exact List.mem_cons_of_mem _ htype

/-- A status names its scope. -/
theorem statusOf_scope (scope : Scope) :
    (statusOf limitOne table ledger now scope).scope = scopeLabel scope.1 scope.2 := by
  rw [statusOf]
  cases budgetOf limitOne table scope <;> rfl

/-- A status is hard when its scope is exhausted. -/
theorem statusOf_hard (scope : Scope) :
    (statusOf limitOne table ledger now scope).hardExceeded = true ↔ Exhausted limitOne table ledger now scope := by
  rw [statusOf, Exhausted]
  cases budgetOf limitOne table scope <;> simp [evaluateBudget]

/-- A status is soft when its scope is warned. -/
theorem statusOf_soft (scope : Scope) :
    (statusOf limitOne table ledger now scope).softExceeded = true ↔ Warned limitOne table ledger now scope := by
  rw [statusOf, Warned]
  cases budgetOf limitOne table scope <;> simp [evaluateBudget]

instance (scope : Scope) : Decidable (Exhausted limitOne table ledger now scope) :=
  decidable_of_iff _ (statusOf_hard scope)

instance (scope : Scope) : Decidable (Warned limitOne table ledger now scope) := decidable_of_iff _ (statusOf_soft scope)

/-- A status measures how much of its limit a scope has spent. -/
theorem statusOf_utilization (hpositive : ∀ row ∈ table, 0 < row.limitUsd) (scope : Scope) :
    (statusOf limitOne table ledger now scope).utilization = utilisation limitOne table ledger now scope := by
  rw [statusOf, utilisation]
  cases hbudget : budgetOf limitOne table scope with
  | none => rfl
  | some budget =>
    have hmem : budget ∈ table := (List.mem_filter.mp (limitOne.pick_mem _ _ hbudget)).1
    simp only [evaluateBudget, if_pos (hpositive budget hmem)]

/-- The check of a call chooses among the statuses of its scopes. -/
theorem dbBudgetChecker_eq (texts : GatewayTexts) (callMeta : Dict) :
    ∃ status, dbBudgetChecker limitOne table ledger now texts callMeta = .ok status ∧
      Constrains ((callScopes texts callMeta).map (statusOf limitOne table ledger now)) status := by
  have hstatuses : (callScopes texts callMeta).mapM (fun scope => checkScope limitOne table ledger now scope.1 scope.2) =
      .ok ((callScopes texts callMeta).map (statusOf limitOne table ledger now)) :=
    mapM_eq_map_iff.mpr fun scope hscope => checkScope_eq (mem_validScopeTypes hscope)
  have hne : (callScopes texts callMeta).map (statusOf limitOne table ledger now) ≠ [] := by simp [callScopes]
  obtain ⟨status, hmost, hconstrains⟩ := mostConstrained_constrains hne
  refine ⟨status, ?_, hconstrains⟩
  rw [dbBudgetChecker, hstatuses]
  simp only [bind, Except.bind, hmost]
  rfl

end Decision

/-- A call is stopped exactly when one of its scopes is exhausted; otherwise it is flagged exactly when one of them is
warned, and then on behalf of a warned scope that has spent the largest part of its limit. -/
theorem dbBudgetChecker_decides (limitOne : LimitOne) (table : List BudgetRow) (ledger : List SpendEntry) (now : DateTime)
    (texts : GatewayTexts) (callMeta : Dict) (hpositive : ∀ row ∈ table, 0 < row.limitUsd) :
    ∃ status, dbBudgetChecker limitOne table ledger now texts callMeta = .ok status ∧
      ((∃ error, status.raiseIfExceeded = .error error) ↔
        ∃ scope ∈ callScopes texts callMeta, Exhausted limitOne table ledger now scope) ∧
      ((¬ ∃ scope ∈ callScopes texts callMeta, Exhausted limitOne table ledger now scope) →
        (status.softExceeded = true ↔ ∃ scope ∈ callScopes texts callMeta, Warned limitOne table ledger now scope) ∧
        (status.softExceeded = true → ∃ scope ∈ callScopes texts callMeta, Warned limitOne table ledger now scope ∧
          status.scope = scopeLabel scope.1 scope.2 ∧
          ∀ other ∈ callScopes texts callMeta, Warned limitOne table ledger now other →
            utilisation limitOne table ledger now other ≤ utilisation limitOne table ledger now scope)) := by
  obtain ⟨status, hcheck, hconstrains⟩ := @dbBudgetChecker_eq limitOne table ledger now texts callMeta
  refine ⟨status, hcheck, ?_, fun hfree => ?_⟩
  · rw [raises_iff, hconstrains.hard]
    simp only [List.mem_map, exists_exists_and_eq_and, statusOf_hard]
  · have hnone : ∀ other ∈ (callScopes texts callMeta).map (statusOf limitOne table ledger now),
        ¬ other.hardExceeded = true := by
      simp only [List.forall_mem_map, statusOf_hard]
      exact fun scope hscope hexhausted => hfree ⟨scope, hscope, hexhausted⟩
    have hsoft := hconstrains.soft hnone
    simp only [List.mem_map, exists_exists_and_eq_and, statusOf_soft] at hsoft
    refine ⟨hsoft, fun hflag => ?_⟩
    obtain ⟨scope, hscope, rfl⟩ := List.mem_map.mp hconstrains.mem
    refine ⟨scope, hscope, (statusOf_soft scope).mp hflag, statusOf_scope scope, fun other hother hwarned => ?_⟩
    have hhighest := hconstrains.highest hnone _ (List.mem_map_of_mem hother) ((statusOf_soft other).mpr hwarned)
    rw [statusOf_utilization hpositive, statusOf_utilization hpositive] at hhighest
    exact hhighest

/-- A database that reads the first row. -/
def firstRow : LimitOne where
  pick := List.head?
  pick_mem _ _ h := List.mem_of_head? h
  pick_nil _ h := List.head?_eq_none_iff.mp h

/-- A budget for everything and one for an agent. -/
def twoBudgets : List BudgetRow :=
  [⟨1, "global", none, "monthly", 10, 80⟩, ⟨2, "agent", some "a", "monthly", 4, 50⟩]

/-- A spend of the agent. -/
def agentSpend : List SpendEntry := [⟨⟨2026, 7, 2, 0⟩, 3, none, some "a", none⟩]

/-- Texts that are used as they are. -/
def asGiven : GatewayTexts where
  py := ⟨fun _ => "", id, fun _ => .ok .nan, fun _ => .ok 0⟩
  upper := id
  str _ := ""

/-- The agent has reached its soft percentage but not its limit, and the call is flagged on its behalf. -/
theorem dbBudgetChecker_decides_agent :
    ∃ status, dbBudgetChecker firstRow twoBudgets agentSpend ⟨2026, 7, 15, 0⟩ asGiven [("agent_id", .str "a")] =
      .ok status ∧ (¬ ∃ error, status.raiseIfExceeded = .error error) ∧ status.softExceeded = true ∧
        ∃ scope, Warned firstRow twoBudgets agentSpend ⟨2026, 7, 15, 0⟩ scope ∧
          status.scope = scopeLabel scope.1 scope.2 := by
  obtain ⟨status, hcheck, hstops, hflags⟩ := dbBudgetChecker_decides firstRow twoBudgets agentSpend ⟨2026, 7, 15, 0⟩
    asGiven [("agent_id", .str "a")] (by decide)
  have hfree : ¬ ∃ scope ∈ callScopes asGiven [("agent_id", .str "a")],
      Exhausted firstRow twoBudgets agentSpend ⟨2026, 7, 15, 0⟩ scope := by decide +kernel
  have hwarned : ∃ scope ∈ callScopes asGiven [("agent_id", .str "a")],
      Warned firstRow twoBudgets agentSpend ⟨2026, 7, 15, 0⟩ scope := by decide +kernel
  have hsoft := (hflags hfree).1.mpr hwarned
  obtain ⟨scope, -, hscope, hlabel, -⟩ := (hflags hfree).2 hsoft
  exact ⟨status, hcheck, fun hstop => hfree (hstops.mp hstop), hsoft, scope, hscope, hlabel⟩

end FleetWorkflow.Llm
