import Mathlib.Data.Rat.Floor
import Mathlib.Tactic.Linarith
import FleetWorkflow.Flow.Fallible
import FleetWorkflow.Llm.Budget
import FleetWorkflow.Store.Table

/-!
# Budgets

Administration of the budgets table, which the budget check reads. The table may hold several
budgets of one scope: one for each period, and global ones without bound, since a unique index
takes null scope ids for different.
-/

namespace FleetWorkflow.Api

open Python Llm Store Flow

/-- The body of a budget request. -/
structure BudgetIn where
  scopeType : String
  scopeId : Option String
  period : String
  limitUsd : ℚ
  softPct : ℤ
  limit_pos : 0 < limitUsd
  soft_ge : 0 ≤ softPct
  soft_le : softPct ≤ 100

/-- A budget with the spend of its scope. -/
structure BudgetOut where
  id : ℕ
  scopeType : String
  scopeId : Option String
  period : String
  limitUsd : ℚ
  softPct : ℤ
  spentUsd : ℚ
  softExceeded : Bool
  hardExceeded : Bool
deriving DecidableEq

/-- The budgets table. -/
abbrev BudgetTable := Table BudgetRow BudgetRow.id

/-- The periods of budgets. -/
def validPeriods : List String := ["daily", "monthly"]

/-- `_validate(body)`. -/
def validateBudget (body : BudgetIn) : Except Exc Unit :=
  if body.scopeType ∉ validScopeTypes then .error ⟨.http 422, "unknown scope_type: " ++ body.scopeType⟩
  else if body.period ∉ validPeriods then .error ⟨.http 422, "unknown period: " ++ body.period⟩
  else if body.scopeType = "global" ∧ body.scopeId ≠ none then
    .error ⟨.http 422, "global scope must not have a scope_id"⟩
  else if body.scopeType ≠ "global" ∧ body.scopeId = none then
    .error ⟨.http 422, body.scopeType ++ " scope requires a scope_id"⟩
  else .ok ()

/-- A number as a column with two decimals keeps it. -/
def numeric2 (x : ℚ) : ℚ := ⌊x * 100 + 1 / 2⌋ / 100

/-- The row of a body. -/
def BudgetIn.row (body : BudgetIn) (id : ℕ) : BudgetRow :=
  ⟨id, body.scopeType, body.scopeId, body.period, numeric2 body.limitUsd, body.softPct⟩

@[simp] theorem BudgetIn.row_id (body : BudgetIn) (id : ℕ) : (body.row id).id = id := rfl

/-- Two rows have the same scope and period. -/
def sameKey (row other : BudgetRow) : Bool :=
  row.scopeType = other.scopeType && row.scopeId = other.scopeId && row.period = other.period

/-- The unique index refuses a row; rows with a null are different to it. -/
def refused (table : BudgetTable) (row : BudgetRow) : Bool :=
  row.scopeId.isSome && table.rows.any fun other => other.id ≠ row.id && sameKey other row

/-- `create_budget(body)`. -/
def createBudget (table : BudgetTable) (body : BudgetIn) : Except Exc BudgetTable := do
  validateBudget body
  match table.rows.filter fun row => sameKey row (body.row table.next) with
  | [] => return table.insert (body.row table.next) (body.row_id _)
  | [_] => throw ⟨.http 409, "budget already exists for this scope+period"⟩
  | _ => throw ⟨.multipleResults, "Multiple rows were found when one or none was required"⟩

/-- `update_budget(budget_id, body)`. -/
def updateBudget (table : BudgetTable) (budgetId : ℕ) (body : BudgetIn) : Except Exc BudgetTable := do
  validateBudget body
  match table.row budgetId with
  | none => throw ⟨.http 404, "budget not found"⟩
  | some _ =>
    if refused table (body.row budgetId) then throw ⟨.integrityError, "uq_budget_scope"⟩
    else return table.update budgetId (fun row => body.row row.id) fun row => body.row_id row.id

/-- `delete_budget(budget_id)`. -/
def deleteBudget (table : BudgetTable) (budgetId : ℕ) : Except Exc BudgetTable :=
  match table.row budgetId with
  | none => .error ⟨.http 404, "budget not found"⟩
  | some _ => .ok (table.delete budgetId)

/-- `round(x, 2)`; what lies in the middle goes to the even neighbour. -/
def roundCents (x : ℚ) : ℚ :=
  let below := ⌊x * 100⌋
  let rest := x * 100 - below
  (if rest < 1 / 2 ∨ rest = 1 / 2 ∧ below % 2 = 0 then below else below + 1) / 100

/-- `list_budgets()`. -/
def listBudgets (limitOne : LimitOne) (table : BudgetTable) (ledger : List SpendEntry) (now : DateTime) :
    Except Raised (List BudgetOut) :=
  table.rows.mapM fun row => do
    let status ← checkScope limitOne table.rows ledger now row.scopeType row.scopeId
    return ⟨row.id, row.scopeType, row.scopeId, row.period, row.limitUsd, row.softPct, roundCents status.spentUsd,
      status.softExceeded, status.hardExceeded⟩

/-! ## The content of the table -/

/-- What validation promises of a row. -/
structure ValidRow (row : BudgetRow) : Prop where
  scopeType : row.scopeType ∈ validScopeTypes
  period : row.period ∈ validPeriods
  scopeId : row.scopeType = "global" ↔ row.scopeId = none

/-- The contents that the requests and the unique index admit. -/
structure Admitted (table : BudgetTable) : Prop where
  valid : ∀ row ∈ table.rows, ValidRow row
  unique : ∀ row ∈ table.rows, ∀ other ∈ table.rows, row.scopeId.isSome = true → sameKey other row = true →
    other.id = row.id

/-- A validated body makes a valid row. -/
theorem validRow_of_validate {body : BudgetIn} (h : validateBudget body = .ok ()) (id : ℕ) : ValidRow (body.row id) := by
  simp only [validateBudget] at h
  split at h
  · cases h
  · rename_i hscope
    split at h
    · cases h
    · rename_i hperiod
      split at h
      · cases h
      · rename_i hglobal
        split at h
        · cases h
        · rename_i hother
          refine ⟨not_not.mp hscope, not_not.mp hperiod, ?_⟩
          change body.scopeType = "global" ↔ body.scopeId = none
          constructor
          · intro heq
            by_contra hne
            exact hglobal ⟨heq, hne⟩
          · intro heq
            by_contra hne
            exact hother ⟨hne, heq⟩

/-- The same key, seen from the other row. -/
theorem sameKey_comm (row other : BudgetRow) : sameKey row other = sameKey other row := by
  simp only [sameKey, eq_comm]

/-- The empty table. -/
theorem admitted_empty : Admitted Table.empty := by
  have hrows : (Table.empty : BudgetTable).rows = [] := rfl
  exact ⟨fun row hrow => by simp [hrows] at hrow, fun row hrow => by simp [hrows] at hrow⟩

/-- A row that is stored where the index does not refuse it keeps the table admitted. -/
theorem admitted_of_stored {table table' : BudgetTable} {stored : BudgetRow} (h : Admitted table)
    (hvalid : ValidRow stored)
    (hrows : ∀ row, row ∈ table'.rows ↔ row = stored ∨ row ∈ table.rows ∧ row.id ≠ stored.id)
    (hrefused : stored.scopeId.isSome = true → ∀ other ∈ table.rows, other.id ≠ stored.id → ¬ sameKey other stored = true) :
    Admitted table' := by
  refine ⟨?_, ?_⟩
  · intro row hrow
    rcases (hrows row).mp hrow with rfl | ⟨hold, -⟩
    · exact hvalid
    · exact h.valid row hold
  · intro row hrow other hother hsome hsame
    rcases (hrows row).mp hrow with rfl | ⟨hold, hne⟩
    · rcases (hrows other).mp hother with rfl | ⟨hold', hne'⟩
      · rfl
      · exact absurd hsame (hrefused hsome other hold' hne')
    · rcases (hrows other).mp hother with rfl | ⟨hold', hne'⟩
      · have hid : row.scopeId = other.scopeId := by
          simp only [sameKey, Bool.and_eq_true, decide_eq_true_eq] at hsame
          exact hsame.1.2.symm
        rw [sameKey_comm] at hsame
        rw [hid] at hsome
        exact absurd hsame (hrefused hsome row hold hne)
      · exact h.unique row hold other hold' hsome hsame

/-- A created budget. -/
theorem admitted_createBudget {table table' : BudgetTable} {body : BudgetIn} (h : Admitted table)
    (hcreate : createBudget table body = .ok table') : Admitted table' := by
  obtain ⟨⟨⟩, hvalid, hcreate⟩ := bind_eq_ok.mp hcreate
  split at hcreate
  · rename_i hnone
    cases hcreate
    refine admitted_of_stored h (validRow_of_validate hvalid table.next) ?_ ?_
    · intro row
      rw [Table.mem_rows, Table.mem_rows]
      constructor
      · rintro ⟨id, hid⟩
        rw [Table.row_insert] at hid
        split at hid
        · cases hid
          exact .inl rfl
        · rename_i hne
          refine .inr ⟨⟨id, hid⟩, ?_⟩
          rw [table.keyed id row hid]
          exact hne
      · rintro (rfl | ⟨⟨id, hid⟩, hne⟩)
        · exact ⟨table.next, by rw [Table.row_insert, if_pos rfl]⟩
        · refine ⟨id, ?_⟩
          rw [Table.row_insert, if_neg, hid]
          rw [table.keyed id row hid] at hne
          exact hne
    · intro _ other hother _ hsame
      exact List.filter_eq_nil_iff.mp hnone other hother hsame
  · cases hcreate
  · cases hcreate

/-- An updated budget. -/
theorem admitted_updateBudget {table table' : BudgetTable} {budgetId : ℕ} {body : BudgetIn} (h : Admitted table)
    (hupdate : updateBudget table budgetId body = .ok table') : Admitted table' := by
  obtain ⟨⟨⟩, hvalid, hupdate⟩ := bind_eq_ok.mp hupdate
  split at hupdate
  · cases hupdate
  · rename_i old hold
    split at hupdate
    · cases hupdate
    · rename_i hrefused
      cases hupdate
      refine admitted_of_stored h (validRow_of_validate hvalid budgetId) ?_ ?_
      · intro row
        rw [Table.mem_rows, Table.mem_rows]
        constructor
        · rintro ⟨id, hid⟩
          rw [Table.row_update] at hid
          split at hid
          · rw [hold] at hid
            have hid' : old.id = budgetId := table.keyed budgetId old hold
            rw [Option.map_some, hid'] at hid
            cases hid
            exact .inl rfl
          · rename_i hne
            refine .inr ⟨⟨id, hid⟩, ?_⟩
            rw [table.keyed id row hid]
            exact hne
        · rintro (rfl | ⟨⟨id, hid⟩, hne⟩)
          · refine ⟨budgetId, ?_⟩
            rw [Table.row_update, if_pos rfl, hold, Option.map_some, table.keyed budgetId old hold]
          · refine ⟨id, ?_⟩
            rw [Table.row_update, if_neg, hid]
            rw [table.keyed id row hid] at hne
            exact hne
      · intro hsome other hother hne hsame
        apply hrefused
        rw [refused, Bool.and_eq_true]
        refine ⟨hsome, List.any_eq_true.mpr ⟨other, hother, ?_⟩⟩
        rw [hsame, Bool.and_true]
        exact decide_eq_true hne

/-- A deleted budget. -/
theorem admitted_deleteBudget {table table' : BudgetTable} {budgetId : ℕ} (h : Admitted table)
    (hdelete : deleteBudget table budgetId = .ok table') : Admitted table' := by
  rw [deleteBudget] at hdelete
  split at hdelete
  · cases hdelete
  · cases hdelete
    have hsub : ∀ row ∈ (table.delete budgetId).rows, row ∈ table.rows := by
      intro row hrow
      obtain ⟨id, hid⟩ := (Table.mem_rows _).mp hrow
      rw [Table.row_delete] at hid
      split at hid
      · cases hid
      · exact (Table.mem_rows _).mpr ⟨id, hid⟩
    exact ⟨fun row hrow => h.valid row (hsub row hrow),
      fun row hrow other hother => h.unique row (hsub row hrow) other (hsub other hother)⟩

/-- The tables that requests lead to. -/
inductive Administered : BudgetTable → Prop
  | empty : Administered Table.empty
  | create {table table' : BudgetTable} {body : BudgetIn} (h : Administered table)
      (hcreate : createBudget table body = .ok table') : Administered table'
  | update {table table' : BudgetTable} {budgetId : ℕ} {body : BudgetIn} (h : Administered table)
      (hupdate : updateBudget table budgetId body = .ok table') : Administered table'
  | delete {table table' : BudgetTable} {budgetId : ℕ} (h : Administered table)
      (hdelete : deleteBudget table budgetId = .ok table') : Administered table'

/-- Requests lead to admitted tables only. -/
theorem Administered.admitted {table : BudgetTable} (h : Administered table) : Admitted table := by
  induction h with
  | empty => exact admitted_empty
  | create _ hcreate ih => exact admitted_createBudget ih hcreate
  | update _ hupdate ih => exact admitted_updateBudget ih hupdate
  | delete _ hdelete ih => exact admitted_deleteBudget ih hdelete

/-! ## Enforcement -/

/-- The spend of a budget in its own period. -/
def spentOf (ledger : List SpendEntry) (now : DateTime) (row : BudgetRow) : ℚ :=
  spentSince ledger (periodStart row.period now) row.scopeType row.scopeId

/-- A budget is used up. -/
def UsedUp (ledger : List SpendEntry) (now : DateTime) (row : BudgetRow) : Prop := row.limitUsd ≤ spentOf ledger now row

instance (ledger : List SpendEntry) (now : DateTime) (row : BudgetRow) : Decidable (UsedUp ledger now row) :=
  inferInstanceAs (Decidable (_ ≤ _))

/-- A budget is to be shown with the spend of its own period and the flags of its own limit. -/
def shown (ledger : List SpendEntry) (now : DateTime) (row : BudgetRow) : BudgetOut where
  id := row.id
  scopeType := row.scopeType
  scopeId := row.scopeId
  period := row.period
  limitUsd := row.limitUsd
  softPct := row.softPct
  spentUsd := roundCents (spentOf ledger now row)
  softExceeded := row.limitUsd * (row.softPct / 100) ≤ spentOf ledger now row
  hardExceeded := UsedUp ledger now row

/-- Every budget counts: a call is stopped exactly when a budget of one of its scopes is used up, and each budget is
shown as it is. -/
structure Enforced (table : BudgetTable) : Prop where
  stops : ∀ limitOne ledger now texts callMeta, ∃ status,
    dbBudgetChecker limitOne table.rows ledger now texts callMeta = .ok status ∧
      ((∃ error, status.raiseIfExceeded = .error error) ↔ ∃ scope ∈ callScopes texts callMeta,
        ∃ row ∈ table.rows, (row.scopeType, row.scopeId) = scope ∧ UsedUp ledger now row)
  lists : ∀ limitOne ledger now,
    listBudgets limitOne table ledger now = .ok (table.rows.map (shown ledger now))

/-- Two budgets that no ledger tells apart. -/
structure Alike (row other : BudgetRow) : Prop where
  period : row.period = "daily" ↔ other.period = "daily"
  limitUsd : row.limitUsd = other.limitUsd
  soft : row.limitUsd * (row.softPct / 100) = other.limitUsd * (other.softPct / 100)

/-- The budgets of one scope are alike. -/
def OneBudgetEach (table : BudgetTable) : Prop :=
  ∀ row ∈ table.rows, ∀ other ∈ table.rows, row.scopeType = other.scopeType → row.scopeId = other.scopeId →
    Alike row other

section Enforcement

variable {table : BudgetTable} (limitOne : LimitOne) (ledger : List SpendEntry) (now : DateTime)

/-- The rows of a scope. -/
theorem mem_matching {rows : List BudgetRow} {scopeType : String} {scopeId : Option String} {row : BudgetRow} :
    row ∈ matching rows scopeType scopeId ↔ row ∈ rows ∧ row.scopeType = scopeType ∧ row.scopeId = scopeId := by
  simp [matching]

/-- A scope without budgets is never exceeded. -/
theorem checkScope_of_none {rows : List BudgetRow} {scopeType : String} {scopeId : Option String}
    (hnone : ∀ row ∈ rows, ¬ (row.scopeType = scopeType ∧ row.scopeId = scopeId)) :
    ∃ status, checkScope limitOne rows ledger now scopeType scopeId = .ok status ∧ status.hardExceeded = false := by
  have hrows : matching rows scopeType scopeId = [] := by
    rw [List.eq_nil_iff_forall_not_mem]
    intro row hrow
    obtain ⟨hmem, hscope⟩ := mem_matching.mp hrow
    exact hnone row hmem hscope
  cases hpick : limitOne.pick (matching rows scopeType scopeId) with
  | none =>
    refine ⟨evaluateBudget 0 none 80 (scopeLabel scopeType scopeId), ?_, rfl⟩
    rw [checkScope, hpick]
  | some row =>
    have hmem := limitOne.pick_mem _ _ hpick
    rw [hrows] at hmem
    cases hmem

/-- The status of a scope is that of one of its budgets. -/
theorem checkScope_of_some {rows : List BudgetRow} {row : BudgetRow} (hvalid : ∀ row ∈ rows, ValidRow row)
    (hrow : row ∈ rows) :
    ∃ picked ∈ rows, ∃ label, picked.scopeType = row.scopeType ∧ picked.scopeId = row.scopeId ∧
      limitOne.pick (matching rows row.scopeType row.scopeId) = some picked ∧
      checkScope limitOne rows ledger now row.scopeType row.scopeId =
        .ok (evaluateBudget (spentOf ledger now picked) (some picked.limitUsd) picked.softPct label) := by
  cases hpick : limitOne.pick (matching rows row.scopeType row.scopeId) with
  | none =>
    have hnil := limitOne.pick_nil _ hpick
    have hmem := mem_matching.mpr ⟨hrow, rfl, rfl⟩
    rw [hnil] at hmem
    cases hmem
  | some picked =>
    obtain ⟨hmem, htype, hid⟩ := mem_matching.mp (limitOne.pick_mem _ _ hpick)
    refine ⟨picked, hmem, scopeLabel row.scopeType row.scopeId, htype, hid, rfl, ?_⟩
    rw [checkScope, hpick]
    dsimp only
    rw [if_pos (hvalid row hrow).scopeType, spentOf, htype, hid]

/-- Budgets that are alike have the same spend. -/
theorem Alike.spentOf_eq {row other : BudgetRow} (h : Alike row other) (htype : row.scopeType = other.scopeType)
    (hid : row.scopeId = other.scopeId) : spentOf ledger now row = spentOf ledger now other := by
  have hstart : periodStart row.period now = periodStart other.period now := by
    simp only [periodStart, h.period]
  rw [spentOf, spentOf, hstart, htype, hid]

/-- Where the budgets of a scope are alike, each is shown as it is. -/
theorem lists_of_alike (hvalid : ∀ row ∈ table.rows, ValidRow row) (h : OneBudgetEach table) :
    listBudgets limitOne table ledger now = .ok (table.rows.map (shown ledger now)) := by
  rw [listBudgets, mapM_eq_map_iff]
  intro row hrow
  obtain ⟨picked, hmem, label, htype, hid, -, hcheck⟩ :=
    checkScope_of_some limitOne ledger now hvalid hrow
  have halike := h picked hmem row hrow htype hid
  have hsoft := halike.soft
  rw [halike.limitUsd] at hsoft
  rw [hcheck, halike.spentOf_eq ledger now htype hid, halike.limitUsd]
  simp only [evaluateBudget, hsoft]
  rfl

/-- Where the budgets of a scope are alike, its status is hard exactly when one of them is used up. -/
theorem hard_of_alike (hvalid : ∀ row ∈ table.rows, ValidRow row) (h : OneBudgetEach table) (scopeType : String)
    (scopeId : Option String) :
    ∃ status, checkScope limitOne table.rows ledger now scopeType scopeId = .ok status ∧
      (status.hardExceeded = true ↔
        ∃ row ∈ table.rows, (row.scopeType, row.scopeId) = (scopeType, scopeId) ∧ UsedUp ledger now row) := by
  by_cases hany : ∃ row ∈ table.rows, row.scopeType = scopeType ∧ row.scopeId = scopeId
  · obtain ⟨row, hrow, rfl, rfl⟩ := hany
    obtain ⟨picked, hmem, label, htype, hid, -, hcheck⟩ :=
      checkScope_of_some limitOne ledger now hvalid hrow
    refine ⟨_, hcheck, ?_⟩
    simp only [evaluateBudget, decide_eq_true_eq]
    constructor
    · intro hused
      exact ⟨picked, hmem, by rw [htype, hid], hused⟩
    · rintro ⟨other, hother, hscope, hused⟩
      rw [Prod.mk.injEq] at hscope
      have halike := h picked hmem other hother (htype.trans hscope.1.symm) (hid.trans hscope.2.symm)
      rw [halike.limitUsd, halike.spentOf_eq ledger now (htype.trans hscope.1.symm) (hid.trans hscope.2.symm)]
      exact hused
  · obtain ⟨status, hcheck, hsoft⟩ := checkScope_of_none limitOne ledger now
      fun row hrow hscope => hany ⟨row, hrow, hscope⟩
    refine ⟨status, hcheck, ?_⟩
    rw [hsoft]
    constructor
    · intro hnever
      cases hnever
    · rintro ⟨row, hrow, hscope, -⟩
      rw [Prod.mk.injEq] at hscope
      exact absurd ⟨row, hrow, hscope⟩ hany

/-- Where the budgets of each scope are alike, a call is stopped exactly when one of its budgets is used up. -/
theorem stops_of_alike (hvalid : ∀ row ∈ table.rows, ValidRow row) (h : OneBudgetEach table) (texts : GatewayTexts)
    (callMeta : Dict) : ∃ status, dbBudgetChecker limitOne table.rows ledger now texts callMeta = .ok status ∧
      ((∃ error, status.raiseIfExceeded = .error error) ↔ ∃ scope ∈ callScopes texts callMeta,
        ∃ row ∈ table.rows, (row.scopeType, row.scopeId) = scope ∧ UsedUp ledger now row) := by
  have hscope : ∀ scope ∈ callScopes texts callMeta,
      ∃ status, checkScope limitOne table.rows ledger now scope.1 scope.2 = .ok status := by
    intro scope _
    obtain ⟨status, hcheck, -⟩ := hard_of_alike limitOne ledger now hvalid h
      scope.1 scope.2
    exact ⟨status, hcheck⟩
  obtain ⟨statuses, hstatuses⟩ := mapM_ok _ _ hscope
  have hne : statuses ≠ [] := by
    rintro rfl
    have hlength := (forall₂_of_mapM hstatuses).length_eq
    cases hlength
  obtain ⟨status, hmost, hconstrains⟩ := mostConstrained_constrains hne
  refine ⟨status, ?_, ?_⟩
  · rw [dbBudgetChecker, hstatuses]
    simp only [bind, Except.bind, hmost]
    rfl
  · rw [raises_iff, hconstrains.hard]
    constructor
    · rintro ⟨other, hother, hexceeded⟩
      obtain ⟨scope, hmem, hcheck⟩ := of_mem_mapM hstatuses hother
      obtain ⟨status', hcheck', hiff⟩ := hard_of_alike limitOne ledger now hvalid h
        scope.1 scope.2
      rw [hcheck] at hcheck'
      cases hcheck'
      exact ⟨scope, hmem, hiff.mp hexceeded⟩
    · rintro ⟨scope, hmem, hused⟩
      obtain ⟨other, hother, hcheck⟩ := mem_mapM hstatuses hmem
      obtain ⟨status', hcheck', hiff⟩ := hard_of_alike limitOne ledger now hvalid h
        scope.1 scope.2
      rw [hcheck] at hcheck'
      cases hcheck'
      exact ⟨other, hother, hiff.mpr hused⟩

end Enforcement

/-! ## Telling budgets apart -/

/-- A database that prefers one row. -/
def preferring (row : BudgetRow) : LimitOne where
  pick rows := if row ∈ rows then some row else rows.head?
  pick_mem rows picked h := by
    split at h
    · rename_i hmem
      exact Option.some.inj h ▸ hmem
    · exact List.mem_of_head? h
  pick_nil rows h := by
    split at h
    · cases h
    · exact List.head?_eq_none_iff.mp h

/-- A ledger with one entry, which is of the scope of a row. -/
def oneEntry (row : BudgetRow) (ts : DateTime) (cost : ℚ) : List SpendEntry :=
  [⟨ts, cost, row.scopeId, row.scopeId, row.scopeId⟩]

/-- The entry is of the scope of a valid row. -/
theorem ofScope_oneEntry {row : BudgetRow} (hvalid : ValidRow row) (ts : DateTime) (cost : ℚ) :
    ofScope row.scopeType row.scopeId ⟨ts, cost, row.scopeId, row.scopeId, row.scopeId⟩ = true := by
  have hsome : ¬ row.scopeType = "global" → row.scopeId.isSome = true := fun hglobal =>
    Option.isSome_iff_ne_none.mpr fun hnone => hglobal (hvalid.scopeId.mpr hnone)
  have htype := hvalid.scopeType
  simp only [validScopeTypes, List.mem_cons, List.not_mem_nil, or_false] at htype
  rcases htype with htype | htype | htype | htype
  · simp [ofScope, scopeColumn, htype]
  · simp [ofScope, scopeColumn, htype, hsome]
  · simp [ofScope, scopeColumn, htype, hsome]
  · simp [ofScope, scopeColumn, htype, hsome]

/-- The spend of a budget in such a ledger. -/
theorem spentOf_oneEntry {row : BudgetRow} (hvalid : ValidRow row) (ts now : DateTime) (cost : ℚ) :
    spentOf (oneEntry row ts cost) now row = if (periodStart row.period now).le ts = true then cost else 0 := by
  rw [spentOf, spentSince, oneEntry, List.filter_cons, ofScope_oneEntry hvalid]
  split <;> simp_all

/-- A budget that is shown by another one of its scope. -/
theorem shown_of_enforced {table : BudgetTable} (h : Enforced table) (hvalid : ∀ row ∈ table.rows, ValidRow row)
    {row other : BudgetRow} (hrow : row ∈ table.rows) (hother : other ∈ table.rows)
    (htype : row.scopeType = other.scopeType) (hid : row.scopeId = other.scopeId) (ledger : List SpendEntry)
    (now : DateTime) :
    roundCents (spentOf ledger now other) = roundCents (spentOf ledger now row) ∧
      (other.limitUsd * (other.softPct / 100) ≤ spentOf ledger now other ↔
        row.limitUsd * (row.softPct / 100) ≤ spentOf ledger now row) ∧
      (other.limitUsd ≤ spentOf ledger now other ↔ row.limitUsd ≤ spentOf ledger now row) := by
  obtain ⟨picked, -, label, -, -, hpick, hcheck⟩ :=
    checkScope_of_some (preferring other) ledger now hvalid hrow
  have hpicked : picked = other := by
    have hmem : other ∈ matching table.rows row.scopeType row.scopeId :=
      mem_matching.mpr ⟨hother, htype.symm, hid.symm⟩
    simp only [preferring, if_pos hmem, Option.some.injEq] at hpick
    exact hpick.symm
  rw [hpicked] at hcheck
  have hlists := h.lists (preferring other) ledger now
  rw [listBudgets, mapM_eq_map_iff] at hlists
  have hout := hlists row hrow
  rw [hcheck] at hout
  have hout' := Except.ok.inj hout
  have hspent := congrArg BudgetOut.spentUsd hout'
  have hsoft := congrArg BudgetOut.softExceeded hout'
  have hhard := congrArg BudgetOut.hardExceeded hout'
  exact ⟨hspent, decide_eq_decide.mp hsoft, decide_eq_decide.mp hhard⟩

/-- A day in the middle of a month. -/
def midMonth : DateTime := ⟨2026, 7, 15, 0⟩

/-- Every period that holds at some time has begun by then. -/
theorem periodStart_midMonth (period : String) : (periodStart period midMonth).le midMonth = true := by
  rw [periodStart]
  split <;> rfl

/-- Whether the month's first day is in the current period. -/
theorem periodStart_firstDay (period : String) :
    (periodStart period midMonth).le ⟨2026, 7, 1, 0⟩ = true ↔ ¬ period = "daily" := by
  rw [periodStart]
  split
  · rename_i hdaily
    exact iff_of_false (by decide) (not_not.mpr hdaily)
  · rename_i hother
    exact iff_of_true (by decide) hother

/-- The ledger of an entry depends on the scope of its row only. -/
theorem oneEntry_eq {row other : BudgetRow} (hid : row.scopeId = other.scopeId) (ts : DateTime) (cost : ℚ) :
    oneEntry other ts cost = oneEntry row ts cost := by
  rw [oneEntry, oneEntry, hid]

/-- Thresholds that the same amounts reach are the same. -/
theorem eq_of_reached {x y : ℚ} (h : ∀ cost, x ≤ cost ↔ y ≤ cost) : x = y :=
  le_antisymm ((h y).mpr le_rfl) ((h x).mp le_rfl)

/-- Rounding keeps whole amounts apart. -/
theorem roundCents_one_ne : roundCents 1 ≠ roundCents 0 := by
  have hone : ⌊(1 : ℚ) * 100⌋ = 100 := by norm_num
  have hzero : ⌊(0 : ℚ) * 100⌋ = 0 := by norm_num
  simp only [roundCents, hone, hzero]
  norm_num

/-- Where every budget counts, those of one scope are alike. -/
theorem oneBudgetEach_of_enforced {table : BudgetTable} (h : Enforced table)
    (hvalid : ∀ row ∈ table.rows, ValidRow row) : OneBudgetEach table := by
  intro row hrow other hother htype hid
  have hnow (cost : ℚ) := shown_of_enforced h hvalid hrow hother htype hid (oneEntry row midMonth cost) midMonth
  have hspent (cost : ℚ) : spentOf (oneEntry row midMonth cost) midMonth row = cost := by
    rw [spentOf_oneEntry (hvalid row hrow), if_pos (periodStart_midMonth row.period)]
  have hspent' (cost : ℚ) : spentOf (oneEntry row midMonth cost) midMonth other = cost := by
    rw [← oneEntry_eq hid, spentOf_oneEntry (hvalid other hother), if_pos (periodStart_midMonth other.period)]
  simp only [hspent, hspent'] at hnow
  refine ⟨?_, (eq_of_reached fun cost => (hnow cost).2.2).symm, (eq_of_reached fun cost => (hnow cost).2.1).symm⟩
  have hfirst := (shown_of_enforced h hvalid hrow hother htype hid (oneEntry row ⟨2026, 7, 1, 0⟩ 1) midMonth).1
  rw [spentOf_oneEntry (hvalid row hrow), ← oneEntry_eq hid, spentOf_oneEntry (hvalid other hother)] at hfirst
  simp only [periodStart_firstDay] at hfirst
  by_cases hdaily : row.period = "daily"
  · by_cases hdaily' : other.period = "daily"
    · exact iff_of_true hdaily hdaily'
    · rw [if_pos hdaily', if_neg (not_not.mpr hdaily)] at hfirst
      exact absurd hfirst roundCents_one_ne
  · by_cases hdaily' : other.period = "daily"
    · rw [if_neg (not_not.mpr hdaily'), if_pos hdaily] at hfirst
      exact absurd hfirst.symm roundCents_one_ne
    · exact iff_of_false hdaily hdaily'

/-- A monthly budget of a user. -/
def monthlyBudget : BudgetIn := ⟨"user", some "u1", "monthly", 100, 80, by norm_num, by decide, by decide⟩

/-- A daily budget of the same user. -/
def dailyBudget : BudgetIn := ⟨"user", some "u1", "daily", 10, 80, by norm_num, by decide, by decide⟩

/-- The table with the monthly budget. -/
def oneBudget : BudgetTable := Table.insert Table.empty (monthlyBudget.row 0) (monthlyBudget.row_id 0)

/-- The table with both. -/
def twoBudgets : BudgetTable := Table.insert oneBudget (dailyBudget.row 1) (dailyBudget.row_id 1)

/-- The monthly budget is created. -/
theorem administered_oneBudget : Administered oneBudget := by
  have hcreate : createBudget Table.empty monthlyBudget = .ok oneBudget := rfl
  exact Administered.empty.create hcreate

/-- The daily budget is created beside it. -/
theorem administered_twoBudgets : Administered twoBudgets := by
  have hcreate : createBudget oneBudget dailyBudget = .ok twoBudgets := rfl
  exact administered_oneBudget.create hcreate

end FleetWorkflow.Api
