import FleetWorkflow.Async.Runs
import FleetWorkflow.Mcp.PgReadOnly
import FleetWorkflow.Mcp.PoLookup
import FleetWorkflow.Sql.LocalNames

/-!
# Legitimate reads

The allowlist is checked against the name of every table node, whatever the name refers to. A query of base relations
that are all listed is refused all the same when it refers to a query of a `WITH` clause by a name that is not listed,
or has a function in the place of a table. Nothing else stands in its way but a root that is no plain `SELECT`.
-/

namespace FleetWorkflow.Mcp

open Python Async Core Sql

variable {tool : PgReadOnlyTool} {py : Builtins} {glot : Sqlglot} {sql : String} {parsed : Tree}

/-- A query goes on to the runner, and whatever rows the runner returns are its result. -/
def PgReadOnlyTool.PassesOn (tool : PgReadOnlyTool) (py : Builtins) (glot : Sqlglot) (sql : String) (parsed : Tree) :
    Prop :=
  ∀ rows, (tool.query py glot sql).Runs
    [⟨.run (glot.sql (clampLimit parsed tool.rowLimit)) tool.timeoutSeconds, .ok rows⟩] (.ok rows)

/-- A function stands in the place of a table. -/
def ReadsFunction (parsed : Tree) : Prop := ∃ found ∈ parsed.nodes, found.cls = .table ∧ found.relation? = none

/-- One statement is admitted by its root exactly when it is a `SELECT`. -/
theorem onlySelect_eq_ok {statement : Tree} : onlySelect [some statement] = .ok parsed ↔
    statement.cls = .select ∧ statement = parsed := by
  rw [onlySelect]
  by_cases hselect : statement.cls = .select
  · rw [if_neg (by simp [hselect, blockedStatementTypes])]
    simp [hselect]
  · rw [if_pos (Or.inr hselect)]
    simp [hselect]

/-- A statement goes on to the runner exactly when its root is a `SELECT` and no table of it is refused. -/
theorem passesOn_iff (hparse : glot.parse sql = .ok [some parsed]) :
    tool.PassesOn py glot sql parsed ↔ parsed.cls = .select ∧ tool.disallowed parsed = [] := by
  have hquery : tool.query py glot sql = (Prog.ofExcept (onlySelect [some parsed]) >>= fun parsed =>
      if tool.disallowed parsed = [] then
        awaitRunner (.run (glot.sql (clampLimit parsed tool.rowLimit)) tool.timeoutSeconds)
      else do
        PgReadOnlyTool.logRefusals sql (tool.disallowed parsed)
        let sorted := ((tool.disallowed parsed).insertionSort (· ≤ ·)).map Json.str
        .raise ⟨.governedToolRefusal, "non-allowlisted table(s): " ++ py.repr (.arr sorted)⟩) := by
    rw [PgReadOnlyTool.query, hparse]
    rfl
  rw [PgReadOnlyTool.PassesOn, hquery]
  by_cases hselect : parsed.cls = .select
  · rw [onlySelect_eq_ok.mpr ⟨hselect, rfl⟩]
    show (∀ rows, Prog.Runs (if tool.disallowed parsed = [] then _ else _) _ _) ↔ _
    by_cases hnone : tool.disallowed parsed = []
    · rw [if_pos hnone]
      exact iff_of_true (fun rows => .await (.done rows)) ⟨hselect, hnone⟩
    · rw [if_neg hnone]
      obtain ⟨table, rest, hrefused⟩ := List.exists_cons_of_ne_nil hnone
      rw [hrefused]
      refine iff_of_false (fun hruns => ?_) (by simp)
      obtain ⟨reply, events, hevents, -⟩ := Prog.runs_await.mp (hruns [])
      cases hevents
  · refine iff_of_false (fun hruns => ?_) (fun h => hselect h.1)
    cases hroot : onlySelect [some parsed] with
    | ok statement => exact hselect (onlySelect_eq_ok.mp hroot).1
    | error error =>
      rw [hroot] at hruns
      cases hruns []

/-- No table is refused exactly when every table node has a listed name. -/
theorem disallowed_eq_nil : tool.disallowed parsed = [] ↔
    ∀ found ∈ parsed.nodes, found.cls = .table → tableName found ∈ tool.allowlistedTables := by
  simp only [PgReadOnlyTool.disallowed, referencedTables, List.filter_eq_nil_iff, List.mem_dedup, List.mem_map,
    List.mem_filter, decide_eq_true_eq, not_not]
  constructor
  · intro h found hfound hcls
    exact h _ ⟨found, ⟨hfound, hcls⟩, rfl⟩
  · intro h name hname
    obtain ⟨found, ⟨hfound, hcls⟩, rfl⟩ := hname
    exact h found hfound hcls

/-- Of a statement that reads listed tables only, no table is refused exactly when the queries in scope that it refers
to have listed names, and a function stands in the place of a table only if the empty name is listed. -/
theorem disallowed_eq_nil_iff {session : Session} (h : ReadsAllowlisted session tool.allowlistedTables parsed) :
    tool.disallowed parsed = [] ↔ (∀ name ∈ parsed.localReferences [], name ∈ tool.allowlistedTables) ∧
      (ReadsFunction parsed → "" ∈ tool.allowlistedTables) := by
  rw [disallowed_eq_nil]
  constructor
  · intro hlisted
    constructor
    · intro name hname
      obtain ⟨found, hfound, relation, hwritten, rfl⟩ := Tree.relation_of_mem_localReferences parsed [] hname
      have htable := hlisted found hfound (cls_of_relation? hwritten)
      rwa [tableName, hwritten] at htable
    · intro hfunction
      obtain ⟨found, hfound, hcls, hnone⟩ := hfunction
      have htable := hlisted found hfound hcls
      rwa [tableName, hnone] at htable
  · intro hlisted found hfound hcls
    rw [tableName]
    cases hwritten : found.relation? with
    | none => exact hlisted.2 ⟨found, hfound, hcls, hwritten⟩
    | some relation =>
      rcases Tree.relation_or_reference hwritten parsed [] hfound with hbase | hlocal
      · exact (resolve_mem_iff.mp (h.2 relation hbase)).2
      · exact hlisted.1 _ hlocal

/-- `SELECT * FROM fixture_sales` reads a listed table. -/
theorem selectAll_readsAllowlisted :
    ReadsAllowlisted ⟨"fleet", "public"⟩ fixtureTool.allowlistedTables (selectAll "fixture_sales") := by
  constructor
  · decide
  · decide

/-- It has no function in the place of a table. -/
theorem selectAll_readsFunction : ¬ ReadsFunction (selectAll "fixture_sales") := by
  intro hfunction
  obtain ⟨found, hfound, hcls, hnone⟩ := hfunction
  simp [selectAll, tableNode, Tree.nodes, Tree.nodesOf] at hfound
  rcases hfound with rfl | rfl | rfl | rfl | rfl
  · cases hcls
  · cases hcls
  · cases hcls
  · exact absurd hnone (by decide)
  · cases hcls

/-- The library on the plain read. -/
def salesGlot : Sqlglot :=
  { glotOf (selectAll "fixture_sales") with sql := fun _ => "SELECT * FROM fixture_sales LIMIT 1000" }

/-- `WITH recent AS (SELECT * FROM fixture_sales) SELECT * FROM recent`. -/
def recentSelect : Tree :=
  .node .select [] [("with", .node .withClause [] [("expressions", .node .cte []
      [("this", selectAll "fixture_sales"),
        ("alias", .node .tableAlias [] [("this", .node .identifier [("this", "recent")] [])])])]),
    ("expressions", .node (.other "Star") [] []), ("from", .node (.other "From") [] [("this", tableNode "recent")])]

end FleetWorkflow.Mcp
