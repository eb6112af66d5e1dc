import Mathlib.Data.List.Dedup
import Mathlib.Data.List.Sort
import Mathlib.Data.Rat.Defs
import FleetWorkflow.Async.Prog
import FleetWorkflow.Core.PiiScrub
import FleetWorkflow.Python.Value
import FleetWorkflow.Sql.Tree

/-!
# The governed query tool

One `SELECT` over an allowlist of tables, with a limit on its rows. The class of the root and the
names of all table nodes are checked before the query goes on to the runner. How a text is parsed
and how a tree is printed are parameters.
-/

namespace FleetWorkflow.Mcp

open Python Async Core Sql

/-- The parser and the printer of the SQL library for one dialect. -/
structure Sqlglot where
  parse : String → Except Exc (List (Option Tree))
  sql : Tree → String

/-- What the tool waits for: its log of refusals and the runner. -/
inductive RunnerCall where
  | logRefusal (table sql : String)
  | run (sql : String) (timeout : ℚ)

/-- What each call returns. -/
@[reducible] def RunnerCall.Reply : RunnerCall → Type
  | logRefusal _ _ => Unit
  | run _ _ => List Json

/-- A coroutine of the tool. -/
abbrev Querying := Prog RunnerCall RunnerCall.Reply Exc

/-- Await one call. -/
abbrev awaitRunner (c : RunnerCall) : Querying c.Reply := Prog.call c

/-- `PgReadOnlyTool`. -/
structure PgReadOnlyTool where
  allowlistedTables : List String
  rowLimit : ℕ := 1000
  timeoutSeconds : ℚ := 15

/-- `_BLOCKED_STATEMENT_TYPES`. -/
def blockedStatementTypes : List NodeClass := [.delete, .update, .insert, .drop, .truncateTable, .alter, .create]

/-- `type(node).__name__`. -/
def className : NodeClass → String
  | .select => "Select"
  | .insert => "Insert"
  | .update => "Update"
  | .delete => "Delete"
  | .drop => "Drop"
  | .truncateTable => "TruncateTable"
  | .alter => "Alter"
  | .create => "Create"
  | .into => "Into"
  | .table => "Table"
  | .identifier => "Identifier"
  | .literal => "Literal"
  | .null => "Null"
  | .withClause => "With"
  | .cte => "CTE"
  | .tableAlias => "TableAlias"
  | .limit => "Limit"
  | .fetch => "Fetch"
  | .limitOptions => "LimitOptions"
  | .other name => name

/-- `UnsafeSqlError(message)`. -/
def unsafeSqlError (message : String) : Exc := ⟨.governedToolRefusal, message⟩

/-- The one statement of a text, if it is a plain read by its root. -/
def onlySelect : List (Option Tree) → Except Exc Tree
  | [some parsed] =>
    if parsed.cls ∈ blockedStatementTypes ∨ parsed.cls ≠ .select then
      .error (unsafeSqlError ("statement type not allowed: " ++ className parsed.cls))
    else .ok parsed
  | _ => .error (unsafeSqlError "exactly one SELECT statement is required")

/-- The name of a table node; a function in the place of a table has none. -/
def tableName (tree : Tree) : String :=
  match tree.relation? with
  | some relation => relation.name
  | none => ""

/-- `_referenced_tables(parsed)`. -/
def referencedTables (parsed : Tree) : List String :=
  ((parsed.nodes.filter fun found => found.cls = .table).map tableName).dedup

/-- The digits of a numeral, with single underscores between them. -/
def numeralDigits : Bool → List Char → Option (List Char)
  | afterDigit, [] => if afterDigit then some [] else none
  | afterDigit, c :: rest =>
    if isDecimal c then (numeralDigits true rest).map (c :: ·)
    else if c = '_' && afterDigit then numeralDigits false rest
    else none

/-- A sign and what follows it. -/
def splitSign : List Char → Bool × List Char
  | '-' :: rest => (true, rest)
  | '+' :: rest => (false, rest)
  | cs => (false, cs)

/-- `int(text)`, without an answer where it raises. -/
def intOfText (text : String) : Option ℤ :=
  let (negative, body) := splitSign (stripChars text.toList)
  match numeralDigits false body with
  | none => none
  | some digits =>
    if Json.maxIntDigits < digits.length then none
    else
      let value : ℤ := (digits.foldl (fun n c => n * 10 + decimalValue c) 0 : ℕ)
      some (if negative then -value else value)

/-- The number that a limit clause is written with, where `int(existing.expression.this)` returns one. -/
def writtenLimit (clause : Tree) : Option ℤ :=
  ((clause.child? "expression").bind fun expression => expression.text? "this").bind intOfText

/-- `exp.Limit(expression=exp.Literal.number(n))`. -/
def limitOf (n : ℕ) : Tree :=
  .node .limit [] [("expression", .node .literal [("this", Nat.repr n), ("is_string", "False")] [])]

/-- `_clamp_limit(parsed, row_limit)`. -/
def clampLimit (parsed : Tree) (rowLimit : ℕ) : Tree :=
  match parsed.child? "limit" with
  | none => parsed.setChild "limit" (limitOf rowLimit)
  | some existing =>
    if rowLimit < (writtenLimit existing).getD rowLimit then parsed.setChild "limit" (limitOf rowLimit)
    else parsed

namespace PgReadOnlyTool

variable (tool : PgReadOnlyTool) (py : Builtins) (glot : Sqlglot)

/-- The referenced tables that are not on the allowlist. -/
def disallowed (parsed : Tree) : List String :=
  (referencedTables parsed).filter fun table => table ∉ tool.allowlistedTables

/-- Log the refused tables. -/
def logRefusals (sql : String) : List String → Querying Unit
  | [] => return ()
  | table :: rest => do
    awaitRunner (.logRefusal table sql)
    logRefusals sql rest

/-- `query(sql)`. -/
def query (sql : String) : Querying (List Json) := do
  let parsed ← Prog.ofExcept (glot.parse sql >>= onlySelect)
  let refused := tool.disallowed parsed
  if refused = [] then awaitRunner (.run (glot.sql (clampLimit parsed tool.rowLimit)) tool.timeoutSeconds)
  else
    logRefusals sql refused
    let sorted := (refused.insertionSort (· ≤ ·)).map Json.str
    .raise ⟨.governedToolRefusal, "non-allowlisted table(s): " ++ py.repr (.arr sorted)⟩

/-- A text is admitted as a parsed statement. -/
def Admits (sql : String) (parsed : Tree) : Prop :=
  (glot.parse sql >>= onlySelect) = .ok parsed ∧ tool.disallowed parsed = []

/-- The tree that is forwarded for a text. -/
def Forwards (sql : String) (forwarded : Tree) : Prop :=
  ∃ parsed, tool.Admits glot sql parsed ∧ forwarded = clampLimit parsed tool.rowLimit

variable {tool py glot}

/-- Refusals are only logged. -/
theorem only_logRefusals (sql : String) (tables : List String) {calls : RunnerCall → Prop}
    (h : ∀ table, calls (.logRefusal table sql)) : (logRefusals sql tables).Only calls := by
  induction tables with
  | nil => exact Prog.only_pure _
  | cons table rest ih => exact (Prog.only_call (h table)).bind fun _ => ih

/-- What reaches the runner is the text of a forwarded tree. -/
theorem only_query (sql : String) : (tool.query py glot sql).Only fun c =>
    match c with
    | .logRefusal _ _ => True
    | .run text _ => ∃ forwarded, tool.Forwards glot sql forwarded ∧ text = glot.sql forwarded := by
  rw [query]
  cases hparsed : glot.parse sql >>= onlySelect with
  | error error => trivial
  | ok parsed =>
    show Prog.Only _ (if tool.disallowed parsed = [] then _ else _)
    split
    · rename_i hrefused
      exact Prog.only_call ⟨_, ⟨parsed, ⟨hparsed, hrefused⟩, rfl⟩, rfl⟩
    · exact (only_logRefusals sql _ fun _ => trivial).bind fun _ => trivial

end PgReadOnlyTool

/-! ## Allowlisted reads -/

/-- The classes of nodes that write to tables or change what tables there are. -/
def writingClasses : List NodeClass :=
  [.insert, .update, .delete, .drop, .truncateTable, .alter, .create, .into]

/-- The database of a connection, and the schema of names without one. -/
structure Session where
  database : String
  schema : String

/-- A relation with its qualifiers filled in. -/
def Session.resolve (session : Session) (relation : Relation) : String × String × String :=
  (relation.catalog.getD session.database, relation.schema.getD session.schema, relation.name)

/-- A query writes nothing, and reads tables of an allowlist only. -/
def ReadsAllowlisted (session : Session) (allowlist : List String) (tree : Tree) : Prop :=
  (∀ found ∈ tree.nodes, found.cls ∉ writingClasses) ∧ ∀ relation ∈ tree.baseRelations [],
    session.resolve relation ∈ allowlist.map fun name => (session.database, session.schema, name)

/-- A relation is qualified by nothing, or by the database and the schema that it would have anyway. -/
def Session.IsHome (session : Session) (relation : Relation) : Prop :=
  relation.catalog.getD session.database = session.database ∧ relation.schema.getD session.schema = session.schema

/-- A query has no writing node below its root, and no table node with a foreign qualifier. -/
def PlainRead (session : Session) (tree : Tree) : Prop :=
  (∀ found ∈ tree.nodes, found.cls ∉ writingClasses) ∧
    ∀ found ∈ tree.nodes, ∀ relation, found.relation? = some relation → session.IsHome relation

variable {tool : PgReadOnlyTool} {glot : Sqlglot} {session : Session} {sql : String}

/-- A table node writes a table's name. -/
theorem cls_of_relation? {tree : Tree} {relation : Relation} (h : tree.relation? = some relation) :
    tree.cls = .table := by
  rw [Tree.relation?] at h
  split at h
  · assumption
  · cases h

/-- The names of table nodes are referenced tables. -/
theorem mem_referencedTables {parsed found : Tree} {relation : Relation} (hfound : found ∈ parsed.nodes)
    (hrelation : found.relation? = some relation) : relation.name ∈ referencedTables parsed := by
  rw [referencedTables, List.mem_dedup, List.mem_map]
  refine ⟨found, ?_, ?_⟩
  · simpa [cls_of_relation? hrelation] using hfound
  · simp [tableName, hrelation]

/-- A limit clause that is put in has no table node. -/
theorem relation?_limitOf {n : ℕ} {found : Tree} (h : found ∈ (limitOf n).nodes) : found.relation? = none := by
  simp only [limitOf, Tree.nodes, Tree.nodesOf, List.append_nil, List.mem_cons, List.not_mem_nil, or_false] at h
  rcases h with rfl | rfl
  · rfl
  · rfl

/-- Clamping adds no table node to a query. -/
theorem relation?_clampLimit {parsed found : Tree} {rowLimit : ℕ} {relation : Relation} (hselect : parsed.cls = .select)
    (hfound : found ∈ (clampLimit parsed rowLimit).nodes) (hrelation : found.relation? = some relation) :
    found ∈ parsed.nodes := by
  have hset : found ∈ (parsed.setChild "limit" (limitOf rowLimit)).nodes → found ∈ parsed.nodes := by
    intro hmem
    rcases Tree.mem_nodes_setChild hmem with rfl | hlimit | hold
    · have hcls := cls_of_relation? hrelation
      rw [Tree.cls_setChild, hselect] at hcls
      cases hcls
    · rw [relation?_limitOf hlimit] at hrelation
      cases hrelation
    · exact hold
  rw [clampLimit] at hfound
  split at hfound
  · exact hset hfound
  · split at hfound
    · exact hset hfound
    · exact hfound

/-- An admitted statement is a `SELECT`. -/
theorem cls_of_onlySelect {statements : List (Option Tree)} {parsed : Tree} (h : onlySelect statements = .ok parsed) :
    parsed.cls = .select := by
  unfold onlySelect at h
  split at h
  · split at h
    · cases h
    · rename_i hcls
      cases h
      simpa using (not_or.mp hcls).2
  · cases h

/-- The table nodes of a forwarded query have names of the allowlist. -/
theorem name_mem_allowlist {forwarded found : Tree} {relation : Relation} (h : tool.Forwards glot sql forwarded)
    (hfound : found ∈ forwarded.nodes) (hrelation : found.relation? = some relation) :
    relation.name ∈ tool.allowlistedTables := by
  obtain ⟨parsed, ⟨hparsed, hnone⟩, rfl⟩ := h
  have hselect : parsed.cls = .select := by
    cases hparse : glot.parse sql with
    | error error =>
      rw [hparse] at hparsed
      cases hparsed
    | ok statements =>
      rw [hparse] at hparsed
      exact cls_of_onlySelect hparsed
  have hreferenced := mem_referencedTables (relation?_clampLimit hselect hfound hrelation) hrelation
  have hallowed := List.filter_eq_nil_iff.mp hnone _ hreferenced
  simpa using hallowed

/-- A relation on the allowlist is one without a foreign qualifier whose name is listed. -/
theorem resolve_mem_iff {allowlist : List String} {relation : Relation} :
    session.resolve relation ∈ (allowlist.map fun name => (session.database, session.schema, name)) ↔
      session.IsHome relation ∧ relation.name ∈ allowlist := by
  rw [List.mem_map]
  constructor
  · rintro ⟨name, hname, heq⟩
    simp only [Session.resolve, Prod.mk.injEq] at heq
    exact ⟨⟨heq.1.symm, heq.2.1.symm⟩, heq.2.2 ▸ hname⟩
  · rintro ⟨⟨hcatalog, hschema⟩, hname⟩
    exact ⟨relation.name, hname, by simp [Session.resolve, hcatalog, hschema]⟩

/-- Without qualifiers a relation is at home. -/
theorem isHome_of_unqualified {relation : Relation} (h : relation.unqualified = true) : session.IsHome relation := by
  rw [Relation.unqualified, Bool.and_eq_true, Option.isNone_iff_eq_none, Option.isNone_iff_eq_none] at h
  simp [Session.IsHome, h.1, h.2]

/-- A forwarded query writes nothing and reads allowlisted tables only exactly when it has no writing
node at any depth and no table node with a foreign qualifier. -/
theorem forwards_readsAllowlisted_iff (session : Session) (forwarded : Tree) (h : tool.Forwards glot sql forwarded) :
    ReadsAllowlisted session tool.allowlistedTables forwarded ↔ PlainRead session forwarded := by
  refine and_congr_right fun _ => ?_
  constructor
  · intro hreads found hfound relation hrelation
    cases hqualified : relation.unqualified with
    | true => exact isHome_of_unqualified hqualified
    | false =>
      have hbase := Tree.mem_baseRelations_of_qualified hrelation hqualified forwarded [] hfound
      exact (resolve_mem_iff.mp (hreads relation hbase)).1
  · intro hhome relation hrelation
    obtain ⟨found, hfound, hwritten⟩ := Tree.relation_of_mem_baseRelations forwarded [] hrelation
    exact resolve_mem_iff.mpr ⟨hhome found hfound relation hwritten, name_mem_allowlist h hfound hwritten⟩

/-- A table node without a qualifier. -/
def tableNode (name : String) : Tree := .node .table [] [("this", .node .identifier [("this", name)] [])]

/-- `SELECT * FROM` a table. -/
def selectAll (name : String) : Tree :=
  .node .select [] [("expressions", .node (.other "Star") [] []), ("from", .node (.other "From") [] [("this", tableNode name)])]

/-- The library on one text. -/
def glotOf (tree : Tree) : Sqlglot := ⟨fun _ => .ok [some tree], fun _ => ""⟩

/-- The tool over the two fixture tables. -/
def fixtureTool : PgReadOnlyTool where allowlistedTables := ["fixture_sales", "fixture_orders"]

/-- The query `SELECT * FROM fixture_sales` is a plain read. -/
theorem forwards_readsAllowlisted_select :
    ReadsAllowlisted ⟨"fleet", "public"⟩ fixtureTool.allowlistedTables (clampLimit (selectAll "fixture_sales") 1000) := by
  have hforwards : fixtureTool.Forwards (glotOf (selectAll "fixture_sales")) "SELECT * FROM fixture_sales"
      (clampLimit (selectAll "fixture_sales") 1000) := ⟨_, ⟨rfl, by decide⟩, rfl⟩
  rw [forwards_readsAllowlisted_iff _ _ hforwards]
  constructor
  · decide
  · intro found hfound relation hrelation
    simp [clampLimit, selectAll, tableNode, limitOf, Tree.child?, Tree.setChild, Tree.nodes, Tree.nodesOf] at hfound
    rcases hfound with rfl | rfl | rfl | rfl | rfl | rfl | rfl
    all_goals cases hrelation
    all_goals exact ⟨rfl, rfl⟩

/-- `WITH gone AS (DELETE FROM fixture_sales RETURNING *) SELECT * FROM fixture_sales`. -/
def deletingSelect : Tree :=
  .node .select [] [("with", .node .withClause [] [("expressions", .node .cte []
      [("this", .node .delete [] [("this", tableNode "fixture_sales"),
          ("returning", .node (.other "Returning") [] [("expressions", .node (.other "Star") [] [])])]),
        ("alias", .node .tableAlias [] [("this", .node .identifier [("this", "gone")] [])])])]),
    ("expressions", .node (.other "Star") [] []), ("from", .node (.other "From") [] [("this", tableNode "fixture_sales")])]

/-- A deletion in a `WITH` clause is forwarded. -/
theorem deletingSelect_forwarded : ¬ ∀ forwarded, fixtureTool.Forwards (glotOf deletingSelect)
    "WITH gone AS (DELETE FROM fixture_sales RETURNING *) SELECT * FROM fixture_sales" forwarded →
      ReadsAllowlisted ⟨"fleet", "public"⟩ fixtureTool.allowlistedTables forwarded := by
  intro h
  have hforwards : fixtureTool.Forwards (glotOf deletingSelect)
      "WITH gone AS (DELETE FROM fixture_sales RETURNING *) SELECT * FROM fixture_sales"
      (clampLimit deletingSelect 1000) := ⟨_, ⟨rfl, by decide⟩, rfl⟩
  exact absurd (h _ hforwards).1 (by decide)

end FleetWorkflow.Mcp
