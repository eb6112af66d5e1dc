import FleetWorkflow.Agents.InvoiceValidation
import FleetWorkflow.Mcp.RowLimit

/-!
# The purchase order look-up

The look-up of an order through the governed query tool. It asks for all rows and picks the order out of what comes back,
and the tool puts its limit on the rows: an order behind the limit is not found. The table is given in the order in which
the database returns its rows, which the query leaves open.
-/

namespace FleetWorkflow.Mcp

open Python Async Core Sql Agents InvoiceAgent

/-! ## The table -/

/-- The name of the table of orders. -/
def poTable : String := "fixture_purchase_orders"

/-- A row of the table, keyed by the number of its order; the other columns may be null. -/
structure PoRow where
  poNumber : String
  vendor : Option String
  amount : Option PyFloat
  currency : Option String

/-- A text or null. -/
def textCell : Option String → Json
  | some text => .str text
  | none => .null

/-- A number or null. -/
def numberCell : Option PyFloat → Json
  | some number => .float number
  | none => .null

/-- A row as the driver returns it. -/
def PoRow.asDict (row : PoRow) : Json :=
  .obj [("po_number", .str row.poNumber), ("vendor", textCell row.vendor), ("amount", numberCell row.amount),
    ("currency", textCell row.currency)]

/-! ## The look-up -/

/-- A column of a query. -/
def columnNode (name : String) : Tree := .node (.other "Column") [] [("this", .node .identifier [("this", name)] [])]

/-- The tree of the query of the look-up. -/
def poSelect : Tree :=
  .node .select [] [("expressions", columnNode "po_number"), ("expressions", columnNode "vendor"),
    ("expressions", columnNode "amount"), ("expressions", columnNode "currency"),
    ("from", .node (.other "From") [] [("this", tableNode poTable)])]

section Lookup

variable (tool : PgReadOnlyTool) (py : Builtins) (glot : Sqlglot) (postgres : Postgres)

/-- `PgPoLookup(tool).lookup(po_number)`. -/
def poLookup (poNumber : String) : Querying (Option PurchaseOrder) := do
  let rows ← tool.query py glot poQuery
  Prog.ofExcept (findPo py poNumber rows)

/-- The database answers the query of the look-up from a table. -/
def answeredFrom (table : List PoRow) : Event RunnerCall RunnerCall.Reply Exc :=
  ⟨.run (glot.sql (clampLimit poSelect tool.rowLimit)) tool.timeoutSeconds,
    .ok (postgres.limited (clampLimit poSelect tool.rowLimit) (table.map PoRow.asDict))⟩

/-- The order of a row, with the representation of what is no text. -/
def PoRow.order (row : PoRow) (amount : PyFloat) : PurchaseOrder :=
  ⟨row.poNumber, py.str (textCell row.vendor), amount, py.str (textCell row.currency)⟩

/-- An answer is exact: it is the order of a row of the number, or none if the table has no such row. -/
def IsExact (table : List PoRow) (poNumber : String) (result : Except Exc (Option PurchaseOrder)) : Prop :=
  (∃ row ∈ table, row.poNumber = poNumber ∧ ∃ amount, py.float (numberCell row.amount) = .ok amount ∧
    result = .ok (some (row.order py amount))) ∨ (∀ row ∈ table, row.poNumber ≠ poNumber) ∧ result = .ok none

/-- The look-up answers exactly. -/
def LooksUpExactly (table : List PoRow) (poNumber : String) : Prop :=
  ∃ result, (poLookup tool py glot poNumber).Runs [answeredFrom tool glot postgres table] result ∧
    IsExact py table poNumber result

/-- The first row of a number among the rows within the limit has an amount; without one there is no such row at all. -/
def WithinLimit (rowLimit : ℕ) (table : List PoRow) (poNumber : String) : Prop :=
  match (table.take rowLimit).find? fun row => row.poNumber = poNumber with
  | some row => row.amount.isSome
  | none => ∀ row ∈ table, row.poNumber ≠ poNumber

variable {tool py glot postgres}

/-- What the limited query returns. -/
theorem limited_poSelect (table : List PoRow) :
    postgres.limited (clampLimit poSelect tool.rowLimit) (table.map PoRow.asDict) =
      (table.take tool.rowLimit).map PoRow.asDict := by
  have hlimit : (clampLimit poSelect tool.rowLimit).child? "limit" = some (limitOf tool.rowLimit) :=
    child?_clampLimit_none rfl
  rw [Postgres.limited, hlimit, Option.bind_some, mostRows_limitOf, List.map_take]

/-- The query of the look-up passes the tool's checks. -/
theorem query_poQuery (hallow : poTable ∈ tool.allowlistedTables) (hparse : glot.parse poQuery = .ok [some poSelect]) :
    tool.query py glot poQuery =
      awaitRunner (.run (glot.sql (clampLimit poSelect tool.rowLimit)) tool.timeoutSeconds) := by
  have hnodes : referencedTables poSelect = [poTable] := by decide
  have hnone : tool.disallowed poSelect = [] := by
    rw [PgReadOnlyTool.disallowed, hnodes]
    simpa using hallow
  have honly : (glot.parse poQuery >>= onlySelect) = .ok poSelect := by
    rw [hparse]
    rfl
  simp only [PgReadOnlyTool.query, honly, Prog.ofExcept_ok, Prog.done_bind, hnone, if_true]

/-- The look-up finds what there is to find among the rows within the limit. -/
theorem runs_poLookup (hallow : poTable ∈ tool.allowlistedTables) (hparse : glot.parse poQuery = .ok [some poSelect])
    (table : List PoRow) (poNumber : String) :
    (poLookup tool py glot poNumber).Runs [answeredFrom tool glot postgres table]
      (findPo py poNumber ((table.take tool.rowLimit).map PoRow.asDict)) := by
  rw [poLookup, query_poQuery hallow hparse, answeredFrom, limited_poSelect]
  exact Prog.runs_call_bind.mpr (.inr ⟨_, [], rfl, Prog.runs_ofExcept.mpr ⟨rfl, rfl⟩⟩)

/-- The first row of a number is read, and no other. -/
theorem findPo_map (poNumber : String) (rows : List PoRow) : findPo py poNumber (rows.map PoRow.asDict) =
    match rows.find? fun row => row.poNumber = poNumber with
    | none => .ok none
    | some row => (py.float (numberCell row.amount)).map fun amount => some (row.order py amount) := by
  induction rows with
  | nil => rfl
  | cons row rest ih =>
    by_cases hsame : row.poNumber = poNumber
    · subst hsame
      simp only [List.map_cons, List.find?_cons, decide_true]
      show (if py.str (.str row.poNumber) = row.poNumber then _ else _) = _
      rw [if_pos (show py.str (.str row.poNumber) = row.poNumber from rfl)]
      show (py.float (numberCell row.amount) >>= fun amount => _) = _
      cases py.float (numberCell row.amount) with
      | error error => rfl
      | ok amount => rfl
    · simp only [List.map_cons, List.find?_cons, hsame, decide_false, ← ih]
      exact if_neg hsame

/-- The look-up is exact as long as the order is within the limit: exactly when the first row of the number among those
within the limit has an amount, or no row of the table has the number. -/
theorem looksUpExactly_iff (tool : PgReadOnlyTool) (py : Builtins) (glot : Sqlglot) (postgres : Postgres)
    (hallow : poTable ∈ tool.allowlistedTables) (hparse : glot.parse poQuery = .ok [some poSelect])
    (hfloat : ∀ number, ∃ amount, py.float (.float number) = .ok amount) (hnull : ∀ amount, py.float .null ≠ .ok amount)
    (table : List PoRow) (poNumber : String) :
    LooksUpExactly tool py glot postgres table poNumber ↔ WithinLimit tool.rowLimit table poNumber := by
  have hrun := @runs_poLookup tool py glot postgres hallow hparse table poNumber
  have hiff : LooksUpExactly tool py glot postgres table poNumber ↔
      IsExact py table poNumber (findPo py poNumber ((table.take tool.rowLimit).map PoRow.asDict)) := by
    constructor
    · rintro ⟨result, hresult, hexact⟩
      have hsame : [answeredFrom tool glot postgres table] ++ [] = [answeredFrom tool glot postgres table] ++ [] := rfl
      rw [← (hresult.unique hrun hsame).2]
      exact hexact
    · exact fun hexact => ⟨_, hrun, hexact⟩
  rw [hiff, findPo_map, WithinLimit]
  cases hfind : (table.take tool.rowLimit).find? fun row => row.poNumber = poNumber with
  | none =>
    constructor
    · rintro (⟨row, -, -, amount, -, hresult⟩ | ⟨hnone, -⟩)
      · cases hresult
      · exact hnone
    · exact fun hnone => .inr ⟨hnone, rfl⟩
  | some row =>
    have hrow : row ∈ table := List.mem_of_mem_take (List.mem_of_find?_eq_some hfind)
    have hnumber : row.poNumber = poNumber := by simpa using List.find?_some hfind
    simp only [Option.isSome_iff_exists]
    cases hcell : row.amount with
    | none =>
      constructor
      · intro hexact
        cases hread : py.float .null with
        | ok amount => exact absurd hread (hnull amount)
        | error error =>
          simp only [numberCell, hread] at hexact
          rcases hexact with ⟨other, -, -, amount, -, hresult⟩ | ⟨-, hresult⟩
          · cases hresult
          · cases hresult
      · rintro ⟨amount, hamount⟩
        cases hamount
    | some number =>
      obtain ⟨amount, hamount⟩ := hfloat number
      constructor
      · exact fun _ => ⟨number, rfl⟩
      · intro _
        refine .inl ⟨row, hrow, hnumber, amount, by rw [hcell]; exact hamount, ?_⟩
        simp only [numberCell, hamount]
        rfl

end Lookup

/-- The tool that the routers give to the invoice agent. -/
def invoiceTool : PgReadOnlyTool where allowlistedTables := [poTable]

/-- The library on the query of the look-up. -/
def poGlot : Sqlglot := ⟨fun _ => .ok [some poSelect], fun _ => ""⟩

/-- Built-in functions that read every number as it is. -/
def readsNumbers : Builtins where
  repr _ := "None"
  lower := id
  float
    | .float number => .ok number
    | _ => .error ⟨.typeError, ""⟩
  int _ := .error ⟨.typeError, ""⟩

/-- An order of five liras. -/
def liraRow (poNumber : String) : PoRow := ⟨poNumber, some "A", some (.decimal false 5 0), some "TRY"⟩

/-- In a table of one order, it is found. -/
theorem looksUpExactly_iff_lira : LooksUpExactly invoiceTool readsNumbers poGlot numeralsOnly [liraRow "1"] "1" :=
  (looksUpExactly_iff invoiceTool readsNumbers poGlot numeralsOnly (by decide) rfl (fun number => ⟨number, rfl⟩)
    (fun _ h => by cases h) [liraRow "1"] "1").mpr rfl

/-- In a table of a thousand and one orders, the last one is not found. -/
theorem lastOrder_not_looksUpExactly : ¬ LooksUpExactly invoiceTool readsNumbers poGlot numeralsOnly
    (List.replicate 1000 (liraRow "2") ++ [liraRow "1"]) "1" := by
  rintro ⟨result, hresult, hexact⟩
  have hrun := @runs_poLookup invoiceTool readsNumbers poGlot numeralsOnly (by decide) rfl
    (List.replicate 1000 (liraRow "2") ++ [liraRow "1"]) "1"
  have htake : (List.replicate 1000 (liraRow "2") ++ [liraRow "1"]).take 1000 = List.replicate 1000 (liraRow "2") :=
    List.take_left' (List.length_replicate ..)
  have hfind : (List.replicate 1000 (liraRow "2")).find? (fun row => row.poNumber = "1") = none := by
    apply List.find?_eq_none.mpr
    intro row hrow
    rw [List.eq_of_mem_replicate hrow]
    decide
  have hsame : [answeredFrom invoiceTool poGlot numeralsOnly (List.replicate 1000 (liraRow "2") ++ [liraRow "1"])] ++ [] =
    [answeredFrom invoiceTool poGlot numeralsOnly (List.replicate 1000 (liraRow "2") ++ [liraRow "1"])] ++ [] := rfl
  rw [(hresult.unique hrun hsame).2, show invoiceTool.rowLimit = 1000 from rfl, htake, findPo_map, hfind] at hexact
  rcases hexact with ⟨row, -, -, amount, -, hfound⟩ | ⟨hnone, -⟩
  · cases hfound
  · exact hnone (liraRow "1") (List.mem_append_right _ (List.mem_singleton_self _)) rfl

end FleetWorkflow.Mcp
