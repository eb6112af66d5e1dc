import FleetWorkflow.Mcp.PgReadOnly

/-!
# The limit of a forwarded query

How many rows a limit clause lets through, as the database evaluates it. The clamp reads the clause
as an integer where it is written as one; every other form goes on as it is.
-/

namespace FleetWorkflow.Mcp

open Sql

/-- The database's value of a limit expression: none where it is null or `ALL`, and zero where its
evaluation fails, as no row comes back then. A numeral is worth what it says. -/
structure Postgres where
  limitValue : Tree → Option ℕ
  limitValue_limitOf : ∀ n, ((limitOf n).child? "expression").bind limitValue = some n

/-- The most rows that a limit clause lets through; none when it lets all of them through. -/
def Postgres.mostRows (postgres : Postgres) (clause : Tree) : Option ℕ :=
  if clause.cls = .fetch then
    if ((clause.child? "limit_options").bind fun options => options.text? "with_ties").isSome then none
    else
      match clause.child? "count" with
      | none => some 1
      | some count => postgres.limitValue count
  else (clause.child? "expression").bind postgres.limitValue

/-- What is left of the rows of a query by its limit clause. -/
def Postgres.limited {Row : Type} (postgres : Postgres) (query : Tree) (rows : List Row) : List Row :=
  match (query.child? "limit").bind postgres.mostRows with
  | none => rows
  | some n => rows.take n

/-- A forwarded query returns at most a number of rows, and has the limit that it came with when
that is written as an integer up to that number. -/
def BoundsRows (postgres : Postgres) (rowLimit : ℕ) (parsed forwarded : Tree) : Prop :=
  (∀ (Row : Type) (rows : List Row), (postgres.limited forwarded rows).length ≤ rowLimit) ∧
    ∀ clause n, parsed.child? "limit" = some clause → writtenLimit clause = some n → n ≤ rowLimit →
      forwarded.child? "limit" = some clause

/-- A query has no limit, one written as an integer above the bound, or one that the database
evaluates to at most the bound. -/
def LimitFits (postgres : Postgres) (rowLimit : ℕ) (parsed : Tree) : Prop :=
  ∀ clause, parsed.child? "limit" = some clause →
    (∃ n, writtenLimit clause = some n ∧ rowLimit < n) ∨ ∃ n, postgres.mostRows clause = some n ∧ n ≤ rowLimit

variable {postgres : Postgres} {rowLimit : ℕ} {parsed : Tree}

/-- The rows are at most a number exactly when the limit clause says so. -/
theorem limited_le_iff {query : Tree} :
    (∀ (Row : Type) (rows : List Row), (postgres.limited query rows).length ≤ rowLimit) ↔
      ∃ n, (query.child? "limit").bind postgres.mostRows = some n ∧ n ≤ rowLimit := by
  constructor
  · intro h
    have hmany := h Unit (List.replicate (rowLimit + 1) ())
    rw [Postgres.limited] at hmany
    cases hbound : (query.child? "limit").bind postgres.mostRows with
    | none =>
      rw [hbound, List.length_replicate] at hmany
      omega
    | some n =>
      rw [hbound, List.length_take, List.length_replicate] at hmany
      exact ⟨n, rfl, by omega⟩
  · rintro ⟨n, hbound, hn⟩ Row rows
    rw [Postgres.limited, hbound, List.length_take]
    omega

/-- The limit that is put in lets the bound through. -/
theorem mostRows_limitOf : postgres.mostRows (limitOf rowLimit) = some rowLimit :=
  postgres.limitValue_limitOf rowLimit

/-- A query without a limit gets the bound. -/
theorem child?_clampLimit_none (h : parsed.child? "limit" = none) :
    (clampLimit parsed rowLimit).child? "limit" = some (limitOf rowLimit) := by
  simp only [clampLimit, h]
  exact Tree.child?_setChild parsed "limit" _

/-- A query with a limit keeps it unless it is written as an integer above the bound. -/
theorem child?_clampLimit_some {clause : Tree} (h : parsed.child? "limit" = some clause) :
    (clampLimit parsed rowLimit).child? "limit" =
      if rowLimit < (writtenLimit clause).getD rowLimit then some (limitOf rowLimit) else some clause := by
  simp only [clampLimit, h]
  split
  · exact Tree.child?_setChild parsed "limit" _
  · exact h

/-- A limit is replaced when it is written as an integer above the bound. -/
theorem replaced_iff {clause : Tree} :
    (rowLimit : ℤ) < (writtenLimit clause).getD rowLimit ↔ ∃ n, writtenLimit clause = some n ∧ rowLimit < n := by
  cases writtenLimit clause with
  | none => simp
  | some n => simp

/-- A forwarded query is bounded exactly when its limit is absent, written as an integer above the
bound, or evaluated to at most the bound; a limit written as an integer up to the bound is kept. -/
theorem clampLimit_boundsRows_iff (postgres : Postgres) (rowLimit : ℕ) (parsed : Tree) :
    BoundsRows postgres rowLimit parsed (clampLimit parsed rowLimit) ↔ LimitFits postgres rowLimit parsed := by
  have hkept : ∀ clause n, parsed.child? "limit" = some clause → writtenLimit clause = some n → n ≤ rowLimit →
      (clampLimit parsed rowLimit).child? "limit" = some clause := by
    intro clause n hclause hwritten hn
    have hnot : ¬ (rowLimit : ℤ) < (some n).getD (rowLimit : ℤ) := by
      rw [Option.getD_some]
      omega
    rw [child?_clampLimit_some hclause, hwritten, if_neg hnot]
  rw [BoundsRows, and_iff_left hkept, limited_le_iff]
  cases hclause : parsed.child? "limit" with
  | none => simp [LimitFits, hclause, child?_clampLimit_none hclause, mostRows_limitOf]
  | some clause =>
    simp only [LimitFits, hclause, child?_clampLimit_some hclause, Option.some.injEq, forall_eq']
    rw [← replaced_iff]
    by_cases hreplaced : (rowLimit : ℤ) < (writtenLimit clause).getD rowLimit
    · simp [hreplaced, mostRows_limitOf]
    · simp [hreplaced]

/-- The number that a text of digits says. -/
def numeral? (text : String) : Option ℕ :=
  if text ≠ "" ∧ text.toList.all Char.isDigit then some (Nat.ofDigitChars 10 text.toList 0) else none

/-- A number is read back from its numeral. -/
theorem numeral?_repr (n : ℕ) : numeral? (Nat.repr n) = some n := by
  have hne : Nat.repr n ≠ "" := by
    intro h
    have := congrArg String.toList h
    simp [Nat.repr, Nat.toDigits_ne_nil] at this
  have hdigits : (Nat.repr n).toList.all Char.isDigit := by
    rw [List.all_eq_true]
    intro c hc
    rw [Nat.repr, String.toList_ofList] at hc
    exact Nat.isDigit_of_mem_toDigits (by decide) (by decide) hc
  rw [numeral?, if_pos ⟨hne, hdigits⟩, Nat.repr, String.toList_ofList, Nat.ofDigitChars_ten_toDigits]

/-- A database that evaluates numerals only. -/
def numeralsOnly : Postgres where
  limitValue tree := (tree.text? "this").bind numeral?
  limitValue_limitOf := numeral?_repr

/-- `SELECT * FROM fixture_sales FETCH FIRST 50000 ROWS ONLY`. -/
def fetchingSelect : Tree :=
  (selectAll "fixture_sales").setChild "limit"
    (.node .fetch [("direction", "FIRST")] [("count", .node .literal [("this", "50000"), ("is_string", "False")] [])])

/-- Its limit is forwarded as it is. -/
theorem fetchingSelect_unbounded : ¬ ∀ parsed, fixtureTool.Admits (glotOf fetchingSelect)
    "SELECT * FROM fixture_sales FETCH FIRST 50000 ROWS ONLY" parsed →
      BoundsRows numeralsOnly fixtureTool.rowLimit parsed (clampLimit parsed fixtureTool.rowLimit) := by
  intro h
  obtain ⟨n, hbound, hn⟩ := limited_le_iff.mp (h fetchingSelect ⟨rfl, by decide⟩).1
  have hfetched : ((clampLimit fetchingSelect 1000).child? "limit").bind numeralsOnly.mostRows = some 50000 := by
    decide
  rw [show fixtureTool.rowLimit = 1000 from rfl] at hbound hn
  rw [hfetched] at hbound
  cases hbound
  omega

end FleetWorkflow.Mcp
