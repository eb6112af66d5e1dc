import FleetWorkflow.Agents.NumberReading
import FleetWorkflow.Python.Binary64

/-!
# Drafts that quote their rows

The check over exact doubles, and over rows as the database returns them, with its decimals. A draft that quotes a cell is
grounded by it when the quoted number is read as it is written and the cell is looked at; decimals of the database never are.
-/

namespace FleetWorkflow.Agents.InsightsPublisher

open Python Core Flow

/-! ## The check over doubles -/

/-- A cell of a row: a value of a type that JSON has too, or a decimal of the database. -/
inductive Cell where
  | plain (value : Json)
  | decimal (value : PyFloat)

/-- Rows as the database returns them. -/
abbrev DataRows := List (List (String × Cell))

/-- The cells of rows. -/
def cellsOf (rows : DataRows) : List Cell := rows.flatMap fun row => row.map Prod.snd

/-- The numbers of a text as doubles. -/
def readNumbers (text : String) : List FloatValue :=
  (numberTokens text).filterMap fun token => (numberOfText (normalText token)).map roundDouble

/-- `float(n)`. -/
def doubleOfInt (n : ℤ) : Except Exc FloatValue :=
  match roundDouble n with
  | .finite x => .ok (.finite x)
  | _ => .error ⟨.overflowError, "int too large to convert to float"⟩

/-- The values of one cell: a truth value is no number, and a decimal of the database is neither a number nor a text. -/
def cellDoubles : Cell → Except Exc (List FloatValue)
  | .plain (.int n) => do return [← doubleOfInt n]
  | .plain (.float x) => .ok [x.double]
  | .plain (.str s) => .ok (readNumbers s)
  | _ => .ok []

/-- `_data_values(rows)`. -/
def rowDoubles (rows : DataRows) : Except Exc (List FloatValue) := do return (← (cellsOf rows).mapM cellDoubles).flatten

/-- The tolerance as a double. -/
def toleranceDouble : FloatValue := roundDouble (1 / 100)

/-- `abs(num - d) <= max(tolerance, abs(d) * tolerance)`. -/
def isClose (num d : FloatValue) : Bool :=
  let bound := d.abs.mul toleranceDouble
  (num.sub d).abs.le (if bound.gt toleranceDouble then bound else toleranceDouble)

/-- Whether a draft is grounded, and the doubles that no value matches. -/
structure GroundingReport where
  grounded : Bool
  unmatched : List FloatValue

/-- `check_numbers_grounded(draft_text=..., data_rows=...)`. -/
def checkGrounded (draftText : String) (rows : DataRows) : Except Exc GroundingReport := do
  let data ← rowDoubles rows
  let unmatched := (readNumbers draftText).filter fun num => !data.any fun d => isClose num d
  return ⟨unmatched.isEmpty, unmatched⟩

/-- A draft is judged grounded. -/
def Grounded (draftText : String) (rows : DataRows) : Prop :=
  ∃ report, checkGrounded draftText rows = .ok report ∧ report.grounded = true

/-- A number is close to a value of a cell. -/
def MatchedBy (cells : List Cell) (num : FloatValue) : Prop :=
  ∃ cell ∈ cells, ∃ values, cellDoubles cell = .ok values ∧ ∃ d ∈ values, isClose num d = true

/-- The doubles of a text are its exact numbers, rounded. -/
theorem readNumbers_eq (text : String) : readNumbers text = (exactNumbers text).map roundDouble := by
  rw [readNumbers, exactNumbers, List.map_filterMap]

/-- A draft is grounded when every cell has its values and every number is matched by one of them. -/
theorem grounded_iff_matched {text : String} {rows : DataRows} : Grounded text rows ↔
    (∀ cell ∈ cellsOf rows, ∃ values, cellDoubles cell = .ok values) ∧
      ∀ num ∈ readNumbers text, MatchedBy (cellsOf rows) num := by
  constructor
  · rintro ⟨report, hreport, hgrounded⟩
    obtain ⟨data, hdata, hreport⟩ := bind_eq_ok.mp hreport
    obtain ⟨values, hvalues, hdata⟩ := bind_eq_ok.mp hdata
    cases hdata
    cases hreport
    constructor
    · intro cell hcell
      obtain ⟨found, -, hfound⟩ := mem_mapM hvalues hcell
      exact ⟨found, hfound⟩
    · intro num hnum
      have hclose : values.flatten.any (fun d => isClose num d) = true := by
        by_contra hnot
        have hmem : num ∈ (readNumbers text).filter fun num => !values.flatten.any fun d => isClose num d :=
          List.mem_filter.mpr ⟨hnum, by simpa using hnot⟩
        rw [List.isEmpty_iff.mp hgrounded] at hmem
        cases hmem
      obtain ⟨d, hd, hclose⟩ := List.any_eq_true.mp hclose
      obtain ⟨found, hfound, hd⟩ := List.mem_flatten.mp hd
      obtain ⟨cell, hcell, hcellvalues⟩ := of_mem_mapM hvalues hfound
      exact ⟨cell, hcell, found, hcellvalues, d, hd, hclose⟩
  · rintro ⟨hcells, hmatched⟩
    obtain ⟨values, hvalues⟩ := mapM_ok cellDoubles (cellsOf rows) hcells
    have hdata : rowDoubles rows = .ok values.flatten := bind_eq_ok.mpr ⟨values, hvalues, rfl⟩
    refine ⟨_, bind_eq_ok.mpr ⟨_, hdata, rfl⟩, ?_⟩
    rw [List.isEmpty_iff, List.filter_eq_nil_iff]
    intro num hnum
    obtain ⟨cell, hcell, found, hfound, d, hd, hclose⟩ := hmatched num hnum
    obtain ⟨found', hmem, hsame⟩ := mem_mapM hvalues hcell
    rw [hfound] at hsame
    have hany : values.flatten.any (fun d => isClose num d) = true :=
      List.any_eq_true.mpr ⟨d, List.mem_flatten_of_mem hmem (Except.ok.inj hsame ▸ hd), hclose⟩
    simp [hany]

/-! ## Closeness -/

/-- Zero is a double. -/
theorem roundDouble_zero : roundDouble 0 = .finite 0 :=
  roundDouble_of_isDouble ⟨⟨0, 0, by decide, by decide, by simp⟩, by simpa using zero_lt_one.trans one_lt_doubleLimit⟩

/-- What is rounded is a number or infinite. -/
theorem roundDouble_cases (x : ℚ) : (∃ y, roundDouble x = .finite y) ∨ ∃ negative, roundDouble x = .infinity negative := by
  rw [roundDouble]
  split
  · exact .inr ⟨_, rfl⟩
  · exact .inl ⟨_, rfl⟩

/-- What is not negative is not rounded below zero. -/
theorem le_roundDouble {x : ℚ} (hx : 0 ≤ x) : (FloatValue.finite 0).le (roundDouble x) = true := by
  rw [roundDouble]
  split
  · simp [FloatValue.le, FloatValue.gt, not_lt.mpr hx]
  · simpa [FloatValue.le, FloatValue.gt] using onGrid_nonneg hx

/-- A number is close to itself. -/
theorem isClose_self (x : ℚ) : isClose (.finite x) (.finite x) = true := by
  have hdistance : ((FloatValue.finite x).sub (.finite x)).abs = .finite 0 := by
    simp [FloatValue.sub, roundDouble_zero, FloatValue.abs]
  have htolerance : (FloatValue.finite 0).le toleranceDouble = true := le_roundDouble (by norm_num)
  rw [isClose, hdistance]
  split
  · rename_i hlarger
    revert hlarger htolerance
    cases (FloatValue.finite x).abs.mul toleranceDouble with
    | nan => simp [FloatValue.gt]
    | infinity negative =>
      cases toleranceDouble with
      | nan => simp [FloatValue.gt]
      | infinity negative' => cases negative <;> cases negative' <;> simp [FloatValue.gt, FloatValue.le]
      | finite y => cases negative <;> simp [FloatValue.gt, FloatValue.le]
    | finite y =>
      cases toleranceDouble with
      | nan => simp [FloatValue.gt]
      | infinity negative' => cases negative' <;> simp [FloatValue.gt, FloatValue.le]
      | finite z =>
        simp only [FloatValue.gt, FloatValue.le, decide_eq_true_eq, Bool.not_eq_true', decide_eq_false_iff_not, not_lt]
        intro hzero hlarger
        exact hzero.trans hlarger.le
  · exact htolerance

/-- Nothing is close to an infinite number that is infinite itself. -/
theorem not_isClose_infinity (negative : Bool) : isClose (.infinity negative) (.infinity negative) = false := by
  simp [isClose, FloatValue.sub, FloatValue.abs, FloatValue.le]

/-! ## Quotations -/

/-- A cell is written as a number: an integer by its digits, a float with its point, a decimal of the database as its digits
are, and a text as it is. -/
def Cell.WrittenAs : Cell → WrittenNumber → Prop
  | .plain (.int n), w => w.groups = [] ∧ w.fraction = [] ∧ w.value = n
  | .plain (.float x), w => w.groups = [] ∧ w.point = '.' ∧ w.fraction ≠ [] ∧ x.value = .finite w.value
  | .plain (.str s), w => s = String.ofList w.chars
  | .decimal x, w => w.groups = [] ∧ w.point = '.' ∧ x.value = .finite w.value
  | _, _ => False

/-- A decimal of the database. -/
def Cell.isDecimal : Cell → Bool
  | .decimal _ => true
  | _ => false

/-- A numeric cell that a draft quotes as it is written, and the marks that follow it. -/
structure Quotation where
  number : WrittenNumber
  mark : List Char
  cell : Cell
  isMark : IsMark mark
  verbatim : cell.WrittenAs number

namespace Quotation

variable (q : Quotation)

/-- A draft with the quotation is judged grounded, when the rows have the cell, their other cells have values, and the
other numbers of the draft are matched. -/
def Grounds : Prop := ∀ (before rest : String) (rows : DataRows), endsInNumber before.toList = false →
  continuesNumber rest.toList = false → q.cell ∈ cellsOf rows →
  (∀ cell ∈ cellsOf rows, cell ≠ q.cell → ∃ values, cellDoubles cell = .ok values) →
  (∀ num ∈ readNumbers before ++ readNumbers rest, MatchedBy (cellsOf rows) num) →
    Grounded (q.number.within q.mark before rest) rows

/-- The doubles of a draft with the quotation. -/
theorem readNumbers_within {before rest : String} (hbefore : endsInNumber before.toList = false)
    (hrest : continuesNumber rest.toList = false) : readNumbers (q.number.within q.mark before rest) =
      readNumbers before ++ roundDouble (q.number.read q.mark) :: readNumbers rest := by
  rw [readNumbers_eq, readNumbers_eq, readNumbers_eq, q.number.exactNumbers_within q.isMark hbefore hrest, List.map_append,
    List.map_cons]

/-- A number that is read right before a mark is read right without it. -/
theorem readsRight_nil {w : WrittenNumber} {mark : List Char} (h : w.ReadsRight mark) : w.ReadsRight [] :=
  h.imp_right fun h => h.imp_left fun h => ⟨h.1, rfl⟩

/-- What is read of the text of a number. -/
theorem readNumbers_chars {w : WrittenNumber} (h : w.ReadsRight []) :
    readNumbers (String.ofList w.chars) = [roundDouble w.value] := by
  have hmark : IsMark [] := List.forall_mem_nil _
  have hplace := (w.readAt_iff hmark).mpr h "" "" rfl rfl
  have htext : w.within [] "" "" = String.ofList w.chars := by
    rw [WrittenNumber.within, List.append_nil, String.append_empty, String.empty_append]
  rw [htext] at hplace
  rw [readNumbers_eq, hplace]
  rfl

/-- The values of a cell that is quoted: the double of its number, when it is looked at and the number is read as it is
written. -/
theorem cellDoubles_eq (hdecimal : q.cell.isDecimal = false) (hread : q.number.ReadsRight q.mark) :
    cellDoubles q.cell = .ok [roundDouble q.number.value] ∨
      (∃ negative, roundDouble q.number.value = .infinity negative) ∧ ∃ error, cellDoubles q.cell = .error error := by
  have hverbatim := q.verbatim
  cases hcell : q.cell with
  | decimal x =>
    rw [hcell] at hdecimal
    cases hdecimal
  | plain value =>
    rw [hcell] at hverbatim
    cases value with
    | int n =>
      obtain ⟨-, -, hvalue⟩ := hverbatim
      rw [hvalue]
      rcases roundDouble_cases n with ⟨x, hx⟩ | ⟨negative, hinfinite⟩
      · left
        rw [cellDoubles]
        unfold doubleOfInt
        rw [hx]
        rfl
      · right
        rw [cellDoubles]
        unfold doubleOfInt
        rw [hinfinite]
        exact ⟨⟨negative, rfl⟩, _, rfl⟩
    | float x =>
      obtain ⟨-, -, -, hvalue⟩ := hverbatim
      left
      rw [cellDoubles, PyFloat.double, hvalue]
    | str s =>
      left
      have htext : s = String.ofList q.number.chars := hverbatim
      rw [htext, cellDoubles, readNumbers_chars (readsRight_nil hread)]
    | _ => exact hverbatim.elim

/-- A quotation is read at its place and grounded by its cell exactly when its number is read as it is written, the cell
is no decimal of the database, and the number is not beyond the doubles. -/
theorem kept_iff : (q.number.ReadAt q.mark ∧ q.Grounds) ↔
    q.number.ReadsRight q.mark ∧ q.cell.isDecimal = false ∧ ∃ x, roundDouble q.number.value = .finite x := by
  have hnone : readNumbers "" = [] := rfl
  rw [q.number.readAt_iff q.isMark]
  constructor
  · rintro ⟨hread, hgrounds⟩
    -- The draft that is the quotation alone, over rows that have its cell alone.
    have halone := hgrounds "" "" [[("", q.cell)]] rfl rfl (List.mem_singleton.mpr rfl)
      (fun cell hcell hne => absurd (List.mem_singleton.mp hcell) hne) (by simp [hnone])
    rw [grounded_iff_matched, q.readNumbers_within rfl rfl, hnone, (q.number.read_eq_value).mpr hread] at halone
    obtain ⟨hcells, hmatched⟩ := halone
    obtain ⟨cell, hcell, values, hvalues, d, hd, hclose⟩ := hmatched _ (List.mem_singleton.mpr rfl)
    rw [List.mem_singleton.mp hcell] at hvalues
    have hdecimal : q.cell.isDecimal = false := by
      by_contra hdecimal
      cases hcell : q.cell with
      | plain value => simp [hcell, Cell.isDecimal] at hdecimal
      | decimal x =>
        rw [hcell] at hvalues
        cases hvalues
        cases hd
    refine ⟨hread, hdecimal, ?_⟩
    rcases roundDouble_cases q.number.value with hfinite | ⟨negative, hinfinite⟩
    · exact hfinite
    · rcases q.cellDoubles_eq hdecimal hread with heq | ⟨-, error, herror⟩
      · rw [hvalues] at heq
        rw [Except.ok.inj heq, List.mem_singleton] at hd
        rw [hd, hinfinite, not_isClose_infinity] at hclose
        cases hclose
      · rw [hvalues] at herror
        cases herror
  · rintro ⟨hread, hdecimal, x, hx⟩
    refine ⟨hread, fun before rest rows hbefore hrest hmem hothers hmatched => ?_⟩
    have hvalues : cellDoubles q.cell = .ok [roundDouble q.number.value] := by
      rcases q.cellDoubles_eq hdecimal hread with heq | ⟨⟨negative, hinfinite⟩, -⟩
      · exact heq
      · rw [hx] at hinfinite
        cases hinfinite
    rw [grounded_iff_matched, q.readNumbers_within hbefore hrest, (q.number.read_eq_value).mpr hread]
    constructor
    · intro cell hcell
      by_cases hsame : cell = q.cell
      · exact ⟨_, hsame ▸ hvalues⟩
      · exact hothers cell hcell hsame
    · intro num hnum
      rcases List.mem_append.mp hnum with hnum | hnum
      · exact hmatched num (List.mem_append_left _ hnum)
      · rcases List.mem_cons.mp hnum with rfl | hnum
        · refine ⟨q.cell, hmem, _, hvalues, _, List.mem_singleton.mpr rfl, ?_⟩
          rw [hx]
          exact isClose_self x
        · exact hmatched num (List.mem_append_right _ hnum)

end Quotation

/-- Twelve and a half, with a point. -/
def twelveAndAHalf : WrittenNumber where
  first := ['1', '2']
  groups := []
  point := '.'
  fraction := ['5']
  first_ne := by decide
  first_digits := List.all_eq_true.mp (by decide)
  groups_digits := List.forall_mem_nil _
  first_short := fun h => absurd rfl h
  fraction_digits := List.all_eq_true.mp (by decide)
  fraction_short := by decide
  point_eq := .inr ⟨rfl, rfl⟩

/-- A float cell of this value, quoted as it is written. -/
def indexQuotation : Quotation where
  number := twelveAndAHalf
  mark := []
  cell := .plain (.float (.decimal false 125 (-1)))
  isMark := List.forall_mem_nil _
  verbatim := by
    refine ⟨rfl, rfl, by decide, ?_⟩
    have hunscaled : twelveAndAHalf.unscaled = 125 := by decide
    rw [WrittenNumber.value, hunscaled]
    norm_num [PyFloat.value, twelveAndAHalf]

/-- It is read as a hundred and twenty-five. -/
theorem indexQuotation_not_kept : exactNumbers "Endeks 12.5 puan." = [125] ∧
    ¬ (indexQuotation.number.ReadAt indexQuotation.mark ∧ indexQuotation.Grounds) := by
  refine ⟨by decide, fun h => ?_⟩
  have hread := (indexQuotation.number.readAt_iff indexQuotation.isMark).mp h.1
  have hunscaled : twelveAndAHalf.unscaled = 125 := by decide
  rcases hread with hnone | ⟨hcomma, -⟩ | hzero
  · cases hnone
  · revert hcomma
    decide
  · cases hunscaled.symm.trans hzero

end FleetWorkflow.Agents.InsightsPublisher
