import Mathlib.Data.List.Induction
import FleetWorkflow.Agents.InvoiceAgent
import FleetWorkflow.Async.Runs
import FleetWorkflow.Flow.Fallible
import FleetWorkflow.Python.Binary64
import FleetWorkflow.Python.Json

/-!
# Validation of invoices

When an invoice is in order, and which invoices the validation lets pass that are not. The test of the amounts is a
quotient of doubles compared with a double: it is never met by what is no number, nor for a negative order, and the
currencies are not compared at all.
-/

namespace FleetWorkflow.Agents.InvoiceAgent

open Python Async Core Flow

/-! ## The test of the amounts -/

/-- `_AMOUNT_TOLERANCE_PCT`. -/
def amountTolerancePct : FloatValue := roundDouble (1 / 100)

/-- `abs(invoice_amount - po_amount) / po_amount > _AMOUNT_TOLERANCE_PCT`. -/
def exceedsTolerance (invoiceAmount poAmount : PyFloat) : Bool :=
  (((invoiceAmount.value.sub poAmount.value).abs).div poAmount.value).gt amountTolerancePct

/-- An amount is a number, and it is off by at most a hundredth; an infinite order is off by nothing more. -/
def Within : FloatValue → FloatValue → Prop
  | .finite amount, .finite poAmount => |amount - poAmount| ≤ |poAmount| / 100
  | .finite _, .infinity _ => True
  | _, _ => False

/-- The tolerance is a number between zero and one. -/
theorem amountTolerancePct_eq : amountTolerancePct = .finite (onGrid (1 / 100)) ∧
    0 ≤ onGrid (1 / 100) ∧ onGrid (1 / 100) ≤ 1 := by
  have hnonneg : 0 ≤ onGrid (1 / 100) := onGrid_nonneg (by norm_num)
  have hlog : Int.log 2 |(1 / 100 : ℚ)| ≤ 0 := by
    rw [← Int.log_one_right (R := ℚ) 2]
    exact Int.log_mono_right (by norm_num) (by norm_num)
  obtain ⟨n, hn⟩ := zpow_div_zpow (e := 0) (f := gridExponent (1 / 100)) (max_le (by omega) (by omega))
  rw [zpow_zero] at hn
  have hone : onGrid (1 / 100) ≤ 1 := onGrid_le hn (by norm_num)
  refine ⟨?_, hnonneg, hone⟩
  rw [amountTolerancePct, roundDouble, if_neg]
  rw [abs_of_nonneg hnonneg, not_le]
  exact hone.trans_lt one_lt_doubleLimit

/-- A quotient that is at most a hundredth is not above the tolerance. -/
theorem not_gt_of_le {quotient : ℚ} (h : quotient ≤ 1 / 100) : (roundDouble quotient).gt amountTolerancePct = false := by
  obtain ⟨htolerance, hnonneg, hone⟩ := amountTolerancePct_eq
  have hrounded : onGrid quotient ≤ onGrid (1 / 100) := by
    rcases le_or_gt quotient 0 with hquotient | hquotient
    · exact (onGrid_nonpos hquotient).trans hnonneg
    · exact onGrid_mono hquotient h
  rw [htolerance, roundDouble]
  split
  · rename_i hlarge
    have hnegative : quotient < 0 := by
      by_contra hquotient
      rw [abs_of_nonneg (onGrid_nonneg (not_lt.mp hquotient))] at hlarge
      have hlimit := one_lt_doubleLimit
      linarith
    simp [FloatValue.gt, hnegative]
  · simpa [FloatValue.gt] using hrounded

/-- Nothing is above the tolerance of a negative order. -/
theorem not_exceeds_of_negative (value : FloatValue) {poAmount : ℚ} (h : poAmount < 0) :
    ((value.abs).div (.finite poAmount)).gt amountTolerancePct = false := by
  cases value with
  | nan => rfl
  | infinity negative =>
    rw [amountTolerancePct_eq.1]
    simp [FloatValue.abs, FloatValue.div, FloatValue.gt, h]
  | finite x =>
    apply not_gt_of_le
    have hquotient : |x| / poAmount ≤ 0 := div_nonpos_of_nonneg_of_nonpos (abs_nonneg x) h.le
    linarith

/-- An amount within a hundredth of the order passes the test. -/
theorem not_exceeds_of_within {amount poAmount : PyFloat} (hamount : amount.IsDouble) (hpo : poAmount.IsDouble)
    (h : Within amount.value poAmount.value) (hzero : ¬ poAmount.value = .finite 0) :
    exceedsTolerance amount poAmount = false := by
  rw [exceedsTolerance]
  cases hx : amount.value with
  | nan => simp [Within, hx] at h
  | infinity negative => simp [Within, hx] at h
  | finite x =>
    cases hy : poAmount.value with
    | nan => simp [Within, hx, hy] at h
    | infinity negative => simp [FloatValue.sub, FloatValue.abs, FloatValue.div, FloatValue.gt]
    | finite y =>
      simp only [Within, hx, hy] at h
      have hne : y ≠ 0 := fun heq => hzero (by rw [hy, heq])
      rcases lt_or_gt_of_ne hne with hnegative | hpositive
      · exact not_exceeds_of_negative _ hnegative
      · rw [abs_of_pos hpositive] at h
        obtain ⟨hlower, hupper⟩ := abs_le.mp h
        -- The two are close enough for their difference to be exact.
        have hdouble : Python.IsDouble (x - y) := by
          refine ⟨(hamount x hx).1.sub_of_close (hpo y hy).1 (by linarith) (by linarith), ?_⟩
          have hbound := (hpo y hy).2
          rw [abs_of_pos hpositive] at hbound
          exact h.trans_lt (by linarith)
        rw [FloatValue.sub, roundDouble_of_isDouble hdouble, FloatValue.abs, FloatValue.div]
        apply not_gt_of_le
        rw [div_le_iff₀ hpositive]
        linarith

/-- An amount within a hundredth of the order is no mismatch. -/
theorem not_mismatches_of_within {amount poAmount : PyFloat} (hamount : amount.IsDouble) (hpo : poAmount.IsDouble)
    (h : Within amount.value poAmount.value) : amountMismatches exceedsTolerance amount poAmount = false := by
  rw [amountMismatches]
  split
  · rename_i hzero
    have hpo := (PyFloat.isZero_iff poAmount).mp hzero
    rw [hpo] at h
    cases hx : amount.value with
    | nan => simp [Within, hx] at h
    | infinity negative => simp [Within, hx] at h
    | finite x =>
      have hamount : amount.value = .finite 0 := by
        simp only [Within, hx, sub_zero, abs_zero, zero_div, abs_nonpos_iff] at h
        rw [hx, h]
      rw [(PyFloat.isZero_iff amount).mpr hamount, Bool.not_true]
  · rename_i hzero
    exact not_exceeds_of_within hamount hpo h fun heq => hzero ((PyFloat.isZero_iff poAmount).mpr heq)

/-- What is no number is never a mismatch, unless the order is of zero. -/
theorem not_mismatches_of_nan {poAmount : PyFloat} (h : poAmount.isZero = false) :
    amountMismatches exceedsTolerance .nan poAmount = false := by
  simp only [amountMismatches, h, Bool.false_eq_true, if_false, exceedsTolerance, PyFloat.value]
  cases poAmount.value <;> rfl

/-! ## Invoices in order -/

section Validation

variable (py : Builtins) (seen : List String) (fields : InvoiceFields)

/-- Two vendors are the same up to the space around them and case. -/
def SameVendor (vendor other : String) : Prop := py.lower (strip vendor) = py.lower (strip other)

/-- An invoice is in order: its order number is new and has an order of the same vendor, in the same currency and of
an amount that it is within a hundredth of. -/
def InOrder (found : Option PurchaseOrder) : Prop :=
  fields.poNumber ∉ seen ∧ ∃ po, found = some po ∧ SameVendor py fields.vendor po.vendor ∧
    fields.currency = po.currency ∧ Within fields.amount.value po.amount.value

/-- A mismatch is overlooked: nothing else stands against the invoice, and its amount passes the test of the amounts,
but it is in another currency or not within a hundredth of the order. -/
def Overlooked (found : Option PurchaseOrder) : Prop :=
  fields.poNumber ∉ seen ∧ ∃ po, found = some po ∧ SameVendor py fields.vendor po.vendor ∧
    amountMismatches exceedsTolerance fields.amount po.amount = false ∧
    (fields.currency ≠ po.currency ∨ ¬ Within fields.amount.value po.amount.value)

/-- The look-up is answered with rows. -/
def answered (actor : Actor) (rows : Json) : CallEvent := ⟨.tool actor pgRoQuery [("sql", .str poQuery)], .ok rows⟩

/-- The validation answers right on rows that have an order or none: it accepts exactly what is in order, and it
refuses nothing without a reason. -/
def ValidatesRight (actor : Actor) (rows : Json) (found : Option PurchaseOrder) : Prop :=
  ∃ result, (validateInvoice py exceedsTolerance actor seen fields).Runs [answered actor rows] (.ok result) ∧
    (result.ok = true ↔ InOrder py seen fields found) ∧ (result.ok = false → result.reasons ≠ [])

variable {py seen fields}

/-- There are no reasons exactly when neither the amounts nor the vendors differ. -/
theorem mismatchReasons_eq_nil {po : PurchaseOrder} : mismatchReasons py exceedsTolerance fields po = [] ↔
    amountMismatches exceedsTolerance fields.amount po.amount = false ∧ SameVendor py fields.vendor po.vendor := by
  rw [mismatchReasons, List.append_eq_nil_iff]
  apply and_congr
  · cases amountMismatches exceedsTolerance fields.amount po.amount <;> simp
  · rw [SameVendor]
    split
    · rename_i hdifferent
      simpa using hdifferent
    · rename_i hsame
      simpa using hsame

/-- The look-up finds what there is to find in the rows. -/
theorem runs_lookupPo {actor : Actor} {poNumber : String} {rows : Json} {items : List Json}
    (hrows : rows.iterate = .ok items) : (lookupPo py actor poNumber).Runs [answered actor rows] (findPo py poNumber items) := by
  apply Prog.runs_call_bind.mpr
  refine .inr ⟨rows, [], rfl, Prog.runs_ofExcept_bind.mpr (.inr ⟨items, hrows, ?_⟩)⟩
  exact Prog.runs_ofExcept.mpr ⟨rfl, rfl⟩

/-- The validation looks the order up and judges it. -/
theorem runs_validateInvoice {actor : Actor} {rows : Json} {items : List Json} {found : Option PurchaseOrder}
    (hrows : rows.iterate = .ok items) (hfound : findPo py fields.poNumber items = .ok found) :
    ∃ result, (validateInvoice py exceedsTolerance actor seen fields).Runs [answered actor rows] (.ok result) ∧
      (result.ok = true ↔ fields.poNumber ∉ seen ∧ ∃ po, found = some po ∧
        mismatchReasons py exceedsTolerance fields po = []) ∧ (result.ok = false → result.reasons ≠ []) := by
  have hlookup : (lookupPo py actor fields.poNumber).Runs [answered actor rows] (.ok found) :=
    hfound ▸ runs_lookupPo hrows
  cases found with
  | none => exact ⟨_, Prog.runs_bind.mpr (.inr ⟨_, [], none, rfl, hlookup, .done _⟩), by simp, by simp⟩
  | some po =>
    refine ⟨_, Prog.runs_bind.mpr (.inr ⟨_, [], some po, rfl, hlookup, .done _⟩), ?_, by simp⟩
    by_cases hseen : fields.poNumber ∈ seen <;> simp [hseen]

/-- The amount of an order is read as a float. -/
theorem isDouble_of_findPo (hfloat : ∀ value x, py.float value = .ok x → x.IsDouble) {poNumber : String}
    {items : List Json} {po : PurchaseOrder} (h : findPo py poNumber items = .ok (some po)) : po.amount.IsDouble := by
  induction items with
  | nil => cases h
  | cons row rest ih =>
    rw [findPo] at h
    obtain ⟨number, -, h⟩ := bind_eq_ok.mp h
    split at h
    · obtain ⟨vendor, -, h⟩ := bind_eq_ok.mp h
      obtain ⟨cell, -, h⟩ := bind_eq_ok.mp h
      obtain ⟨amount, hamount, h⟩ := bind_eq_ok.mp h
      obtain ⟨currency, -, h⟩ := bind_eq_ok.mp h
      rw [← Option.some.inj (Except.ok.inj h)]
      exact hfloat cell amount hamount
    · exact ih h

/-- The amount of an invoice is read as a float. -/
theorem isDouble_of_parseFields (hfloat : ∀ value x, py.float value = .ok x → x.IsDouble) {content : String}
    (h : parseFields py content = .ok fields) : fields.amount.IsDouble := by
  rw [parseFields] at h
  obtain ⟨parsed, -, h⟩ := bind_eq_ok.mp h
  obtain ⟨missing, -, h⟩ := bind_eq_ok.mp h
  split at h
  · cases h
  · obtain ⟨amount, hamount, h⟩ := bind_eq_ok.mp h
    obtain ⟨vendor, -, h⟩ := bind_eq_ok.mp h
    obtain ⟨poNumber, -, h⟩ := bind_eq_ok.mp h
    obtain ⟨currency, -, h⟩ := bind_eq_ok.mp h
    rw [← Except.ok.inj h]
    rw [parseAmount] at hamount
    split at hamount
    · rename_i value hvalue
      obtain ⟨cell, -, hcell⟩ := bind_eq_ok.mp hvalue
      rw [← Except.ok.inj hamount]
      exact hfloat cell value hcell
    · split at hamount
      · obtain ⟨cell, -, hcell⟩ := bind_eq_ok.mp hamount
        cases hcell
      · cases hamount

end Validation

/-- The validation of an extracted invoice answers right exactly when it overlooks nothing. -/
theorem validatesRight_iff (py : Builtins) (hfloat : ∀ value x, py.float value = .ok x → x.IsDouble) (actor : Actor)
    (seen : List String) (content : String) (fields : InvoiceFields) (hfields : parseFields py content = .ok fields)
    (rows : Json) (items : List Json) (found : Option PurchaseOrder) (hrows : rows.iterate = .ok items)
    (hfound : findPo py fields.poNumber items = .ok found) :
    ValidatesRight py seen fields actor rows found ↔ ¬ Overlooked py seen fields found := by
  obtain ⟨result, hrun, hok, hreasons⟩ := @runs_validateInvoice py seen fields actor rows items found hrows hfound
  have hright : ValidatesRight py seen fields actor rows found ↔ (result.ok = true ↔ InOrder py seen fields found) := by
    constructor
    · rintro ⟨other, hother, hiff, -⟩
      have hsame : [answered actor rows] ++ [] = [answered actor rows] ++ [] := rfl
      rw [← Except.ok.inj (hother.unique hrun hsame).2]
      exact hiff
    · exact fun hiff => ⟨result, hrun, hiff, hreasons⟩
  simp only [hright, hok, mismatchReasons_eq_nil]
  constructor
  · rintro hiff ⟨hnew, po, hpo, hvendor, hamounts, hslip⟩
    obtain ⟨-, other, hother, -, hcurrency, hwithin⟩ := hiff.mp ⟨hnew, po, hpo, hamounts, hvendor⟩
    rw [Option.some.inj (hother.symm.trans hpo)] at hcurrency hwithin
    rcases hslip with hslip | hslip
    · exact hslip hcurrency
    · exact hslip hwithin
  · intro hnone
    constructor
    · rintro ⟨hnew, po, hpo, hamounts, hvendor⟩
      by_contra hbad
      apply hnone
      refine ⟨hnew, po, hpo, hvendor, hamounts, ?_⟩
      by_contra hgood
      rw [not_or, not_not, not_not] at hgood
      exact hbad ⟨hnew, po, hpo, hvendor, hgood⟩
    · rintro ⟨hnew, po, rfl, hvendor, hcurrency, hwithin⟩
      exact ⟨hnew, po, rfl, not_mismatches_of_within (isDouble_of_parseFields hfloat hfields)
        (isDouble_of_findPo hfloat hfound) hwithin, hvendor⟩

/-- Built-in functions that read whole numbers. -/
def wholeAmounts : Builtins where
  repr _ := ""
  lower := id
  float
    | .int n => if n.natAbs < 2 ^ 53 then .ok (.decimal false n.natAbs 0) else .error ⟨.overflowError, ""⟩
    | _ => .error ⟨.typeError, ""⟩
  int _ := .error ⟨.typeError, ""⟩

/-- What they read are doubles. -/
theorem isDouble_wholeAmounts (value : Json) (x : PyFloat) (h : wholeAmounts.float value = .ok x) : x.IsDouble := by
  simp only [wholeAmounts] at h
  split at h
  · rename_i n
    split at h
    · rename_i hsmall
      rw [← Except.ok.inj h]
      intro exact hexact
      have hexact : exact = n.natAbs := by simpa [PyFloat.value] using (FloatValue.finite.inj hexact).symm
      have hbound : (n.natAbs : ℚ) < 2 ^ 53 := by exact_mod_cast hsmall
      refine ⟨⟨n.natAbs, 0, ?_, by decide, by simp [hexact]⟩, ?_⟩
      · rw [abs_of_nonneg (Int.natCast_nonneg _)]
        exact_mod_cast hsmall
      · rw [hexact, abs_of_nonneg (Nat.cast_nonneg _)]
        exact hbound.trans (pow_lt_pow_right₀ one_lt_two (by decide))
    · cases h
  · cases h

/-- The fields of an invoice of five liras. -/
def liraReply : String := "\x7b\"vendor\":\"A\",\"po_number\":\"1\",\"amount\":5,\"currency\":\"TRY\"\x7d"

/-- The invoice of five liras. -/
def liraInvoice : InvoiceFields := ⟨"A", "1", .decimal false 5 0, "TRY"⟩

/-- The order with the number of the invoice, in some currency. -/
def orderRows (currency : String) : List Json :=
  [.obj [("po_number", .str "1"), ("vendor", .str "A"), ("amount", .int 5), ("currency", .str currency)]]

set_option maxRecDepth 20000 in
/-- The invoice is read off the reply. -/
theorem parseFields_liraReply : parseFields wholeAmounts liraReply = .ok liraInvoice := by
  have hfence : fence.isPrefixOf (stripChars liraReply.toList) = false := by decide +kernel
  have hstrip : stripCodeFence liraReply = liraReply := by simp [stripCodeFence, hfence]
  have hloads : Json.loads liraReply = .ok (.obj [("vendor", .str "A"), ("po_number", .str "1"), ("amount", .int 5),
    ("currency", .str "TRY")]) := by decide +kernel
  rw [parseFields, loadsOr, hstrip, hloads]
  rfl

/-- The order is found by its number. -/
theorem findPo_orderRows (currency : String) :
    findPo wholeAmounts "1" (orderRows currency) = .ok (some ⟨"1", "A", .decimal false 5 0, currency⟩) := rfl

/-- Five liras are within a hundredth of five liras. -/
theorem within_five : Within (PyFloat.decimal false 5 0).value (PyFloat.decimal false 5 0).value := by
  norm_num [PyFloat.value, Within]

/-- An invoice that is in order is accepted. -/
theorem validatesRight_iff_lira : ValidatesRight wholeAmounts [] liraInvoice ⟨agentName, "run"⟩ (.arr (orderRows "TRY"))
    (some ⟨"1", "A", .decimal false 5 0, "TRY"⟩) := by
  apply (validatesRight_iff wholeAmounts isDouble_wholeAmounts ⟨agentName, "run"⟩ [] liraReply liraInvoice
    parseFields_liraReply (.arr (orderRows "TRY")) (orderRows "TRY") _ rfl (findPo_orderRows "TRY")).mpr
  rintro ⟨-, po, hpo, -, -, hslip⟩
  rw [← Option.some.inj hpo] at hslip
  rcases hslip with hcurrency | hwithin
  · exact hcurrency rfl
  · exact hwithin within_five

/-- An invoice in liras for an order in dollars is accepted. -/
theorem dollarOrder_not_validatesRight : parseFields wholeAmounts liraReply = .ok liraInvoice ∧
    ¬ ValidatesRight wholeAmounts [] liraInvoice ⟨agentName, "run"⟩ (.arr (orderRows "USD"))
      (some ⟨"1", "A", .decimal false 5 0, "USD"⟩) := by
  refine ⟨parseFields_liraReply, ?_⟩
  rintro ⟨result, hrun, hiff, -⟩
  obtain ⟨other, hother, hok, -⟩ := @runs_validateInvoice wholeAmounts [] liraInvoice ⟨agentName, "run"⟩
    (.arr (orderRows "USD")) (orderRows "USD") _ rfl (findPo_orderRows "USD")
  have hsame : [answered ⟨agentName, "run"⟩ (.arr (orderRows "USD"))] ++ [] =
    [answered ⟨agentName, "run"⟩ (.arr (orderRows "USD"))] ++ [] := rfl
  rw [Except.ok.inj (hrun.unique hother hsame).2] at hiff
  have hfloat := isDouble_wholeAmounts (.int 5) (.decimal false 5 0) rfl
  have hreasons : mismatchReasons wholeAmounts exceedsTolerance liraInvoice ⟨"1", "A", .decimal false 5 0, "USD"⟩ = [] :=
    mismatchReasons_eq_nil.mpr ⟨not_mismatches_of_within hfloat hfloat within_five, rfl⟩
  obtain ⟨-, po, hpo, -, hcurrency, -⟩ := hiff.mp (hok.mpr ⟨by simp, _, rfl, hreasons⟩)
  rw [← Option.some.inj hpo] at hcurrency
  exact absurd hcurrency (by decide)

end FleetWorkflow.Agents.InvoiceAgent
