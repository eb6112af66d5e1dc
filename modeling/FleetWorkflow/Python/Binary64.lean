import FleetWorkflow.Python.Json
import FleetWorkflow.Python.Numerals
import Mathlib.Data.Int.Log
import Mathlib.Data.Rat.Floor
import Mathlib.Tactic.Linarith
import Mathlib.Tactic.NormNum
import Mathlib.Tactic.Ring

/-!
# Double precision

Floats as the real numbers that they are: the doubles are the products of an integer of 53 bits and a power of two,
every operation rounds its exact result to the nearest double, and of two to the one with an even last digit. The
sign of a zero is not kept.
-/

namespace FleetWorkflow.Python

/-! ## Rounding -/

/-- The nearest integer, in the middle the even one. -/
def nearestEven (x : ℚ) : ℤ :=
  if x - ⌊x⌋ < 1 / 2 then ⌊x⌋
  else if 1 / 2 < x - ⌊x⌋ then ⌊x⌋ + 1
  else if Even ⌊x⌋ then ⌊x⌋ else ⌊x⌋ + 1

/-- An integer is nearest to itself. -/
@[simp] theorem nearestEven_intCast (n : ℤ) : nearestEven n = n := by
  simp [nearestEven]

/-- The nearest integer is one of the two around a number. -/
theorem nearestEven_bounds (x : ℚ) : ⌊x⌋ ≤ nearestEven x ∧ nearestEven x ≤ ⌊x⌋ + 1 := by
  rw [nearestEven]
  split_ifs <;> omega

/-- The nearest integer grows with the number. -/
theorem nearestEven_mono {x y : ℚ} (h : x ≤ y) : nearestEven x ≤ nearestEven y := by
  rcases (Int.floor_le_floor h).eq_or_lt with hfloor | hfloor
  · rw [nearestEven, nearestEven, hfloor]
    split_ifs <;> first | omega | (exfalso; linarith)
  · have hx := (nearestEven_bounds x).2
    have hy := (nearestEven_bounds y).1
    omega

/-- The exponent of the last digit of a double of this size. -/
def gridExponent (x : ℚ) : ℤ := max (Int.log 2 |x| - 52) (-1074)

/-- The nearest multiple of the last digit. -/
def onGrid (x : ℚ) : ℚ := nearestEven (x / 2 ^ gridExponent x) * 2 ^ gridExponent x

/-- A number on the grid of doubles, of any size. -/
def OnGrid (x : ℚ) : Prop := ∃ m e : ℤ, |m| < 2 ^ 53 ∧ -1074 ≤ e ∧ x = m * 2 ^ e

/-- A power of two above the last digit is a whole number of last digits. -/
theorem zpow_div_zpow {e f : ℤ} (h : f ≤ e) : ∃ n : ℤ, (2 : ℚ) ^ e / 2 ^ f = n := by
  refine ⟨2 ^ (e - f).toNat, ?_⟩
  rw [← zpow_sub₀ two_ne_zero]
  have hexponent : e - f = ((e - f).toNat : ℤ) := by omega
  rw [hexponent, zpow_natCast]
  norm_cast

/-- The size of a number is below the power of two after its logarithm. -/
theorem abs_lt_zpow (x : ℚ) : |x| < 2 ^ (Int.log 2 |x| + 1) := by
  have h := Int.lt_zpow_succ_log_self (R := ℚ) one_lt_two |x|
  exact_mod_cast h

/-- The power of two of its logarithm is at most the size of a number. -/
theorem zpow_le_abs {x : ℚ} (hx : x ≠ 0) : (2 : ℚ) ^ Int.log 2 |x| ≤ |x| := by
  have h := Int.zpow_log_le_self (b := 2) (R := ℚ) one_lt_two (abs_pos.mpr hx)
  exact_mod_cast h

/-- The last digit of a number on the grid is no larger than it is written with. -/
theorem gridExponent_le {m e : ℤ} (hm : |m| < 2 ^ 53) (hzero : m ≠ 0) (he : -1074 ≤ e) :
    gridExponent (m * 2 ^ e) ≤ e := by
  have hpos : (0 : ℚ) < 2 ^ e := zpow_pos two_pos _
  have hne : (m : ℚ) * 2 ^ e ≠ 0 := mul_ne_zero (by exact_mod_cast hzero) hpos.ne'
  have hsize : |(m : ℚ) * 2 ^ e| < 2 ^ (53 + e) := by
    rw [abs_mul, abs_of_pos hpos, zpow_add₀ two_ne_zero]
    apply mul_lt_mul_of_pos_right _ hpos
    exact_mod_cast hm
  have hexponents := (zpow_lt_zpow_iff_right₀ (one_lt_two (α := ℚ))).mp ((zpow_le_abs hne).trans_lt hsize)
  apply max_le _ he
  omega

/-- A number on the grid is not moved. -/
theorem onGrid_of_onGrid {x : ℚ} (h : OnGrid x) : onGrid x = x := by
  obtain ⟨m, e, hm, he, rfl⟩ := h
  by_cases hzero : m = 0
  · subst hzero
    have hnearest := nearestEven_intCast 0
    simp only [Int.cast_zero] at hnearest
    simp [onGrid, hnearest]
  · obtain ⟨n, hn⟩ := zpow_div_zpow (gridExponent_le hm hzero he)
    have hscaled : (m : ℚ) * 2 ^ e / 2 ^ gridExponent (m * 2 ^ e) = ((m * n : ℤ) : ℚ) := by
      rw [mul_div_assoc, hn]
      push_cast
      rfl
    rw [onGrid, hscaled, nearestEven_intCast, ← hscaled]
    field_simp

/-- What is rounded is no larger than a whole number of last digits that bounds it. -/
theorem onGrid_le {x bound : ℚ} {n : ℤ} (hbound : bound / 2 ^ gridExponent x = n) (h : x ≤ bound) :
    onGrid x ≤ bound := by
  have hpos : (0 : ℚ) < 2 ^ gridExponent x := zpow_pos two_pos _
  have hnearest := nearestEven_mono ((div_le_div_iff_of_pos_right hpos).mpr h)
  rw [hbound, nearestEven_intCast] at hnearest
  rw [onGrid, ← le_div_iff₀ hpos, hbound]
  exact_mod_cast hnearest

/-- What is rounded is no smaller than a whole number of last digits that it is above. -/
theorem le_onGrid {x bound : ℚ} {n : ℤ} (hbound : bound / 2 ^ gridExponent x = n) (h : bound ≤ x) :
    bound ≤ onGrid x := by
  have hpos : (0 : ℚ) < 2 ^ gridExponent x := zpow_pos two_pos _
  have hnearest := nearestEven_mono ((div_le_div_iff_of_pos_right hpos).mpr h)
  rw [hbound, nearestEven_intCast] at hnearest
  rw [onGrid, ← div_le_iff₀ hpos, hbound]
  exact_mod_cast hnearest

/-- Zero is on every grid. -/
theorem onGrid_nonneg {x : ℚ} (h : 0 ≤ x) : 0 ≤ onGrid x := by
  apply le_onGrid (n := 0) _ h
  simp

/-- Zero is on every grid. -/
theorem onGrid_nonpos {x : ℚ} (h : x ≤ 0) : onGrid x ≤ 0 := by
  apply onGrid_le (n := 0) _ h
  simp

/-- Rounding keeps the order of positive numbers. -/
theorem onGrid_mono {x y : ℚ} (hx : 0 < x) (h : x ≤ y) : onGrid x ≤ onGrid y := by
  have hy : 0 < y := hx.trans_le h
  have hlog : Int.log 2 |x| ≤ Int.log 2 |y| := by
    rw [abs_of_pos hx, abs_of_pos hy]
    exact Int.log_mono_right hx h
  rcases hlog.eq_or_lt with hlog | hlog
  · have hgrid : gridExponent x = gridExponent y := by rw [gridExponent, gridExponent, hlog]
    have hpos : (0 : ℚ) < 2 ^ gridExponent y := zpow_pos two_pos _
    rw [onGrid, onGrid, hgrid]
    apply mul_le_mul_of_nonneg_right _ hpos.le
    exact_mod_cast nearestEven_mono ((div_le_div_iff_of_pos_right hpos).mpr h)
  · -- A power of two lies between the two numbers, and it is on both grids unless both grids are the finest.
    by_cases hfine : Int.log 2 |y| - 52 ≤ -1074
    · have hgridx : gridExponent x = -1074 := max_eq_right (by omega)
      have hgridy : gridExponent y = -1074 := max_eq_right hfine
      rw [onGrid, onGrid, hgridx, hgridy]
      apply mul_le_mul_of_nonneg_right _ (zpow_pos two_pos _).le
      exact_mod_cast nearestEven_mono ((div_le_div_iff_of_pos_right (zpow_pos two_pos _)).mpr h)
    · have hxbound : x ≤ 2 ^ Int.log 2 |y| := by
        have hbelow := abs_lt_zpow x
        rw [abs_of_pos hx] at hbelow
        apply hbelow.le.trans
        rw [abs_of_pos hx] at hlog
        exact zpow_le_zpow_right₀ one_le_two (by omega)
      have hybound : (2 : ℚ) ^ Int.log 2 |y| ≤ y := (zpow_le_abs hy.ne').trans_eq (abs_of_pos hy)
      obtain ⟨n, hn⟩ := zpow_div_zpow (e := Int.log 2 |y|) (f := gridExponent x) (max_le (by omega) (by omega))
      obtain ⟨k, hk⟩ := zpow_div_zpow (e := Int.log 2 |y|) (f := gridExponent y) (max_le (by omega) (by omega))
      exact (onGrid_le hn hxbound).trans (le_onGrid hk hybound)

/-- The difference of two numbers on the grid that are close to each other is on the grid. -/
theorem OnGrid.sub_of_close {x y : ℚ} (hx : OnGrid x) (hy : OnGrid y) (h : y ≤ 2 * x) (h' : x ≤ 2 * y) :
    OnGrid (x - y) := by
  obtain ⟨m, e, hm, he, hx⟩ := hx
  obtain ⟨n, f, hn, hf, hy⟩ := hy
  -- Both are multiples of the smaller of the two last digits, and the difference is below the number that has it.
  have hsmall {k n g : ℤ} (hg : -1074 ≤ g) (hk : x - y = k * 2 ^ g) (hn : |n| < 2 ^ 53)
      (hbound : |x - y| ≤ |(n : ℚ) * 2 ^ g|) : OnGrid (x - y) := by
    have hpos : (0 : ℚ) < 2 ^ g := zpow_pos two_pos _
    refine ⟨k, g, ?_, hg, hk⟩
    rw [hk, abs_mul, abs_mul, mul_le_mul_iff_left₀ (abs_pos.mpr hpos.ne')] at hbound
    have hbound : |k| ≤ |n| := by exact_mod_cast hbound
    omega
  have hdistance : |x - y| ≤ x ∧ |x - y| ≤ y := by
    constructor
    · apply abs_le.mpr
      constructor <;> linarith
    · apply abs_le.mpr
      constructor <;> linarith
  have hnonneg : 0 ≤ x ∧ 0 ≤ y := by constructor <;> linarith
  rcases le_total e f with hef | hfe
  · obtain ⟨c, hc⟩ := zpow_div_zpow hef
    have hfactor : (2 : ℚ) ^ f = c * 2 ^ e := by rw [← hc, div_mul_cancel₀ _ (zpow_pos two_pos e).ne']
    apply hsmall (k := m - n * c) he _ hm
    · rw [← hx, abs_of_nonneg hnonneg.1]
      exact hdistance.1
    · rw [hx, hy, hfactor]
      push_cast
      ring
  · obtain ⟨c, hc⟩ := zpow_div_zpow hfe
    have hfactor : (2 : ℚ) ^ e = c * 2 ^ f := by rw [← hc, div_mul_cancel₀ _ (zpow_pos two_pos f).ne']
    apply hsmall (k := m * c - n) hf _ hn
    · rw [← hy, abs_of_nonneg hnonneg.2]
      exact hdistance.2
    · rw [hx, hy, hfactor]
      push_cast
      ring

/-! ## Values and arithmetic -/

/-- A float: an exact number, or one of the three special values. -/
inductive FloatValue where
  | finite (x : ℚ)
  | infinity (negative : Bool)
  | nan
deriving DecidableEq

/-- The power of two that no double reaches. -/
def doubleLimit : ℚ := 2 ^ 1024

/-- The limit is above one. -/
theorem one_lt_doubleLimit : 1 < doubleLimit := one_lt_pow₀ one_lt_two (by decide)

/-- The float that an exact result is rounded to. -/
def roundDouble (x : ℚ) : FloatValue :=
  if doubleLimit ≤ |onGrid x| then .infinity (x < 0) else .finite (onGrid x)

/-- A number is a double. -/
def IsDouble (x : ℚ) : Prop := OnGrid x ∧ |x| < doubleLimit

/-- A double is not rounded. -/
theorem roundDouble_of_isDouble {x : ℚ} (h : IsDouble x) : roundDouble x = .finite x := by
  rw [roundDouble, onGrid_of_onGrid h.1, if_neg (not_le.mpr h.2)]

namespace FloatValue

/-- `x - y`. -/
def sub : FloatValue → FloatValue → FloatValue
  | nan, _ | _, nan => nan
  | infinity negative, infinity negative' => if negative = negative' then nan else infinity negative
  | infinity negative, finite _ => infinity negative
  | finite _, infinity negative => infinity !negative
  | finite x, finite y => roundDouble (x - y)

/-- `abs(x)`. -/
def abs : FloatValue → FloatValue
  | nan => nan
  | infinity _ => infinity false
  | finite x => finite |x|

/-- `x / y` for a divisor that is not zero. -/
def div : FloatValue → FloatValue → FloatValue
  | nan, _ | _, nan => nan
  | infinity _, infinity _ => nan
  | infinity negative, finite y => infinity (negative ^^ decide (y < 0))
  | finite _, infinity _ => finite 0
  | finite x, finite y => roundDouble (x / y)

/-- `x > y`. -/
def gt : FloatValue → FloatValue → Bool
  | nan, _ | _, nan => false
  | infinity negative, infinity negative' => !negative && negative'
  | infinity negative, finite _ => !negative
  | finite _, infinity negative => negative
  | finite x, finite y => y < x

/-- `x * y`. -/
def mul : FloatValue → FloatValue → FloatValue
  | nan, _ | _, nan => nan
  | infinity negative, infinity negative' => infinity (negative ^^ negative')
  | infinity negative, finite x | finite x, infinity negative => if x = 0 then nan else infinity (negative ^^ decide (x < 0))
  | finite x, finite y => roundDouble (x * y)

/-- `x <= y`. -/
def le : FloatValue → FloatValue → Bool
  | nan, _ | _, nan => false
  | x, y => !x.gt y

end FloatValue

/-- The value of a float that is kept as its exact numeral. -/
def PyFloat.value : PyFloat → FloatValue
  | .decimal negative digits exponent => .finite ((if negative then -1 else 1) * digits * 10 ^ exponent)
  | .infinity negative => .infinity negative
  | .nan => .nan

/-- The double that a numeral is read as. -/
def PyFloat.double (x : PyFloat) : FloatValue :=
  match x.value with
  | .finite value => roundDouble value
  | special => special

/-- A numeral is that of a double. -/
def PyFloat.IsDouble (x : PyFloat) : Prop := ∀ value, x.value = .finite value → Python.IsDouble value

/-- A float is zero when its value is. -/
theorem PyFloat.isZero_iff (x : PyFloat) : x.isZero = true ↔ x.value = .finite 0 := by
  cases x with
  | decimal negative digits exponent =>
    have hpower : (10 : ℚ) ^ exponent ≠ 0 := zpow_ne_zero _ (by norm_num)
    cases negative <;> simp [isZero, value, hpower]
  | infinity negative => simp [isZero, value]
  | nan => simp [isZero, value]

/-!
## The numbers of decoded values

A float is held as the double nearest to its numeral, so that a numeral beyond the doubles is held as an infinity. An
integer is held exactly, however long it is.
-/

/-- A float as it is held: a numeral beyond the doubles is infinite. -/
def PyFloat.held (x : PyFloat) : PyFloat :=
  match x.double with
  | .finite _ => x
  | .infinity negative => .infinity negative
  | .nan => .nan

/-- A float is a number as it is held. -/
def PyFloat.IsFinite (x : PyFloat) : Prop := ∃ value, x.double = .finite value

/-- A float that is a number is held as its numeral. -/
theorem PyFloat.held_of_isFinite {x : PyFloat} (h : x.IsFinite) : x.held = x := by
  obtain ⟨value, hdouble⟩ := h
  rw [held, hdouble]

/-- A float that is no number is held as one of the special values. -/
theorem PyFloat.held_of_not_isFinite {x : PyFloat} (h : ¬ x.IsFinite) : x.held = .nan ∨ ∃ negative, x.held = .infinity negative := by
  rw [held]
  cases hdouble : x.double with
  | finite value => exact absurd ⟨value, hdouble⟩ h
  | infinity negative => exact .inr ⟨negative, rfl⟩
  | nan => exact .inl rfl

namespace Json

mutual

/-- A value with its floats as they are held. -/
def held : Json → Json
  | float x => float x.held
  | arr items => arr (heldItems items)
  | obj fields => obj (heldFields fields)
  | value => value

/-- The items of a list. -/
def heldItems : List Json → List Json
  | [] => []
  | item :: rest => held item :: heldItems rest

/-- The members of a dictionary. -/
def heldFields : List (String × Json) → List (String × Json)
  | [] => []
  | (key, value) :: rest => (key, held value) :: heldFields rest

end

/-- The number that a value is; a boolean is none here. -/
def number? : Json → Option ℚ
  | int n => some n
  | float x =>
    match x.value with
    | .finite value => some value
    | _ => none
  | _ => none

end Json

namespace NumberToken

/-- A token is decoded as the number that it denotes. -/
theorem number?_json (token : NumberToken) : token.json.number? = some token.value := by
  rw [json]
  split
  · rename_i hinteger
    rw [isInteger, Bool.and_eq_true, List.isEmpty_iff, Option.isNone_iff_eq_none] at hinteger
    rw [value, scale, hinteger.1, hinteger.2]
    cases token.negative <;> simp [Json.number?]
  · rfl

/-- A token is decoded as a number. -/
theorem isNumber_json (token : NumberToken) : token.json.isNumber = true := by
  rw [json]
  split
  · rfl
  · rfl

/-- A constant is none of the numbers that a token stands for. -/
theorem json_ne_constant (token : NumberToken) {constant : List Char × Json} (h : constant ∈ Json.constants) :
    token.json ≠ constant.2 := by
  have hnone : constant.2.number? = none := by
    simp only [Json.constants, List.mem_cons, List.not_mem_nil, or_false] at h
    rcases h with rfl | rfl | rfl | rfl | rfl | rfl
    all_goals rfl
  intro heq
  rw [← heq, number?_json] at hnone
  cases hnone

/-- A token that is no integer is decoded as a float with its number. -/
theorem json_of_not_isInteger {token : NumberToken} (h : token.isInteger = false) :
    ∃ x, token.json = .float x ∧ x.value = .finite token.value := by
  rw [json, h, if_neg Bool.false_ne_true]
  exact ⟨_, rfl, rfl⟩

end NumberToken

end FleetWorkflow.Python
