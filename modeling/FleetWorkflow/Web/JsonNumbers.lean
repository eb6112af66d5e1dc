import Mathlib.Data.List.Induction
import Mathlib.Data.Rat.Cast.Lemmas
import FleetWorkflow.Python.Numerals
import FleetWorkflow.Web.JsonParse

/-!
# Numbers read back

A numeral is digits without a superfluous zero in front, perhaps a fraction and perhaps an exponent. It
is read as the double nearest to its value, whichever way the value is divided into digits and exponent:
so an integer and a float that the encoder writes are read as the numbers that they are.
-/

namespace FleetWorkflow.Web

open Python

/-- A numeral without its sign. -/
structure Numeral where
  whole : List Char
  fraction : List Char
  exponent : Option (Bool × List Char)

namespace Numeral

/-- The characters of the exponent. -/
def exponentText : Option (Bool × List Char) → List Char
  | none => []
  | some (negative, digits) => 'e' :: (if negative then '-' else '+') :: digits

/-- The value of the exponent. -/
def exponentValue : Option (Bool × List Char) → ℤ
  | none => 0
  | some (negative, digits) => if negative then -(Json.digitsValue digits : ℤ) else Json.digitsValue digits

/-- The characters of a numeral. -/
def text (numeral : Numeral) : List Char :=
  numeral.whole ++ ((if numeral.fraction = [] then [] else '.' :: numeral.fraction) ++ exponentText numeral.exponent)

/-- A numeral of the grammar. -/
structure Valid (numeral : Numeral) : Prop where
  digits : ∀ c ∈ numeral.whole, isAsciiDigit c
  start : numeral.whole = ['0'] ∨ ∃ c rest, numeral.whole = c :: rest ∧ c ≠ '0'
  fraction : ∀ c ∈ numeral.fraction, isAsciiDigit c
  exponent : ∀ negative digits, numeral.exponent = some (negative, digits) → digits ≠ [] ∧ ∀ c ∈ digits, isAsciiDigit c

/-- A numeral has digits. -/
theorem Valid.whole_cons {numeral : Numeral} (h : numeral.Valid) : ∃ c digits, numeral.whole = c :: digits := by
  rcases h.start with hzero | ⟨c, digits, hcons, -⟩
  · exact ⟨'0', [], hzero⟩
  · exact ⟨c, digits, hcons⟩

end Numeral

/-- A text that ends a number: it is empty, or it starts with what can follow an item. -/
def Ends (rest : List Char) : Prop := ∀ c ∈ rest.head?, c = ',' ∨ c = ']' ∨ c = '\x7d'

/-- What ends a number is no digit. -/
theorem Ends.head {rest : List Char} (h : Ends rest) : ∀ c ∈ rest.head?, isAsciiDigit c = false := by
  intro c hc
  rcases h c hc with rfl | rfl | rfl <;> rfl

/-- An exponent is read up to the end of the number. -/
theorem scanExponent_text {exponent : Option (Bool × List Char)} {rest : List Char} (hrest : Ends rest)
    (h : ∀ negative digits, exponent = some (negative, digits) → digits ≠ [] ∧ ∀ c ∈ digits, isAsciiDigit c) :
    ((Json.scanExponent (Numeral.exponentText exponent ++ rest)).1.getD 0,
      (Json.scanExponent (Numeral.exponentText exponent ++ rest)).2) = (Numeral.exponentValue exponent, rest) := by
  cases exponent with
  | none =>
    rw [Numeral.exponentText, List.nil_append, Numeral.exponentValue]
    cases rest with
    | nil => rfl
    | cons c rest => rcases hrest c rfl with rfl | rfl | rfl <;> rfl
  | some exponent =>
    obtain ⟨negative, digits⟩ := exponent
    obtain ⟨hne, hdigits⟩ := h negative digits rfl
    rw [Numeral.exponentText, List.cons_append, List.cons_append, Json.scanExponent.eq_def]
    simp only [decide_true, Bool.true_or, if_true]
    cases negative with
    | false => simp [takeWhile_digits hdigits hrest.head, dropWhile_digits hdigits hrest.head, Numeral.exponentValue]
    | true => simp [takeWhile_digits hdigits hrest.head, dropWhile_digits hdigits hrest.head, Numeral.exponentValue]

/-- What follows the fraction of a numeral is no digit and no point. -/
theorem exponentText_head {exponent : Option (Bool × List Char)} {rest : List Char} (hrest : Ends rest) :
    ∀ c ∈ (Numeral.exponentText exponent ++ rest).head?, isAsciiDigit c = false ∧ c ≠ '.' := by
  intro c hc
  cases exponent with
  | none => rcases hrest c hc with rfl | rfl | rfl <;> exact ⟨rfl, by decide⟩
  | some exponent =>
    obtain rfl := Option.some.inj hc
    exact ⟨rfl, by decide⟩

/-- A fraction is read up to the exponent. -/
theorem scanFraction_text {fraction after : List Char} (hfraction : ∀ c ∈ fraction, isAsciiDigit c)
    (hafter : ∀ c ∈ after.head?, isAsciiDigit c = false ∧ c ≠ '.') :
    Json.scanFraction ((if fraction = [] then [] else '.' :: fraction) ++ after) = (fraction, after) :=
  Json.scanFraction_complete hfraction hafter

/-- A numeral is read up to its end. -/
theorem scanMagnitude_text {numeral : Numeral} {rest : List Char} (hvalid : numeral.Valid) (hrest : Ends rest)
    (negative : Bool) :
    scanMagnitude negative (numeral.text ++ rest) = some (.number (numberOf negative
      (Json.digitsValue (numeral.whole ++ numeral.fraction))
      (Numeral.exponentValue numeral.exponent - numeral.fraction.length)), rest) := by
  have hexponent := scanExponent_text hrest hvalid.exponent
  have hafter : ∀ c ∈ ((if numeral.fraction = [] then [] else '.' :: numeral.fraction) ++
      (Numeral.exponentText numeral.exponent ++ rest)).head?, isAsciiDigit c = false := by
    intro c hc
    split at hc
    · exact (exponentText_head hrest c hc).1
    · obtain rfl := Option.some.inj hc
      rfl
  have htext : numeral.text ++ rest = numeral.whole ++ ((if numeral.fraction = [] then [] else '.' :: numeral.fraction) ++
      (Numeral.exponentText numeral.exponent ++ rest)) := by
    simp only [Numeral.text, List.append_assoc]
  have hwhole : wholePart (numeral.text ++ rest) = numeral.whole := by
    rw [htext]
    rcases hvalid.start with hzero | ⟨c, digits, hcons, hc⟩
    · rw [hzero]
      rfl
    · have htake := takeWhile_digits hvalid.digits hafter
      rw [hcons, List.cons_append] at htake ⊢
      rw [wholePart, htake]
      rintro tail heq
      injection heq with hhead
      exact hc hhead
  have hne : numeral.whole ≠ [] := by
    obtain ⟨c, digits, hcons⟩ := hvalid.whole_cons
    rw [hcons]
    exact List.cons_ne_nil _ _
  rw [scanMagnitude]
  simp only [hwhole]
  rw [if_neg hne, htext, List.drop_left, scanFraction_text hvalid.fraction (exponentText_head hrest)]
  obtain ⟨hvalue, hlast⟩ := Prod.mk.inj hexponent
  rw [hvalue, hlast]

/-- The characters of a sign. -/
def signText (negative : Bool) : List Char := if negative then ['-'] else []

/-- A numeral with its sign is read up to its end. -/
theorem scanNumber_text {numeral : Numeral} {rest : List Char} (hvalid : numeral.Valid) (hrest : Ends rest)
    (negative : Bool) :
    scanNumber (signText negative ++ (numeral.text ++ rest)) = some (.number (numberOf negative
      (Json.digitsValue (numeral.whole ++ numeral.fraction))
      (Numeral.exponentValue numeral.exponent - numeral.fraction.length)), rest) := by
  cases negative with
  | true => exact scanMagnitude_text hvalid hrest true
  | false =>
    rw [← scanMagnitude_text hvalid hrest false, signText, if_neg Bool.false_ne_true, List.nil_append, scanNumber]
    intro body heq
    obtain ⟨c, digits, hwhole⟩ := hvalid.whole_cons
    rw [Numeral.text, hwhole] at heq
    injection heq with hc
    have hdigit := hvalid.digits c (hwhole ▸ List.mem_cons_self)
    rw [hc] at hdigit
    exact absurd hdigit (by decide)

/-! ## Digits -/

/-- The value of digits in two parts. -/
theorem digitsValue_append (digits more : List Char) :
    Json.digitsValue (digits ++ more) = Json.digitsValue digits * 10 ^ more.length + Json.digitsValue more := by
  induction more using List.reverseRecOn with
  | nil => simp [Json.digitsValue]
  | append_singleton more d ih =>
    have hlast : ∀ ds : List Char, Json.digitsValue (ds ++ [d]) = Json.digitsValue ds * 10 + (d.toNat - 48) := by
      intro ds
      simp [Json.digitsValue]
    rw [← List.append_assoc, hlast, ih, hlast, List.length_append, List.length_singleton, pow_succ]
    ring

/-- Zeros have no value. -/
theorem digitsValue_zeros (n : ℕ) : Json.digitsValue (List.replicate n '0') = 0 := by
  induction n with
  | zero => rfl
  | succ n ih =>
    rw [List.replicate_succ', digitsValue_append, ih]
    rfl

/-- The digits of a number have its value. -/
theorem digitsValue_toDigits (n : ℕ) : Json.digitsValue (Nat.toDigits 10 n) = n := by
  have hsame : ∀ (digits : List Char) (value : ℕ),
      digits.foldl (fun n d => n * 10 + (d.toNat - 48)) value = Nat.ofDigitChars 10 digits value := by
    intro digits
    induction digits with
    | nil => exact fun value => Nat.ofDigitChars_nil.symm
    | cons d digits ih =>
      intro value
      rw [List.foldl_cons, ih, Nat.ofDigitChars_cons, Nat.mul_comm]
      rfl
  rw [Json.digitsValue, hsame, Nat.ofDigitChars_ten_toDigits]

/-- The digits of a number are digits. -/
theorem isAsciiDigit_toDigits {n : ℕ} {c : Char} (h : c ∈ Nat.toDigits 10 n) : isAsciiDigit c := by
  have hdigit := Nat.isDigit_of_mem_toDigits (by decide) (by decide) h
  rw [Char.isDigit, Bool.and_eq_true, decide_eq_true_eq, decide_eq_true_eq] at hdigit
  rw [isAsciiDigit, Bool.and_eq_true, decide_eq_true_eq, decide_eq_true_eq]
  exact hdigit

/-- The digits of a number start with a zero only for zero. -/
theorem toDigits_start {n : ℕ} (h : 0 < n) : ∃ c rest, Nat.toDigits 10 n = c :: rest ∧ c ≠ '0' := by
  induction n using Nat.strong_induction_on with
  | _ n ih =>
    by_cases hsmall : n < 10
    · rw [Nat.toDigits_of_lt_base hsmall]
      have hne : ∀ d < 10, 0 < d → Nat.digitChar d ≠ '0' := by decide
      exact ⟨_, [], rfl, hne n hsmall h⟩
    · obtain ⟨c, rest, heq, hc⟩ := ih (n / 10) (by omega) (by omega)
      rw [Nat.toDigits_of_base_le (by decide) (by omega), heq]
      exact ⟨c, _, rfl, hc⟩

/-- The digits of a number are the digits before a point. -/
theorem toDigits_whole (n : ℕ) :
    Nat.toDigits 10 n = ['0'] ∨ ∃ c rest, Nat.toDigits 10 n = c :: rest ∧ c ≠ '0' := by
  rcases Nat.eq_zero_or_pos n with rfl | hpos
  · exact .inl rfl
  · exact .inr (toDigits_start hpos)

/-- An integer is read as the number that it is. -/
theorem scanNumber_reprInt (n : ℤ) {rest : List Char} (hrest : Ends rest) :
    scanNumber (reprInt n ++ rest) = some (ofPython (.int n), rest) := by
  have hvalid : Numeral.Valid ⟨Nat.toDigits 10 n.natAbs, [], none⟩ :=
    ⟨fun c hc => isAsciiDigit_toDigits hc, toDigits_whole _, by simp, by simp⟩
  have hscan := scanNumber_text hvalid hrest (decide (n < 0))
  rw [List.append_nil, digitsValue_toDigits] at hscan
  rw [ofPython]
  convert hscan using 2
  · rw [reprInt, signText, Numeral.text]
    by_cases hn : n < 0
    · simp [hn, Numeral.exponentText]
    · simp [hn, Numeral.exponentText]
  · rfl

/-! ## Floats -/

/-- A numeral stands for a float: the float is written so, and it has the number of the numeral. -/
structure Writes (negative : Bool) (digits : ℕ) (exponent : ℤ) (numeral : Numeral) : Prop where
  text : reprFloat (.decimal negative digits exponent) = signText negative ++ numeral.text
  valid : numeral.Valid
  value : (Json.digitsValue (numeral.whole ++ numeral.fraction) : ℚ) *
    10 ^ (Numeral.exponentValue numeral.exponent - numeral.fraction.length) = digits * 10 ^ exponent

/-- A numeral without an exponent. -/
theorem Numeral.Valid.plain {whole fraction : List Char} (hwhole : ∀ c ∈ whole, isAsciiDigit c)
    (hstart : whole = ['0'] ∨ ∃ c rest, whole = c :: rest ∧ c ≠ '0') (hfraction : ∀ c ∈ fraction, isAsciiDigit c) :
    Numeral.Valid ⟨whole, fraction, none⟩ :=
  ⟨hwhole, hstart, hfraction, fun _ _ h => by cases h⟩

section Float

variable {digits : ℕ} {exponent : ℤ} (negative : Bool)

/-- A float that is not zero is written by its digits. -/
theorem reprFloat_pos (hdigits : 0 < digits) : reprFloat (.decimal negative digits exponent) =
    signText negative ++ reprDigits (Nat.toDigits 10 digits) ((Nat.toDigits 10 digits).length + exponent) := by
  have hne : digits ≠ 0 := by omega
  simp only [reprFloat, signText, if_neg hne]

/-- A float that is zero. -/
theorem writes_zero : Writes negative 0 exponent ⟨['0'], ['0'], none⟩ where
  text := by simp [reprFloat, signText, Numeral.text, Numeral.exponentText]
  valid := Numeral.Valid.plain (by simp; rfl) (.inl rfl) (by simp; rfl)
  value := by simp [Json.digitsValue]

/-- A float below one. -/
theorem writes_small (hdigits : 0 < digits) (hfixed : -4 < (Nat.toDigits 10 digits).length + exponent ∧
      (Nat.toDigits 10 digits).length + exponent ≤ 16)
    (hpoint : (Nat.toDigits 10 digits).length + exponent ≤ 0) : Writes negative digits exponent
      ⟨['0'], List.replicate (-((Nat.toDigits 10 digits).length + exponent)).toNat '0' ++ Nat.toDigits 10 digits, none⟩ where
  text := by
    rw [reprFloat_pos negative hdigits, reprDigits, if_pos hfixed, if_pos hpoint, Numeral.text]
    simp [Numeral.exponentText, Nat.toDigits_ne_nil]
  valid := by
    apply Numeral.Valid.plain (by simp; rfl) (.inl rfl)
    intro c hc
    rcases List.mem_append.mp hc with hzero | hdigit
    · rw [List.eq_of_mem_replicate hzero]
      rfl
    · exact isAsciiDigit_toDigits hdigit
  value := by
    have hvalue : Json.digitsValue (['0'] ++ (List.replicate (-((Nat.toDigits 10 digits).length + exponent)).toNat '0' ++
        Nat.toDigits 10 digits)) = digits := by
      rw [digitsValue_append, digitsValue_append, digitsValue_zeros, digitsValue_toDigits]
      simp [Json.digitsValue]
    rw [hvalue, Numeral.exponentValue, List.length_append, List.length_replicate]
    congr 2
    omega

/-- A float with its point between its digits. -/
theorem writes_pointed (hdigits : 0 < digits) (hfixed : -4 < (Nat.toDigits 10 digits).length + exponent ∧
      (Nat.toDigits 10 digits).length + exponent ≤ 16)
    (hpoint : ¬ (Nat.toDigits 10 digits).length + exponent ≤ 0) (hexponent : exponent < 0) : Writes negative digits exponent
      ⟨(Nat.toDigits 10 digits).take ((Nat.toDigits 10 digits).length + exponent).toNat,
        (Nat.toDigits 10 digits).drop ((Nat.toDigits 10 digits).length + exponent).toNat, none⟩ where
  text := by
    have hfraction : (Nat.toDigits 10 digits).drop ((Nat.toDigits 10 digits).length + exponent).toNat ≠ [] := by
      rw [Ne, List.drop_eq_nil_iff]
      omega
    rw [reprFloat_pos negative hdigits, reprDigits, if_pos hfixed, if_neg hpoint, if_pos (by omega), Numeral.text]
    simp only [if_neg hfraction, Numeral.exponentText, List.append_nil]
  valid := by
    apply Numeral.Valid.plain
    · exact fun c hc => isAsciiDigit_toDigits (List.mem_of_mem_take hc)
    · obtain ⟨c, rest, heq, hc⟩ := toDigits_start hdigits
      obtain ⟨n, hn⟩ : ∃ n, ((Nat.toDigits 10 digits).length + exponent).toNat = n + 1 :=
        ⟨((Nat.toDigits 10 digits).length + exponent).toNat - 1, by omega⟩
      rw [hn, heq]
      exact .inr ⟨c, rest.take n, rfl, hc⟩
    · exact fun c hc => isAsciiDigit_toDigits (List.mem_of_mem_drop hc)
  value := by
    rw [List.take_append_drop, digitsValue_toDigits, Numeral.exponentValue, List.length_drop]
    congr 2
    omega

/-- A float without digits behind its point. -/
theorem writes_whole (hdigits : 0 < digits) (hfixed : -4 < (Nat.toDigits 10 digits).length + exponent ∧
      (Nat.toDigits 10 digits).length + exponent ≤ 16) (hexponent : 0 ≤ exponent) : Writes negative digits exponent
      ⟨Nat.toDigits 10 digits ++ List.replicate (((Nat.toDigits 10 digits).length + exponent).toNat -
        (Nat.toDigits 10 digits).length) '0', ['0'], none⟩ where
  text := by
    have hlength := Nat.length_toDigits_pos (b := 10) (n := digits)
    rw [reprFloat_pos negative hdigits, reprDigits, if_pos hfixed, if_neg (by omega), if_neg (by omega), Numeral.text]
    simp [Numeral.exponentText]
  valid := by
    apply Numeral.Valid.plain
    · intro c hc
      rcases List.mem_append.mp hc with hdigit | hzero
      · exact isAsciiDigit_toDigits hdigit
      · rw [List.eq_of_mem_replicate hzero]
        rfl
    · obtain ⟨c, rest, heq, hc⟩ := toDigits_start hdigits
      rw [heq]
      exact .inr ⟨c, _, rfl, hc⟩
    · simp
      rfl
  value := by
    obtain ⟨n, rfl⟩ := Int.eq_ofNat_of_zero_le hexponent
    have hzeros : ((Nat.toDigits 10 digits).length + (n : ℤ)).toNat - (Nat.toDigits 10 digits).length = n := by omega
    rw [hzeros, digitsValue_append, digitsValue_append, digitsValue_toDigits, digitsValue_zeros, Numeral.exponentValue]
    simp [Json.digitsValue]

/-- The digits of an exponent, two at least. -/
def powerDigits (n : ℕ) : List Char :=
  if (Nat.toDigits 10 n).length = 1 then '0' :: Nat.toDigits 10 n else Nat.toDigits 10 n

/-- The digits of an exponent have its value. -/
theorem digitsValue_powerDigits (n : ℕ) : Json.digitsValue (powerDigits n) = n := by
  rw [powerDigits]
  split
  · rw [← List.singleton_append, digitsValue_append, digitsValue_toDigits]
    simp [Json.digitsValue]
  · exact digitsValue_toDigits n

/-- The digits of an exponent are digits. -/
theorem powerDigits_digits (n : ℕ) : powerDigits n ≠ [] ∧ ∀ c ∈ powerDigits n, isAsciiDigit c := by
  rw [powerDigits]
  split
  · refine ⟨List.cons_ne_nil _ _, fun c hc => ?_⟩
    rcases List.mem_cons.mp hc with rfl | hc
    · rfl
    · exact isAsciiDigit_toDigits hc
  · exact ⟨Nat.toDigits_ne_nil, fun c hc => isAsciiDigit_toDigits hc⟩

/-- A float with an exponent. -/
theorem writes_scientific (hdigits : 0 < digits) (hfixed : ¬ (-4 < (Nat.toDigits 10 digits).length + exponent ∧
      (Nat.toDigits 10 digits).length + exponent ≤ 16)) : Writes negative digits exponent
      ⟨(Nat.toDigits 10 digits).take 1, (Nat.toDigits 10 digits).drop 1,
        some (decide ((Nat.toDigits 10 digits).length + exponent - 1 < 0),
          powerDigits ((Nat.toDigits 10 digits).length + exponent - 1).natAbs)⟩ where
  text := by
    have hlength := Nat.length_toDigits_pos (b := 10) (n := digits)
    have hnil : (Nat.toDigits 10 digits).drop 1 = [] ↔ (Nat.toDigits 10 digits).length = 1 := by
      rw [List.drop_eq_nil_iff]
      omega
    rw [reprFloat_pos negative hdigits, reprDigits, if_neg hfixed, Numeral.text]
    simp only [hnil, Numeral.exponentText, decide_eq_true_eq, powerDigits, List.append_assoc, List.cons_append,
      List.nil_append]
  valid := by
    obtain ⟨c, rest, heq, hc⟩ := toDigits_start hdigits
    constructor
    · exact fun c hc => isAsciiDigit_toDigits (List.mem_of_mem_take hc)
    · rw [heq]
      exact .inr ⟨c, [], rfl, hc⟩
    · exact fun c hc => isAsciiDigit_toDigits (List.mem_of_mem_drop hc)
    · rintro negative' ds ⟨⟩
      exact powerDigits_digits _
  value := by
    have hlength := Nat.length_toDigits_pos (b := 10) (n := digits)
    rw [List.take_append_drop, digitsValue_toDigits, Numeral.exponentValue, digitsValue_powerDigits, List.length_drop]
    congr 2
    split
    · rename_i hneg
      rw [decide_eq_true_eq] at hneg
      omega
    · rename_i hpos
      rw [decide_eq_true_eq] at hpos
      omega

/-- Every float that is a number is written as a numeral of its value. -/
theorem exists_writes (digits : ℕ) (exponent : ℤ) : ∃ numeral, Writes negative digits exponent numeral := by
  rcases Nat.eq_zero_or_pos digits with rfl | hdigits
  · exact ⟨_, writes_zero negative⟩
  · by_cases hfixed : -4 < (Nat.toDigits 10 digits).length + exponent ∧ (Nat.toDigits 10 digits).length + exponent ≤ 16
    · by_cases hpoint : (Nat.toDigits 10 digits).length + exponent ≤ 0
      · exact ⟨_, writes_small negative hdigits hfixed hpoint⟩
      · by_cases hexponent : exponent < 0
        · exact ⟨_, writes_pointed negative hdigits hfixed hpoint hexponent⟩
        · exact ⟨_, writes_whole negative hdigits hfixed (by omega)⟩
    · exact ⟨_, writes_scientific negative hdigits hfixed⟩

/-- A float that is a number is read as the number that it is. -/
theorem scanNumber_reprFloat (exponent : ℤ) {rest : List Char} (hrest : Ends rest) :
    scanNumber (reprFloat (.decimal negative digits exponent) ++ rest) =
      some (ofPython (.float (.decimal negative digits exponent)), rest) := by
  obtain ⟨numeral, hwrites⟩ := exists_writes negative digits exponent
  rw [hwrites.text, List.append_assoc, scanNumber_text hwrites.valid hrest, numberOf, hwrites.value]
  rfl

end Float

end FleetWorkflow.Web
