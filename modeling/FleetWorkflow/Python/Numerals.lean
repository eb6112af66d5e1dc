import Mathlib.Data.List.TakeWhile
import Mathlib.Data.Rat.Defs
import FleetWorkflow.Flow.Fallible
import FleetWorkflow.Python.Json

/-!
# Numbers of the JSON grammar

A number is a sign, digits without a superfluous zero in front, perhaps a fraction and perhaps an exponent. The decoder
reads exactly these tokens as numbers, each as the number that it denotes, and besides them five words that are read as
numbers of Python although they are none of the grammar.
-/

namespace FleetWorkflow.Python

open Flow

/-! ## Runs of digits -/

/-- Digits are taken up to what is no digit. -/
theorem takeWhile_digits {digits rest : List Char} (hdigits : ∀ c ∈ digits, isAsciiDigit c)
    (hrest : ∀ c ∈ rest.head?, isAsciiDigit c = false) : (digits ++ rest).takeWhile isAsciiDigit = digits :=
  (takeWhile_run hdigits hrest).1

/-- Digits are dropped up to what is no digit. -/
theorem dropWhile_digits {digits rest : List Char} (hdigits : ∀ c ∈ digits, isAsciiDigit c)
    (hrest : ∀ c ∈ rest.head?, isAsciiDigit c = false) : (digits ++ rest).dropWhile isAsciiDigit = rest :=
  (takeWhile_run hdigits hrest).2

/-- A run of digits and what follows it. -/
theorem takeWhile_append_dropWhile_digits (cs : List Char) :
    (∀ c ∈ cs.takeWhile isAsciiDigit, isAsciiDigit c) ∧
      cs = cs.takeWhile isAsciiDigit ++ cs.dropWhile isAsciiDigit :=
  ⟨fun _ hc => (List.mem_takeWhile_imp hc), (List.takeWhile_append_dropWhile).symm⟩

/-- A digit is different from what is none. -/
theorem isAsciiDigit_ne {c d : Char} (hc : isAsciiDigit c) (hd : isAsciiDigit d = false) : c ≠ d := by
  rintro rfl
  rw [hc] at hd
  cases hd

/-! ## Tokens -/

/-- The exponent of a number: its letter, perhaps a sign, and digits. -/
structure ExponentPart where
  capital : Bool
  sign : Option Bool
  digits : List Char
  digits_ne_nil : digits ≠ []
  isAsciiDigit_digits : ∀ c ∈ digits, isAsciiDigit c

namespace ExponentPart

/-- The characters of the sign; the sign that is true is the minus. -/
def signText : Option Bool → List Char
  | none => []
  | some negative => [if negative then '-' else '+']

/-- The characters of an exponent. -/
def text (part : ExponentPart) : List Char := (if part.capital then 'E' else 'e') :: (signText part.sign ++ part.digits)

/-- The number of an exponent. -/
def value (part : ExponentPart) : ℤ :=
  if part.sign = some true then -(Json.digitsValue part.digits : ℤ) else Json.digitsValue part.digits

end ExponentPart

/-- A number of the grammar. -/
structure NumberToken where
  negative : Bool
  whole : List Char
  fraction : List Char
  exponent : Option ExponentPart
  isAsciiDigit_whole : ∀ c ∈ whole, isAsciiDigit c
  whole_start : whole = ['0'] ∨ ∃ c rest, whole = c :: rest ∧ c ≠ '0'
  isAsciiDigit_fraction : ∀ c ∈ fraction, isAsciiDigit c

namespace NumberToken

/-- The characters of a fraction, which has digits where there is one. -/
def fractionText (fraction : List Char) : List Char := if fraction = [] then [] else '.' :: fraction

/-- The characters of an exponent, if there is one. -/
def exponentText (exponent : Option ExponentPart) : List Char := (exponent.map ExponentPart.text).getD []

/-- The characters of a number. -/
def text (token : NumberToken) : List Char :=
  (if token.negative then ['-'] else []) ++
    (token.whole ++ (fractionText token.fraction ++ exponentText token.exponent))

/-- The power of ten by which the digits of a number are scaled. -/
def scale (token : NumberToken) : ℤ := (token.exponent.map ExponentPart.value).getD 0 - token.fraction.length

/-- The number that a token denotes. -/
def value (token : NumberToken) : ℚ :=
  (if token.negative then -1 else 1) * Json.digitsValue (token.whole ++ token.fraction) * 10 ^ token.scale

/-- A token without a fraction and an exponent is an integer. -/
def isInteger (token : NumberToken) : Bool := token.fraction.isEmpty && token.exponent.isNone

/-- The value that is decoded from a token. -/
def json (token : NumberToken) : Json :=
  if token.isInteger then
    .int (if token.negative then -(Json.digitsValue token.whole : ℤ) else Json.digitsValue token.whole)
  else .float (.decimal token.negative (Json.digitsValue (token.whole ++ token.fraction)) token.scale)

/-- A number has digits. -/
theorem whole_cons (token : NumberToken) : ∃ c digits, token.whole = c :: digits := by
  rcases token.whole_start with hzero | ⟨c, digits, hcons, -⟩
  · exact ⟨'0', [], hzero⟩
  · exact ⟨c, digits, hcons⟩

/-- A number starts with a digit, or with a minus and a digit. -/
theorem text_cons (token : NumberToken) : ∃ c cs, token.text = c :: cs ∧
    (isAsciiDigit c = true ∨ c = '-' ∧ ∃ d ds, cs = d :: ds ∧ isAsciiDigit d = true) := by
  obtain ⟨d, ds, hwhole⟩ := token.whole_cons
  have hdigit := token.isAsciiDigit_whole d (hwhole ▸ List.mem_cons_self)
  rw [text, hwhole]
  cases token.negative with
  | true => exact ⟨'-', _, rfl, .inr ⟨rfl, d, _, rfl, hdigit⟩⟩
  | false => exact ⟨d, _, rfl, .inl hdigit⟩

end NumberToken

namespace Json

/-! ## What is read is a token -/

/-- The sign of an exponent, and what follows it. -/
def exponentSign : List Char → Option Bool × List Char
  | '-' :: more => (some true, more)
  | '+' :: more => (some false, more)
  | more => (none, more)

/-- A sign is its characters. -/
theorem exponentSign_sound (cs : List Char) :
    cs = ExponentPart.signText (exponentSign cs).1 ++ (exponentSign cs).2 := by
  unfold exponentSign
  split
  · rfl
  · rfl
  · rfl

/-- The digits of an exponent, or the text as it was. -/
theorem exponentBody_eq (negative : Bool) (body before : List Char) :
    (match body.takeWhile isAsciiDigit with
      | [] => (none, before)
      | digits => (some (if negative then -(digitsValue digits : ℤ) else digitsValue digits),
          body.dropWhile isAsciiDigit) : Option ℤ × List Char) =
    if body.takeWhile isAsciiDigit = [] then (none, before)
    else (some (if negative then -(digitsValue (body.takeWhile isAsciiDigit) : ℤ)
      else digitsValue (body.takeWhile isAsciiDigit)), body.dropWhile isAsciiDigit) := by
  cases body.takeWhile isAsciiDigit with
  | nil => rfl
  | cons c digits => rfl

/-- An exponent is read by its letter, its sign and its digits. -/
theorem scanExponent_cons (e : Char) (cs : List Char) : scanExponent (e :: cs) =
    if e = 'e' ∨ e = 'E' then
      if (exponentSign cs).2.takeWhile isAsciiDigit = [] then (none, e :: cs)
      else (some (if (exponentSign cs).1 = some true then -(digitsValue ((exponentSign cs).2.takeWhile isAsciiDigit) : ℤ)
        else digitsValue ((exponentSign cs).2.takeWhile isAsciiDigit)), (exponentSign cs).2.dropWhile isAsciiDigit)
    else (none, e :: cs) := by
  by_cases hletter : e = 'e' ∨ e = 'E'
  · rw [if_pos hletter, scanExponent.eq_def]
    simp only [Bool.or_eq_true, decide_eq_true_eq, if_pos hletter]
    fun_cases exponentSign cs with
    | case1 more => exact exponentBody_eq true more _
    | case2 more => exact exponentBody_eq false more _
    | case3 _ hminus hplus =>
      have hplain := exponentBody_eq false cs (e :: cs)
      simp only [Bool.false_eq_true, if_false] at hplain
      simp only [reduceCtorEq, if_false]
      exact hplain
  · rw [if_neg hletter, scanExponent.eq_def]
    simp only [Bool.or_eq_true, decide_eq_true_eq, if_neg hletter]

/-- An exponent that is read is one of the grammar. -/
theorem scanExponent_sound {cs rest : List Char} {exponent : Option ℤ} (h : scanExponent cs = (exponent, rest)) :
    ∃ part : Option ExponentPart, cs = NumberToken.exponentText part ++ rest ∧ exponent = part.map ExponentPart.value := by
  cases cs with
  | nil =>
    cases h
    exact ⟨none, rfl, rfl⟩
  | cons e cs =>
    rw [scanExponent_cons] at h
    split at h
    · rename_i hletter
      obtain ⟨hdigits, hsplit⟩ := takeWhile_append_dropWhile_digits (exponentSign cs).2
      split at h
      · cases h
        exact ⟨none, rfl, rfl⟩
      · rename_i hne
        cases h
        refine ⟨some ⟨decide (e = 'E'), (exponentSign cs).1, _, hne, hdigits⟩, ?_, rfl⟩
        rw [NumberToken.exponentText, Option.map_some, Option.getD_some, ExponentPart.text, List.cons_append,
          List.append_assoc, ← hsplit, ← exponentSign_sound]
        rcases hletter with rfl | rfl
        · rfl
        · rfl
    · cases h
      exact ⟨none, rfl, rfl⟩

/-- A fraction that is read is one of the grammar. -/
theorem scanFraction_sound {cs rest fraction : List Char} (h : scanFraction cs = (fraction, rest)) :
    (∀ c ∈ fraction, isAsciiDigit c) ∧ cs = NumberToken.fractionText fraction ++ rest := by
  unfold scanFraction at h
  split at h
  · rename_i body
    obtain ⟨hdigits, hsplit⟩ := takeWhile_append_dropWhile_digits body
    split at h
    · cases h
      exact ⟨fun c hc => (by cases hc), rfl⟩
    · rename_i hne
      cases h
      refine ⟨hdigits, ?_⟩
      rw [NumberToken.fractionText, if_neg (fun hnil => hne hnil), List.cons_append, ← hsplit]
  · cases h
    exact ⟨fun c hc => (by cases hc), rfl⟩

/-- The sign of a number, and what follows it. -/
def numberSign : List Char → Bool × List Char
  | '-' :: more => (true, more)
  | more => (false, more)

/-- The digits before the point: a zero stands alone. -/
def wholeDigits : List Char → List Char
  | '0' :: _ => ['0']
  | more => more.takeWhile isAsciiDigit

/-- A number is read by its sign, its digits, its fraction and its exponent. -/
theorem scanNumber_eq (cs : List Char) : scanNumber cs =
    let body := (numberSign cs).2
    let whole := wholeDigits body
    let fraction := scanFraction (body.drop whole.length)
    let exponent := scanExponent fraction.2
    if whole = [] then .error .decode
    else if fraction.1 = [] && exponent.1 = none then
      if maxIntDigits < whole.length then .error .intDigits
      else .ok (int (if (numberSign cs).1 then -(digitsValue whole : ℤ) else digitsValue whole), exponent.2)
    else .ok (float (.decimal (numberSign cs).1 (digitsValue (whole ++ fraction.1))
      (exponent.1.getD 0 - fraction.1.length)), exponent.2) := rfl

/-- A sign is its characters. -/
theorem numberSign_sound (cs : List Char) :
    cs = (if (numberSign cs).1 then ['-'] else []) ++ (numberSign cs).2 := by
  unfold numberSign
  split
  · rfl
  · rfl

/-- The digits before the point are those of a number, if there are any. -/
theorem wholeDigits_sound (body : List Char) : body = wholeDigits body ++ body.drop (wholeDigits body).length ∧
    (∀ c ∈ wholeDigits body, isAsciiDigit c) ∧
    (wholeDigits body ≠ [] → wholeDigits body = ['0'] ∨ ∃ c rest, wholeDigits body = c :: rest ∧ c ≠ '0') := by
  fun_cases wholeDigits body with
  | case1 rest => exact ⟨rfl, by simp; rfl, fun _ => .inl rfl⟩
  | case2 _ hzero =>
    obtain ⟨hdigits, -⟩ := takeWhile_append_dropWhile_digits body
    refine ⟨(List.prefix_iff_eq_append.mp (List.takeWhile_prefix _)).symm, hdigits, fun hne => ?_⟩
    cases body with
    | nil => exact absurd rfl hne
    | cons c rest =>
      rw [List.takeWhile_cons] at hne ⊢
      split
      · exact .inr ⟨c, _, rfl, fun hc => hzero rest (by rw [hc])⟩
      · rename_i hdigit
        rw [if_neg hdigit] at hne
        exact absurd rfl hne

/-- A number that is read is a token of the grammar. -/
theorem scanNumber_sound {cs rest : List Char} {value : Json} (h : scanNumber cs = .ok (value, rest)) :
    ∃ token : NumberToken, cs = token.text ++ rest ∧ value = token.json := by
  rw [scanNumber_eq] at h
  obtain ⟨hbody, hdigits, hstart⟩ := wholeDigits_sound (numberSign cs).2
  have hsign := numberSign_sound cs
  rcases hscanned : scanFraction ((numberSign cs).2.drop (wholeDigits (numberSign cs).2).length) with ⟨fraction, after⟩
  rcases hended : scanExponent after with ⟨exponent, last⟩
  obtain ⟨hfraction, hafter⟩ := scanFraction_sound hscanned
  obtain ⟨part, hlast, rfl⟩ := scanExponent_sound hended
  simp only [hscanned, hended] at h
  split at h
  · cases h
  · rename_i hne
    have htext : cs =
        NumberToken.text ⟨(numberSign cs).1, _, fraction, part, hdigits, hstart hne, hfraction⟩ ++ last := by
      rw [NumberToken.text, List.append_assoc, List.append_assoc, List.append_assoc, ← hlast, ← hafter, ← hbody]
      exact hsign
    have hinteger : NumberToken.isInteger ⟨(numberSign cs).1, _, fraction, part, hdigits, hstart hne, hfraction⟩ =
        (decide (fraction = []) && decide (part.map ExponentPart.value = none)) := by
      cases fraction <;> cases part <;> rfl
    rw [← hinteger] at h
    split at h
    · rename_i hinteger
      split at h
      · cases h
      · cases h
        exact ⟨_, htext, by rw [NumberToken.json, if_pos hinteger]⟩
    · rename_i hinteger
      cases h
      exact ⟨_, htext, by rw [NumberToken.json, if_neg hinteger]; rfl⟩

/-! ## Tokens are read -/

/-- What can follow a number: nothing, or a character that does not go on with it. -/
def EndsNumber (rest : List Char) : Prop :=
  ∀ c ∈ rest.head?, isAsciiDigit c = false ∧ c ≠ '.' ∧ c ≠ 'e' ∧ c ≠ 'E'

/-- A sign before digits is read. -/
theorem exponentSign_complete (sign : Option Bool) {digits : List Char} (hne : digits ≠ [])
    (hdigits : ∀ c ∈ digits, isAsciiDigit c) (rest : List Char) :
    exponentSign (ExponentPart.signText sign ++ (digits ++ rest)) = (sign, digits ++ rest) := by
  cases sign with
  | none =>
    obtain ⟨c, digits, rfl⟩ := List.exists_cons_of_ne_nil hne
    have hdigit := hdigits c List.mem_cons_self
    rw [ExponentPart.signText, List.nil_append, List.cons_append, exponentSign.eq_3]
    · rintro more ⟨⟩
      exact absurd hdigit (by decide)
    · rintro more ⟨⟩
      exact absurd hdigit (by decide)
  | some negative => cases negative <;> rfl

/-- An exponent is read up to the end of the number. -/
theorem scanExponent_complete (part : Option ExponentPart) {rest : List Char} (hrest : EndsNumber rest) :
    scanExponent (NumberToken.exponentText part ++ rest) = (part.map ExponentPart.value, rest) := by
  cases part with
  | none =>
    rw [NumberToken.exponentText, Option.map_none, Option.getD_none, List.nil_append]
    cases rest with
    | nil => rfl
    | cons c rest =>
      obtain ⟨-, -, he, hcapital⟩ := hrest c rfl
      rw [scanExponent_cons, if_neg (by simp [he, hcapital])]
      rfl
  | some part =>
    have hdigit : ∀ c ∈ rest.head?, isAsciiDigit c = false := fun c hc => (hrest c hc).1
    have hletter : (if part.capital then 'E' else 'e') = 'e' ∨ (if part.capital then 'E' else 'e') = 'E' := by
      cases part.capital <;> decide
    rw [NumberToken.exponentText, Option.map_some, Option.getD_some, ExponentPart.text, List.cons_append,
      List.append_assoc, scanExponent_cons, if_pos hletter,
      exponentSign_complete _ part.digits_ne_nil part.isAsciiDigit_digits,
      takeWhile_digits part.isAsciiDigit_digits hdigit, dropWhile_digits part.isAsciiDigit_digits hdigit,
      if_neg part.digits_ne_nil]
    rfl

/-- What follows the fraction of a number is no digit and no point. -/
theorem exponentText_ends (part : Option ExponentPart) {rest : List Char} (hrest : EndsNumber rest) :
    ∀ c ∈ (NumberToken.exponentText part ++ rest).head?, isAsciiDigit c = false ∧ c ≠ '.' := by
  intro c hc
  cases part with
  | none => exact ⟨(hrest c hc).1, (hrest c hc).2.1⟩
  | some part =>
    obtain rfl := Option.some.inj hc
    cases part.capital <;> exact ⟨rfl, by decide⟩

/-- A fraction is read up to what is no digit and no point. -/
theorem scanFraction_complete {fraction after : List Char} (hfraction : ∀ c ∈ fraction, isAsciiDigit c)
    (hafter : ∀ c ∈ after.head?, isAsciiDigit c = false ∧ c ≠ '.') :
    scanFraction (NumberToken.fractionText fraction ++ after) = (fraction, after) := by
  have hhead : ∀ c ∈ after.head?, isAsciiDigit c = false := fun c hc => (hafter c hc).1
  rw [NumberToken.fractionText]
  split
  · rename_i hnil
    rw [hnil, List.nil_append]
    cases after with
    | nil => rfl
    | cons c after =>
      rw [scanFraction.eq_def]
      split
      · rename_i heq
        injection heq with hc
        exact absurd hc (hafter c rfl).2
      · rfl
  · rename_i hne
    rw [List.cons_append, scanFraction, takeWhile_digits hfraction hhead, dropWhile_digits hfraction hhead]
    cases fraction with
    | nil => exact absurd rfl hne
    | cons c fraction => rfl

/-- The digits before the point are read up to what is no digit. -/
theorem wholeDigits_complete (token : NumberToken) {after : List Char} (hafter : ∀ c ∈ after.head?, isAsciiDigit c = false) :
    wholeDigits (token.whole ++ after) = token.whole := by
  rcases token.whole_start with hzero | ⟨c, digits, hcons, hc⟩
  · rw [hzero]
    rfl
  · have htake := takeWhile_digits token.isAsciiDigit_whole hafter
    rw [hcons, List.cons_append] at htake ⊢
    rw [wholeDigits, htake]
    rintro tail ⟨⟩
    exact hc rfl

/-- The sign of a number is read. -/
theorem numberSign_complete (token : NumberToken) (after : List Char) :
    numberSign ((if token.negative then ['-'] else []) ++ (token.whole ++ after)) = (token.negative, token.whole ++ after) := by
  cases token.negative with
  | true => rfl
  | false =>
    obtain ⟨c, digits, hcons⟩ := token.whole_cons
    have hdigit := token.isAsciiDigit_whole c (hcons ▸ List.mem_cons_self)
    rw [if_neg Bool.false_ne_true, List.nil_append, hcons, List.cons_append, numberSign.eq_2]
    rintro more ⟨⟩
    exact absurd hdigit (by decide)

/-- A token of the grammar is read up to its end, unless it is an integer of more digits than `int` converts. -/
theorem scanNumber_complete (token : NumberToken) {rest : List Char} (hrest : EndsNumber rest)
    (hlength : token.whole.length ≤ maxIntDigits) : scanNumber (token.text ++ rest) = .ok (token.json, rest) := by
  have hafter : ∀ c ∈ (NumberToken.fractionText token.fraction ++ (NumberToken.exponentText token.exponent ++ rest)).head?,
      isAsciiDigit c = false := by
    rw [NumberToken.fractionText]
    split
    · exact fun c hc => (exponentText_ends token.exponent hrest c hc).1
    · rintro c ⟨⟩
      rfl
  have hne : token.whole ≠ [] := by
    obtain ⟨c, digits, hcons⟩ := token.whole_cons
    rw [hcons]
    exact List.cons_ne_nil _ _
  have hinteger : token.isInteger =
      (decide (token.fraction = []) && decide (token.exponent.map ExponentPart.value = none)) := by
    rw [NumberToken.isInteger]
    cases token.fraction <;> cases token.exponent <;> rfl
  rw [NumberToken.text, List.append_assoc, List.append_assoc, List.append_assoc, scanNumber_eq, numberSign_complete]
  simp only [wholeDigits_complete token hafter]
  rw [if_neg hne, List.drop_left, scanFraction_complete token.isAsciiDigit_fraction (exponentText_ends _ hrest)]
  simp only [scanExponent_complete _ hrest, ← hinteger, NumberToken.json]
  rw [if_neg (not_lt.mpr hlength)]
  split
  · rfl
  · rfl

/-! ## Whole texts -/

/-- A text is a token between blanks. -/
def Spells (text : String) (token : List Char) : Prop :=
  ∃ before after, (∀ c ∈ before, isJsonSpace c) ∧ (∀ c ∈ after, isJsonSpace c) ∧
    text.toList = before ++ (token ++ after)

/-- Blanks before a token are skipped. -/
theorem skipSpace_append {before cs : List Char} (hbefore : ∀ c ∈ before, isJsonSpace c)
    (hcs : ∀ c ∈ cs.head?, isJsonSpace c = false) : skipSpace (before ++ cs) = cs := by
  rw [skipSpace, List.dropWhile_append_of_pos hbefore]
  cases cs with
  | nil => rfl
  | cons c cs => rw [List.dropWhile_cons, hcs c rfl, if_neg Bool.false_ne_true]

/-- A text is read as the value of its only token. -/
theorem loads_of_spells {text : String} {token : List Char} {value : Json} (h : Spells text token) (hne : token ≠ [])
    (hhead : ∀ c ∈ token.head?, isJsonSpace c = false)
    (hscan : ∀ fuel after, (∀ c ∈ after, isJsonSpace c) → scanValue (fuel + 1) (token ++ after) = .ok (value, after)) :
    loads text = .ok value := by
  obtain ⟨before, after, hbefore, hafter, htext⟩ := h
  have hstart : ∀ c ∈ (token ++ after).head?, isJsonSpace c = false := by
    rw [List.head?_append_of_ne_nil _ hne]
    exact hhead
  have hend : skipSpace after = [] := List.dropWhile_eq_nil_iff.mpr hafter
  rw [loads]
  simp only [htext, skipSpace_append hbefore hstart, hscan _ _ hafter, bind, Except.bind, hend, if_true]
  rfl

/-- What is read from a text starts with a token between blanks. -/
theorem spells_of_loads {text : String} {value : Json} (h : loads text = .ok value) : ∃ fuel cs rest,
    scanValue (fuel + 1) cs = .ok (value, rest) ∧ ∀ token, cs = token ++ rest → Spells text token := by
  obtain ⟨⟨found, rest⟩, hscan, h⟩ := bind_eq_ok.mp h
  dsimp only at h
  split at h
  · rename_i hrest
    cases h
    refine ⟨_, _, rest, hscan, fun token hcs => ?_⟩
    refine ⟨text.toList.takeWhile isJsonSpace, rest, fun c hc => List.mem_takeWhile_imp hc,
      List.dropWhile_eq_nil_iff.mp hrest, ?_⟩
    rw [← hcs]
    exact List.takeWhile_append_dropWhile.symm
  · cases h

/-- A constant that is read is one of the six. -/
theorem scanConstant_sound {cs rest : List Char} {value : Json} (h : scanConstant cs = some (value, rest)) :
    ∃ constant ∈ constants, cs = constant.1 ++ rest ∧ value = constant.2 := by
  obtain ⟨constant, hmem, hfound⟩ := List.exists_of_findSome?_eq_some h
  split at hfound
  · rename_i hstarts
    cases hfound
    exact ⟨constant, hmem, (List.prefix_iff_eq_append.mp (List.isPrefixOf_iff_prefix.mp hstarts)).symm, rfl⟩
  · cases hfound

/-- What is read as a number is a constant or a number token. -/
theorem scanValue_isNumber {fuel : ℕ} {cs rest : List Char} {value : Json}
    (h : scanValue (fuel + 1) cs = .ok (value, rest)) (hnumber : value.isNumber = true) :
    scanConstant cs = some (value, rest) ∨ scanNumber cs = .ok (value, rest) := by
  have hother : ∀ {α : Type} (scanned : Except LoadsError (α × List Char)) (make : α → Json),
      (∀ a, (make a).isNumber = false) → scanned.map (fun r => (make r.1, r.2)) = .ok (value, rest) → False := by
    intro α scanned make hmake hscanned
    cases scanned with
    | error error => cases hscanned
    | ok scanned =>
      cases hscanned
      rw [hmake] at hnumber
      cases hnumber
  rw [scanValue.eq_def] at h
  dsimp only at h
  split at h
  · exact (hother _ str (fun _ => rfl) h).elim
  · split at h
    · cases h
      cases hnumber
    · exact (hother _ obj (fun _ => rfl) h).elim
  · split at h
    · cases h
      cases hnumber
    · exact (hother _ arr (fun _ => rfl) h).elim
  · split at h
    · rename_i hconstant
      cases h
      exact .inl hconstant
    · exact .inr h

/-- A text that is read as a number is a number token, or one of the constants that count as numbers. -/
theorem spells_of_isNumber {text : String} {value : Json} (h : loads text = .ok value)
    (hnumber : value.isNumber = true) : (∃ token : NumberToken, Spells text token.text ∧ value = token.json) ∨
      ∃ constant ∈ constants, Spells text constant.1 ∧ value = constant.2 := by
  obtain ⟨fuel, cs, rest, hscan, hspells⟩ := spells_of_loads h
  rcases scanValue_isNumber hscan hnumber with hconstant | htoken
  · obtain ⟨constant, hmem, hcs, hvalue⟩ := scanConstant_sound hconstant
    exact .inr ⟨constant, hmem, hspells _ hcs, hvalue⟩
  · obtain ⟨token, hcs, hvalue⟩ := scanNumber_sound htoken
    exact .inl ⟨token, hspells _ hcs, hvalue⟩

/-- A constant between blanks is read as its value. -/
theorem loads_of_spells_constant {text : String} {constant : List Char × Json} (hmem : constant ∈ constants)
    (h : Spells text constant.1) : loads text = .ok constant.2 := by
  have hconstant : constant.1 ≠ [] ∧ (∀ c ∈ constant.1.head?, isJsonSpace c = false) ∧
      ∀ fuel after, scanValue (fuel + 1) (constant.1 ++ after) = .ok (constant.2, after) := by
    simp only [constants, List.mem_cons, List.not_mem_nil, or_false] at hmem
    rcases hmem with rfl | rfl | rfl | rfl | rfl | rfl
    all_goals exact ⟨by decide, by rintro c ⟨⟩; decide, fun fuel after => rfl⟩
  exact loads_of_spells h hconstant.1 hconstant.2.1 fun fuel after _ => hconstant.2.2 fuel after

/-- Blanks are none of the characters of a number. -/
theorem isJsonSpace_iff {c : Char} : isJsonSpace c = true ↔ c = ' ' ∨ c = '\t' ∨ c = '\n' ∨ c = '\r' := by
  simp only [isJsonSpace, Bool.or_eq_true, decide_eq_true_eq, or_assoc]

/-- Blanks can follow a number. -/
theorem endsNumber_of_blank {after : List Char} (h : ∀ c ∈ after, isJsonSpace c) : EndsNumber after := by
  intro c hc
  rcases isJsonSpace_iff.mp (h c (List.mem_of_mem_head? hc)) with rfl | rfl | rfl | rfl
  all_goals decide

/-- No constant starts like a number. -/
theorem scanConstant_token (token : NumberToken) (after : List Char) : scanConstant (token.text ++ after) = none := by
  obtain ⟨c, cs, htext, hstart⟩ := token.text_cons
  rw [htext, scanConstant, List.findSome?_eq_none_iff]
  intro constant hmem
  simp only [constants, List.mem_cons, List.not_mem_nil, or_false] at hmem
  have hnone : constant.1.isPrefixOf (c :: cs ++ after) = false := by
    rcases hstart with hdigit | ⟨rfl, d, ds, rfl, hdigit⟩
    · rcases hmem with rfl | rfl | rfl | rfl | rfl | rfl
      all_goals
        simp [List.isPrefixOf]
        rintro rfl
        exact absurd hdigit (by decide)
    · rcases hmem with rfl | rfl | rfl | rfl | rfl | rfl
      all_goals simp [List.isPrefixOf]
      rintro rfl
      exact absurd hdigit (by decide)
  rw [hnone]
  rfl

/-- A number between blanks is read as what its token stands for. -/
theorem loads_of_spells_token {text : String} {token : NumberToken} (h : Spells text token.text)
    (hlength : token.whole.length ≤ maxIntDigits) : loads text = .ok token.json := by
  obtain ⟨c, cs, htext, hstart⟩ := token.text_cons
  have hne : ∀ d, isAsciiDigit d = false → d ≠ '-' → c ≠ d := by
    intro d hd hminus
    rcases hstart with hdigit | ⟨rfl, -⟩
    · exact isAsciiDigit_ne hdigit hd
    · exact hminus.symm
  have hspace : isJsonSpace c = false := by
    simp [isJsonSpace, hne ' ' rfl (by decide), hne '\t' rfl (by decide), hne '\n' rfl (by decide),
      hne '\r' rfl (by decide)]
  apply loads_of_spells h
  · rw [htext]
    exact List.cons_ne_nil _ _
  · rw [htext]
    rintro d ⟨⟩
    exact hspace
  · intro fuel after hafter
    have hscan := scanNumber_complete token (endsNumber_of_blank hafter) hlength
    have hconstant := scanConstant_token token after
    have hquote := hne '"' rfl (by decide)
    have hbrace := hne '\x7b' rfl (by decide)
    have hbracket := hne '[' rfl (by decide)
    rw [htext, List.cons_append] at hscan hconstant ⊢
    rw [scanValue.eq_def]
    simp [hquote, hbrace, hbracket, hconstant, hscan]

end Json

end FleetWorkflow.Python
