import FleetWorkflow.Python.Binary64
import FleetWorkflow.Python.Json
import FleetWorkflow.Recipes.Preview
import FleetWorkflow.Web.SpecialFloats

/-!
# Operands of comparisons

What the right operand of a condition becomes. A text that is a number of JSON is compiled to that number, unless it
lies beyond the doubles, and every other text to its expression but five: two booleans and three words for floats that
are no numbers are read as numbers too. With the latter the node is no JSON.
-/

namespace FleetWorkflow.Recipes

open FleetWorkflow.Flow FleetWorkflow.Python

/-- The node as it stands in the payload. -/
def Node.document (node : Node) : Json :=
  .obj ([("parameters", node.parameters), ("id", .str node.id), ("name", .str node.name), ("type", .str node.type),
    ("typeVersion", node.typeVersion), ("position", .arr [.int node.position.1, .int node.position.2])] ++
      node.webhookId.toList.map fun webhookId => ("webhookId", .str webhookId))

/-- An operator compares numbers. -/
def Operator.IsNumeric (operator : Operator) : Prop := (operators operator).1 = "number"

/-- The operand of a condition is compiled soundly: its node is JSON, and the operand is the number of its text for a
numeric operator and a number of JSON, and the expression of its text otherwise. -/
structure SoundOperand (step : ConditionStep) (nodeNames : NodeNames) (node : Node) : Prop where
  standard : ∃ value, Web.jsonParse (dumps node.document.held) = some value
  number : step.operator.IsNumeric → ∀ token : NumberToken, Json.Spells step.right token.text →
    ∃ left right, operandsOf node.parameters = some (left, right) ∧ right.held.number? = some token.value
  quoted : ¬ (step.operator.IsNumeric ∧ ∃ token : NumberToken, Json.Spells step.right token.text) →
    ∃ left code, operandsOf node.parameters = some (left, .str (braced code)) ∧
      jsExpression nodeNames step.right = .ok code

/-- The words that are read as numbers although they are none. -/
def numberWords : List String := ["true", "false", "NaN", "Infinity", "-Infinity"]

/-- A text is none of the words that are read as numbers, and no number with a fraction or an exponent that lies
beyond the doubles. -/
structure PlainOperand (text : String) : Prop where
  word : ∀ word ∈ numberWords, ¬ Json.Spells text word.toList
  bounded : ∀ token : NumberToken, Json.Spells text token.text → token.isInteger = false →
    ∃ value, roundDouble token.value = .finite value

/-! ## The text of an operand -/

/-- A number has no brace. -/
theorem brace_notMem_token (token : NumberToken) : '\x7b' ∉ token.text := by
  have hdigits : ∀ digits : List Char, (∀ c ∈ digits, isAsciiDigit c) → '\x7b' ∉ digits :=
    fun digits hdigits hmem => isAsciiDigit_ne (hdigits _ hmem) rfl rfl
  have hwhole := hdigits _ token.isAsciiDigit_whole
  have hfraction : '\x7b' ∉ NumberToken.fractionText token.fraction := by
    rw [NumberToken.fractionText]
    split
    · exact List.not_mem_nil
    · simp [hdigits _ token.isAsciiDigit_fraction]
  have hexponent : '\x7b' ∉ NumberToken.exponentText token.exponent := by
    cases token.exponent with
    | none => exact List.not_mem_nil
    | some part =>
      have hpart := hdigits _ part.isAsciiDigit_digits
      have hletter : '\x7b' ≠ (if part.capital then 'E' else 'e') := by cases part.capital <;> decide
      have hsign : '\x7b' ∉ ExponentPart.signText part.sign := by
        rcases part.sign with _ | _ | _ <;> decide
      simp [NumberToken.exponentText, ExponentPart.text, hletter, hpart, hsign]
  rw [NumberToken.text]
  cases token.negative <;> simp [hwhole, hfraction, hexponent]

/-- A token without a brace between blanks is no reference. -/
theorem hasReference_of_spells {text : String} {token : List Char} (h : Json.Spells text token)
    (hbrace : '\x7b' ∉ token) : hasReference text = false := by
  rw [← Bool.not_eq_true]
  intro hreference
  obtain ⟨before, after, hbefore, hafter, htext⟩ := h
  have hmem := brace_mem_of_hasReference hreference
  rw [htext, List.mem_append, List.mem_append] at hmem
  rcases hmem with hmem | hmem | hmem
  · exact absurd (hbefore _ hmem) (by decide)
  · exact hbrace hmem
  · exact absurd (hafter _ hmem) (by decide)

variable {step : ConditionStep} {nodeNames : NodeNames}

/-- A text that is read as a number is the operand of a numeric operator as that number. -/
theorem rightValue_of_number {value : Json} (hnumeric : step.operator.IsNumeric) (hreference : hasReference step.right = false)
    (hloads : Json.loads step.right = .ok value) (hnumber : value.isNumber = true) :
    rightValue step nodeNames = .ok value := by
  have hkind : (operators step.operator).1 = "number" := hnumeric
  unfold rightValue
  dsimp only
  rw [if_pos (by simp [hreference, hkind]), hloads]
  dsimp only
  rw [if_pos hnumber]

/-- An accepted operand has at most 500 characters. -/
theorem RawConditionStep.right_length {raw : RawConditionStep} (h : raw.validate = .ok step) :
    step.right.length ≤ 500 := by
  obtain ⟨_, -, h⟩ := bind_eq_ok.mp h
  obtain ⟨_, -, h⟩ := bind_eq_ok.mp h
  obtain ⟨_, hlength, h⟩ := bind_eq_ok.mp h
  obtain ⟨thenSteps, -, h⟩ := bind_eq_ok.mp h
  obtain ⟨elseSteps, -, h⟩ := bind_eq_ok.mp h
  obtain ⟨_, -, h⟩ := bind_eq_ok.mp h
  obtain ⟨_, -, h⟩ := bind_eq_ok.mp h
  split at h
  · cases h
  · cases h
    rw [checkLength] at hlength
    split at hlength
    · cases hlength
    · split at hlength
      · cases hlength
      · rename_i hle
        exact not_lt.mp hle

/-- The digits of a number are not more than the characters of its text. -/
theorem whole_length_of_spells {text : String} {token : NumberToken} (h : Json.Spells text token.text) {bound : ℕ}
    (hbound : text.length ≤ bound) : token.whole.length ≤ bound := by
  obtain ⟨before, after, -, -, htext⟩ := h
  rw [← String.length_toList, htext, List.length_append, List.length_append, NumberToken.text, List.length_append,
    List.length_append] at hbound
  omega

/-- A number is the operand of a numeric operator as what its token stands for. -/
theorem rightValue_of_token (nodeNames : NodeNames) {raw : RawConditionStep} (haccepted : raw.validate = .ok step)
    (hnumeric : step.operator.IsNumeric) {token : NumberToken} (h : Json.Spells step.right token.text) :
    Json.loads step.right = .ok token.json ∧ rightValue step nodeNames = .ok token.json := by
  have hlength : token.whole.length ≤ Json.maxIntDigits :=
    whole_length_of_spells h ((RawConditionStep.right_length haccepted).trans (by decide))
  have hloads := Json.loads_of_spells_token h hlength
  exact ⟨hloads, rightValue_of_number hnumeric (hasReference_of_spells h (brace_notMem_token token)) hloads
    token.isNumber_json⟩

/-- A word that counts as a number is the operand of a numeric operator as its value. -/
theorem rightValue_of_constant (nodeNames : NodeNames) (hnumeric : step.operator.IsNumeric) {constant : List Char × Json}
    (hmem : constant ∈ Json.constants) (hnumber : constant.2.isNumber = true) (h : Json.Spells step.right constant.1) :
    Json.loads step.right = .ok constant.2 ∧ rightValue step nodeNames = .ok constant.2 := by
  have hbrace : '\x7b' ∉ constant.1 := by
    simp only [Json.constants, List.mem_cons, List.not_mem_nil, or_false] at hmem
    rcases hmem with rfl | rfl | rfl | rfl | rfl | rfl
    all_goals decide
  have hloads := Json.loads_of_spells_constant hmem h
  exact ⟨hloads, rightValue_of_number hnumeric (hasReference_of_spells h hbrace) hloads hnumber⟩

/-- The words are the constants that count as numbers. -/
theorem mem_numberWords_iff {word : List Char} :
    (∃ name ∈ numberWords, word = name.toList) ↔ ∃ constant ∈ Json.constants, constant.2.isNumber = true ∧ word = constant.1 := by
  simp [numberWords, Json.constants, Json.isNumber]

/-! ## The node -/

/-- The double of the version of the node. -/
theorem held_ifVersion : PyFloat.held (.decimal false 22 (-1)) = .decimal false 22 (-1) := by
  have hfour : onGrid 4 = 4 := onGrid_of_onGrid ⟨4, 0, by norm_num, by norm_num, by norm_num⟩
  have hbound : onGrid (22 / 10) ≤ 4 := hfour ▸ onGrid_mono (by norm_num) (by norm_num)
  have hlimit : |onGrid (22 / 10)| < doubleLimit := by
    rw [abs_of_nonneg (onGrid_nonneg (by norm_num))]
    apply hbound.trans_lt
    rw [doubleLimit, show (4 : ℚ) = 2 ^ 2 by norm_num]
    exact pow_lt_pow_right₀ one_lt_two (by decide)
  have hvalue : PyFloat.value (.decimal false 22 (-1)) = .finite (22 / 10) := by norm_num [PyFloat.value]
  apply PyFloat.held_of_isFinite
  refine ⟨onGrid (22 / 10), ?_⟩
  rw [PyFloat.double, hvalue]
  exact if_neg (not_le.mpr hlimit)

/-- The node of a condition has its operands, and is as much JSON as the right one is. -/
theorem ifNode_emitted {position : ℤ × ℤ} {node : Node} (h : ifNode step nodeNames position = .ok node) :
    ∃ left right, rightValue step nodeNames = .ok right ∧ operandsOf node.parameters = some (.str (braced left), right) ∧
      (Web.Encodable right.held → Web.Encodable node.document.held) ∧
      (Web.Special right.held → Web.Special node.document.held) := by
  obtain ⟨right, hright, h⟩ := bind_eq_ok.mp h
  obtain ⟨left, hleft, h⟩ := bind_eq_ok.mp h
  cases h
  refine ⟨left, right, hright, rfl, ?_, ?_⟩
  · intro hheld
    have hversion := held_ifVersion
    simp [Node.document, Json.held, Json.heldFields, Json.heldItems, hversion, Web.Encodable, Web.EncodableFields,
      Web.EncodableItems, hheld]
  · intro hheld
    simp [Node.document, Json.held, Json.heldFields, Json.heldItems, Web.Encodable, Web.EncodableFields,
      Web.Special, Web.SpecialFields, Web.SpecialItems, hheld]

/-- The node is JSON unless the right operand is a float that is no number. -/
theorem ifNode_standard {position : ℤ × ℤ} {node : Node} (h : ifNode step nodeNames position = .ok node) :
    ∃ left right, rightValue step nodeNames = .ok right ∧ operandsOf node.parameters = some (.str (braced left), right) ∧
      ((∃ value, Web.jsonParse (dumps node.document.held) = some value) ↔ ∀ x, right = .float x → x.IsFinite) := by
  obtain ⟨left, right, hright, hoperands, hencodable, hspecial⟩ := ifNode_emitted h
  refine ⟨left, right, hright, hoperands, ?_⟩
  have hread : Web.Encodable right.held → ∃ value, Web.jsonParse (dumps node.document.held) = some value :=
    fun hheld => ⟨_, Web.jsonParse_dumps (hencodable hheld)⟩
  rcases rightValue_eq_ok hright with ⟨code, -, rfl⟩ | ⟨-, hnumber, -⟩
  · exact iff_of_true (hread trivial) fun x hx => (by cases hx)
  · cases right with
    | bool b => exact iff_of_true (hread trivial) fun x hx => (by cases hx)
    | int n => exact iff_of_true (hread trivial) fun x hx => (by cases hx)
    | float x =>
      by_cases hfinite : x.IsFinite
      · apply iff_of_true
        · apply hread
          rw [Json.held, PyFloat.held_of_isFinite hfinite]
          cases x with
          | decimal negative digits exponent => trivial
          | infinity negative => exact absurd hfinite (by rintro ⟨value, ⟨⟩⟩)
          | nan => exact absurd hfinite (by rintro ⟨value, ⟨⟩⟩)
        · rintro y ⟨⟩
          exact hfinite
      · apply iff_of_false
        · rintro ⟨value, hvalue⟩
          rw [Web.jsonParse_special] at hvalue
          · cases hvalue
          · apply hspecial
            rw [Json.held]
            rcases PyFloat.held_of_not_isFinite hfinite with hheld | ⟨negative, hheld⟩
            · rw [hheld]
              trivial
            · rw [hheld]
              trivial
        · exact fun hall => hfinite (hall x rfl)
    | null => cases hnumber
    | str s => cases hnumber
    | arr items => cases hnumber
    | obj fields => cases hnumber

/-! ## Sound operands -/

/-- A number whose float is a number is held as it is decoded. -/
theorem held_json {token : NumberToken} (h : ∀ x, token.json = .float x → x.IsFinite) : token.json.held = token.json := by
  cases hjson : token.json with
  | float x => rw [Json.held, PyFloat.held_of_isFinite (h x hjson)]
  | int n => rfl
  | _ =>
    have hnumber := token.isNumber_json
    rw [hjson] at hnumber
    first | rfl | cases hnumber

/-- A text that is read as an integer is plain. -/
theorem plainOperand_of_int {text : String} {n : ℤ} (hloads : Json.loads text = .ok (.int n))
    (hlength : text.length ≤ Json.maxIntDigits) : PlainOperand text := by
  constructor
  · intro name hname hspells
    obtain ⟨constant, hmem, -, hword⟩ := mem_numberWords_iff.mp ⟨name, hname, rfl⟩
    rw [hword] at hspells
    have hconstant : constant.2 ≠ .int n := by
      simp only [Json.constants, List.mem_cons, List.not_mem_nil, or_false] at hmem
      rcases hmem with rfl | rfl | rfl | rfl | rfl | rfl
      all_goals simp
    rw [Json.loads_of_spells_constant hmem hspells] at hloads
    exact hconstant (Except.ok.inj hloads)
  · intro token hspells hinteger
    obtain ⟨x, hfloat, -⟩ := NumberToken.json_of_not_isInteger hinteger
    rw [Json.loads_of_spells_token hspells (whole_length_of_spells hspells hlength), hfloat] at hloads
    cases Except.ok.inj hloads

/-- The recipes that count rows: a notification from a number of rows on. -/
def countCondition (right : String) : RawConditionStep where
  id := "c1"
  left := "\x7b\x7bsteps.q1.row_count\x7d\x7d"
  operator := .gte
  right := right
  thenSteps := [⟨"n1", .httpNotify, [("title", .str "t"), ("message", .str "m")]⟩]
  elseSteps := []

/-- The condition as it is accepted. -/
def countStep (right : String) : ConditionStep where
  id := "c1"
  left := "\x7b\x7bsteps.q1.row_count\x7d\x7d"
  operator := .gte
  right := right
  thenSteps := [⟨"n1", .httpNotify, [("title", "t"), ("message", "m")]⟩]
  elseSteps := []

/-- The node of the query before the condition. -/
def countNames : NodeNames := [("q1", "pg.query (q1)")]

/-- The references of the condition are resolved. -/
theorem resolves_count {right : String} (h : finditer right = []) :
    Resolves countNames [(countStep right).left, (countStep right).right] := by
  have hleft : ∀ ref ∈ finditer "\x7b\x7bsteps.q1.row_count\x7d\x7d", (countNames.get ref.step).isSome := by decide
  intro text htext ref href
  rw [List.mem_cons, List.mem_singleton] at htext
  rcases htext with hsame | hsame
  · rw [hsame] at href
    exact hleft ref href
  · have hright : text = right := hsame
    rw [hright, h] at href
    cases href

end FleetWorkflow.Recipes
