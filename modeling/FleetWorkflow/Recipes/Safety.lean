import FleetWorkflow.Recipes.Preservation
import FleetWorkflow.Recipes.Tokens

/-!
# Injection safety of compiled recipes

n8n evaluates a parameter whose text begins with `=`. In a compiled recipe every such text is
fixed, or is an expression whose only tokens are literals, sums and accesses to emitted nodes:
the escaping keeps the user's text inside the literals, and the schema keeps braces out of it.
-/

namespace FleetWorkflow.Recipes

open FleetWorkflow.Flow FleetWorkflow.Python

/-- A text that n8n evaluates. -/
def evaluated (text : String) : Bool := startsWith text "="

/-- An expression around a sum of literals and accesses. -/
def SumExpression (names : List String) (text : String) : Prop :=
  ∃ code ts, text = braced code ∧ NoPair code ∧ tokens code = some ts ∧ IsSum names ts

/-- An expression around a request body with the fields of an action. -/
def BodyExpression (names : List String) (action : ActionName) (text : String) : Prop :=
  ∃ code ts, text = braced code ∧ NoPair code ∧ tokens code = some ts ∧
    IsBody names ((paramsByAction action).map ParamField.name) ts

/-- The address of one of Fleet's service endpoints. -/
def ServiceAddress (text : String) : Prop := ∃ action, text = urlBase ++ servicePaths action

/-- The value of the API key header. -/
def apiKeyExpression : String := "=\x7b\x7b $env.FLEET_API_KEY \x7d\x7d"

mutual

/-- The texts inside a value. -/
def textsOf : Json → List String
  | .str text => [text]
  | .arr items => textsOfItems items
  | .obj fields => textsOfFields fields
  | _ => []

/-- The texts inside the items of an array. -/
def textsOfItems : List Json → List String
  | [] => []
  | item :: rest => textsOf item ++ textsOfItems rest

/-- The texts inside the fields of an object. -/
def textsOfFields : List (String × Json) → List String
  | [] => []
  | field :: rest => textsOf field.2 ++ textsOfFields rest

end

/-- A field of an object. -/
def fieldOf (key : String) : Json → Option Json
  | .obj fields => Json.get? fields key
  | _ => none

/-- The operands of the only comparison of an `if` node. -/
def operandsOf (parameters : Json) : Option (Json × Json) := do
  let .arr [comparison] ← (fieldOf "conditions" parameters).bind (fieldOf "conditions") | none
  return (← fieldOf "leftValue" comparison, ← fieldOf "rightValue" comparison)

/-- What an emitted node may hold. -/
structure SafeNode (names : List String) (node : Node) : Prop where
  type_allowed : node.type ∈ allowedNodeTypes
  labels_plain : ∀ text ∈ node.id :: node.name :: node.webhookId.toList, evaluated text = false
  evaluated_safe : ∀ text ∈ textsOf node.parameters, evaluated text = true →
    ServiceAddress text ∨ text = apiKeyExpression ∨ SumExpression names text ∨
      ∃ action, BodyExpression names action text
  request : node.type = "n8n-nodes-base.httpRequest" → ∃ action body,
    fieldOf "url" node.parameters = some (.str (urlBase ++ servicePaths action)) ∧
      fieldOf "jsonBody" node.parameters = some (.str body) ∧ BodyExpression names action body
  comparison : node.type = "n8n-nodes-base.if" → ∃ left right,
    operandsOf node.parameters = some (.str left, right) ∧ SumExpression names left ∧
      (right.isNumber = true ∨ ∃ text, right = .str text ∧ SumExpression names text)

/-- A text is evaluated when its first character is an equals sign. -/
theorem evaluated_eq (text : String) : evaluated text = (text.toList.head? == some '=') := by
  rw [evaluated, startsWith]
  cases text.toList with
  | nil => rfl
  | cons c rest => simp [List.isPrefixOf, Bool.beq_comm]

/-! ## Node names -/

/-- Each entry names the node of a step of the recipe. -/
def NodeNames.Of (recipe : Recipe) (nodeNames : NodeNames) : Prop :=
  ∀ entry ∈ nodeNames, ∃ step ∈ recipe.allSteps, entry = (step.id, nodeName step)

/-- A node that is found is the node of a step. -/
theorem NodeNames.Of.get {recipe : Recipe} {nodeNames : NodeNames} (h : nodeNames.Of recipe) {id name : String}
    (hget : nodeNames.get id = some name) : ∃ step ∈ recipe.allSteps, step.id = id ∧ name = nodeName step := by
  obtain ⟨entry, hfind, rfl⟩ := Option.map_eq_some_iff.mp hget
  obtain ⟨step, hstep, rfl⟩ := h entry (List.mem_of_find?_eq_some hfind)
  exact ⟨step, hstep, by simpa using List.find?_some hfind, rfl⟩

/-- A name of a step of the recipe may be added. -/
theorem NodeNames.Of.cons {recipe : Recipe} {nodeNames : NodeNames} (h : nodeNames.Of recipe) {step : Step}
    (hstep : step ∈ recipe.allSteps) : NodeNames.Of recipe ((step.id, nodeName step) :: nodeNames) := by
  intro entry hentry
  rcases List.mem_cons.mp hentry with rfl | hentry
  · exact ⟨step, hstep, rfl⟩
  · exact h entry hentry

/-- The end anchor leaves out at most a newline. -/
theorem mem_dropFinalNewline {cs : List Char} {c : Char} (hc : c ∈ cs) : c ∈ dropFinalNewline cs ∨ c = '\n' := by
  unfold dropFinalNewline
  split
  · rename_i hlast
    rw [← List.dropLast_append_getLast? _ hlast, List.mem_append, List.mem_singleton] at hc
    exact hc
  · exact .inl hc

/-- The node name of an accepted identifier has no brace. -/
theorem braceFree_nodeName {step : Step} (h : matchStepId step.id = true) :
    BraceFree (nodeName step).toList := by
  have hid : BraceFree step.id.toList := by
    intro c hc
    simp only [matchStepId, Bool.and_eq_true, List.all_eq_true] at h
    rcases mem_dropFinalNewline hc with hin | rfl
    · have hclass := h.2 c hin
      constructor
      · rintro rfl
        exact absurd hclass (by decide)
      · rintro rfl
        exact absurd hclass (by decide)
    · decide
  have hlabel : BraceFree step.label.toList := by
    cases step with
    | action step =>
      cases haction : step.action <;> simp only [Step.label, haction, ActionName.value] <;>
        exact braceFree_of_all (by decide)
    | condition step =>
      rw [Step.label]
      exact braceFree_of_all (by decide)
  intro c hc
  simp only [nodeName, String.toList_append, List.mem_append] at hc
  rcases hc with ((hc | hc) | hc) | hc
  · exact hlabel c hc
  · exact braceFree_of_all (by decide) c hc
  · exact hid c hc
  · exact braceFree_of_all (by decide) c hc

/-- No node name is evaluated. -/
theorem evaluated_nodeName (step : Step) : evaluated (nodeName step) = false := by
  rw [evaluated_eq]
  cases step with
  | action step => cases haction : step.action <;> simp [nodeName, Step.label, haction, ActionName.value]
  | condition step => simp [nodeName, Step.label]

/-! ## Expressions of texts -/

/-- The token of a segment, a literal or an access to the node that its step was emitted as. -/
def operandToken (nodeNames : NodeNames) : Segment → Token
  | .literal text => .text text
  | .reference ref => .access ((nodeNames.get ref.step).getD "") ref.path

/-- The tokens of a text's expression. -/
def valueTokens (nodeNames : NodeNames) (value : String) : List Token :=
  if (segments value).isEmpty then [.text ""]
  else [Token.plus].intercalate ((segments value).map fun segment => [operandToken nodeNames segment])

/-- The code of a segment spells its token. -/
theorem jsPart_chars {nodeNames : NodeNames} {segment : Segment} {part : String}
    (h : jsPart nodeNames segment = .ok part) : part.toList = (operandToken nodeNames segment).chars := by
  cases segment with
  | literal text =>
    cases h
    rfl
  | reference ref =>
    rw [jsPart] at h
    cases hget : nodeNames.get ref.step with
    | none => simp [hget] at h
    | some target =>
      simp only [hget, Except.ok.injEq] at h
      subst h
      simp [operandToken, hget, Token.chars, accessMiddle]

/-- The code of a text spells its tokens. -/
theorem jsExpression_chars {nodeNames : NodeNames} {value code : String}
    (h : jsExpression nodeNames value = .ok code) :
    code.toList = (valueTokens nodeNames value).flatMap Token.chars := by
  obtain ⟨parts, hparts, h⟩ := bind_eq_ok.mp h
  have hpairs := forall₂_of_mapM hparts
  have hempty : parts.isEmpty = (segments value).isEmpty := by
    generalize segments value = pieces at hpairs
    cases hpairs with
    | nil => rfl
    | cons _ _ => rfl
  cases h
  rw [valueTokens, hempty]
  by_cases hsegments : (segments value).isEmpty = true
  · rw [if_pos hsegments, if_pos hsegments]
    simp [Token.chars]
  · have hplus : " + ".toList = Token.plus.chars := by decide
    rw [if_neg hsegments, if_neg hsegments, flatMap_intercalate, String.toList_intercalate, hplus,
      map_eq_of_forall₂ hpairs fun segment part hpart => jsPart_chars hpart]
    simp only [List.map_map, Function.comp_def, List.flatMap_cons, List.flatMap_nil, List.append_nil]

/-- No field of a parameter model has a brace in its name. -/
theorem braceFree_key {action : ActionName} {key : String}
    (h : key ∈ (paramsByAction action).map ParamField.name) : BraceFree key.toList := by
  have hall : ((paramsByAction action).map ParamField.name).all (fun key =>
      key.toList.all fun c => c != '\x7b' && c != '\x7d') = true := by
    cases action <;> decide
  exact braceFree_of_all (List.all_eq_true.mp hall key h)

section Steps

variable {recipe : Recipe} {nodeNames : NodeNames} {names : List String}
  (hids : ∀ step ∈ recipe.allSteps, matchStepId step.id = true ∧ nodeName step ∈ names)
  (hnames : nodeNames.Of recipe)
include hids hnames

/-- The operands of a text with resolved references. -/
theorem operandToken_inner {value : String} (htext : AcceptedText value) {segment : Segment}
    (hsegment : segment ∈ segments value) {part : String} (h : jsPart nodeNames segment = .ok part) :
    (operandToken nodeNames segment).IsOperand names ∧
      (operandToken nodeNames segment).Inner := by
  cases segment with
  | literal text =>
    refine ⟨trivial, trivial, fun c hc => ?_, by simp [operandToken], by simp [operandToken]⟩
    exact htext.no_brace c (mem_residue hsegment hc)
  | reference ref =>
    rw [jsPart] at h
    cases hget : nodeNames.get ref.step with
    | none => simp [hget] at h
    | some target =>
      obtain ⟨step, hstep, -, rfl⟩ := hnames.get hget
      obtain ⟨hne, hchars⟩ := path_of_mem_segments hsegment
      have hpath : ∀ c ∈ ref.path.toList, isAccessChar c = true := by
        intro c hc
        rcases hchars c hc with hword | rfl
        · simp [isAccessChar, hword]
        · decide
      rw [operandToken, hget]
      exact ⟨⟨(hids step hstep).2, hne, hpath⟩, ⟨hne, hpath⟩, braceFree_nodeName (hids step hstep).1, by simp,
        by simp⟩

/-- The tokens of a text with resolved references are a sum, and nothing else. -/
theorem valueTokens_isSum {value code : String} (htext : AcceptedText value)
    (h : jsExpression nodeNames value = .ok code) :
    IsSum names (valueTokens nodeNames value) ∧
      ∀ token ∈ valueTokens nodeNames value, token.Inner := by
  obtain ⟨parts, hparts, -⟩ := bind_eq_ok.mp h
  have hoperand : ∀ segment ∈ segments value,
      (operandToken nodeNames segment).IsOperand names ∧
        (operandToken nodeNames segment).Inner := by
    intro segment hsegment
    obtain ⟨part, -, hpart⟩ := mem_mapM hparts hsegment
    exact operandToken_inner hids hnames htext hsegment hpart
  have hempty : (Token.text "").Inner := ⟨trivial, fun c hc => (by cases hc), by simp, by simp⟩
  have hplus : Token.plus.Inner := ⟨trivial, trivial, by decide, by decide⟩
  rw [valueTokens]
  by_cases hsegments : (segments value).isEmpty = true
  · rw [if_pos hsegments]
    constructor
    · refine ⟨[.text ""], by simp, fun operand hmem => ?_, by simp⟩
      rw [List.mem_singleton.mp hmem]
      trivial
    · intro token htoken
      rw [List.mem_singleton.mp htoken]
      exact hempty
  · rw [if_neg hsegments]
    constructor
    · refine ⟨(segments value).map (operandToken nodeNames), ?_, ?_, by rw [List.map_map]; rfl⟩
      · simpa using hsegments
      · intro operand hmem
        obtain ⟨segment, hsegment, rfl⟩ := List.mem_map.mp hmem
        exact (hoperand segment hsegment).1
    · apply inner_of_mem_intercalate hplus
      intro group hgroup token htoken
      obtain ⟨segment, hsegment, rfl⟩ := List.mem_map.mp hgroup
      rw [List.mem_singleton.mp htoken]
      exact (hoperand segment hsegment).2

/-- The expression of a text with resolved references is read back. -/
theorem tokens_of_jsonExpression {value code : String} (htext : AcceptedText value)
    (h : jsExpression nodeNames value = .ok code) :
    tokens code = some (valueTokens nodeNames value) ∧ NoPair code :=
  tokens_of_inner (jsExpression_chars h) (valueTokens_isSum hids hnames htext h).2

/-- The expression of a text with resolved references. -/
theorem sumExpression_of_jsExpression {value code : String} (htext : AcceptedText value)
    (h : jsExpression nodeNames value = .ok code) :
    SumExpression names (braced code) := by
  obtain ⟨htokens, hpair⟩ := tokens_of_jsonExpression hids hnames htext h
  exact ⟨code, _, rfl, hpair, htokens, (valueTokens_isSum hids hnames htext h).1⟩

/-- The request body of an action with resolved references is read back: each parameter under its key. -/
theorem tokens_of_jsonBody {step : ActionStep} (hstep : (Step.action step).WellFormed) {body : String}
    (h : jsonBody step.params nodeNames = .ok body) :
    ∃ code, body = braced code ∧ NoPair code ∧
      tokens code = some (bodyTokens (step.params.map fun param => (param.1, valueTokens nodeNames param.2))) ∧
      ∀ param ∈ step.params, IsSum names (valueTokens nodeNames param.2) := by
  obtain ⟨-, hkeys, htexts⟩ := hstep
  obtain ⟨fieldCodes, hfields, h⟩ := bind_eq_ok.mp h
  cases h
  have hvalue : ∀ param ∈ step.params, ∃ code, jsExpression nodeNames param.2 = .ok code := by
    intro param hparam
    obtain ⟨field, -, hfield⟩ := mem_mapM hfields hparam
    obtain ⟨code, hcode, -⟩ := bind_eq_ok.mp hfield
    exact ⟨code, hcode⟩
  have hcodes : fieldCodes.map String.toList = step.params.map fun param =>
      (Token.text param.1 :: .colon :: valueTokens nodeNames param.2).flatMap Token.chars := by
    apply map_eq_of_forall₂ (forall₂_of_mapM hfields)
    intro param field hfield
    obtain ⟨code, hcode, hfield⟩ := bind_eq_ok.mp hfield
    cases hfield
    simp [jsExpression_chars hcode, Token.chars]
  have hchars : ("JSON.stringify(\x7b" ++ ", ".intercalate fieldCodes ++ "\x7d)").toList =
      (bodyTokens (step.params.map fun param => (param.1, valueTokens nodeNames param.2))).flatMap
        Token.chars := by
    rw [bodyTokens, List.cons_append, List.flatMap_cons, List.flatMap_append, flatMap_intercalate]
    simp only [String.toList_append, String.toList_intercalate, hcodes, List.map_map, Function.comp_def,
      List.append_assoc]
    rfl
  obtain ⟨htokens, hpair⟩ := tokens_of_body hchars
    (fun field hfield => by
      obtain ⟨param, hparam, rfl⟩ := List.mem_map.mp hfield
      exact braceFree_key (hkeys ▸ List.mem_map.mpr ⟨param, hparam, rfl⟩))
    (fun field hfield => by
      obtain ⟨param, hparam, rfl⟩ := List.mem_map.mp hfield
      obtain ⟨code, hcode⟩ := hvalue param hparam
      exact (valueTokens_isSum hids hnames (htexts param hparam) hcode).2)
  refine ⟨_, rfl, hpair, htokens, fun param hparam => ?_⟩
  obtain ⟨code, hcode⟩ := hvalue param hparam
  exact (valueTokens_isSum hids hnames (htexts param hparam) hcode).1

/-- The request body of an action with resolved references. -/
theorem bodyExpression_of_jsonBody {step : ActionStep} (hstep : (Step.action step).WellFormed) {body : String}
    (h : jsonBody step.params nodeNames = .ok body) :
    BodyExpression names step.action body := by
  obtain ⟨code, hbody, hpair, htokens, hsums⟩ := tokens_of_jsonBody hids hnames hstep h
  refine ⟨code, _, hbody, hpair, htokens, _, ?_, fun field hfield => ?_, rfl⟩
  · rw [← hstep.2.1, List.map_map]
    rfl
  · obtain ⟨param, hparam, rfl⟩ := List.mem_map.mp hfield
    exact hsums param hparam

/-! ## Emitted nodes -/

/-- The request node of an action is safe. -/
theorem httpNode_safe {step : ActionStep} (hstep : (Step.action step).WellFormed) {position : ℤ × ℤ}
    {node : Node} (h : httpNode step nodeNames position = .ok node) : SafeNode names node := by
  obtain ⟨url, hurl, h⟩ := bind_eq_ok.mp h
  obtain ⟨body, hbody, h⟩ := bind_eq_ok.mp h
  rw [serviceUrl_ok] at hurl
  cases hurl
  cases h
  have hexpression := bodyExpression_of_jsonBody hids hnames hstep hbody
  constructor
  · simp [allowedNodeTypes]
  · intro text htext
    simp only [Option.toList_none, List.mem_cons, List.not_mem_nil, or_false] at htext
    rcases htext with rfl | rfl
    · rw [evaluated_eq]
      simp
    · exact evaluated_nodeName _
  · intro text htext hevaluated
    simp only [textsOf, textsOfFields, textsOfItems, requestHeaders, List.nil_append, List.append_nil,
      List.cons_append, List.mem_cons] at htext
    have hoptions : textsOf (responseOptions step.action) ⊆ ["text"] := by
      rw [responseOptions]
      split
      · exact List.Subset.refl _
      · exact List.nil_subset _
    rcases htext with rfl | rfl | rfl | rfl | rfl | rfl | rfl | rfl | hmem
    · exact absurd hevaluated (by decide)
    · exact .inl ⟨step.action, rfl⟩
    · exact absurd hevaluated (by decide)
    · exact .inr (.inl rfl)
    · exact absurd hevaluated (by decide)
    · exact absurd hevaluated (by decide)
    · exact absurd hevaluated (by decide)
    · exact .inr (.inr (.inr ⟨step.action, hexpression⟩))
    · rw [List.mem_singleton.mp (hoptions hmem)] at hevaluated
      exact absurd hevaluated (by decide)
  · intro _
    exact ⟨step.action, body, rfl, rfl, hexpression⟩
  · intro htype
    simp at htype

/-- The `if` node of a condition is safe. -/
theorem ifNode_safe {step : ConditionStep} (hstep : (Step.condition step).WellFormed) {position : ℤ × ℤ}
    {node : Node} (h : ifNode step nodeNames position = .ok node) : SafeNode names node := by
  obtain ⟨right, hright, h⟩ := bind_eq_ok.mp h
  obtain ⟨left, hleft, h⟩ := bind_eq_ok.mp h
  cases h
  have hleftExpression := sumExpression_of_jsExpression hids hnames hstep.2.1 hleft
  have hrightValue : right.isNumber = true ∨ ∃ text, right = .str text ∧ SumExpression names text := by
    have hquoted : ∀ value, (fun code => Json.str (braced code)) <$> jsExpression nodeNames step.right = .ok value →
        ∃ text, value = .str text ∧ SumExpression names text := by
      intro value hvalue
      obtain ⟨code, hcode, rfl⟩ := map_eq_ok.mp hvalue
      exact ⟨_, rfl, sumExpression_of_jsExpression hids hnames hstep.2.2 hcode⟩
    unfold rightValue at hright
    dsimp only at hright
    split at hright
    · split at hright
      · split at hright
        · rename_i hnumber
          cases hright
          exact .inl hnumber
        · exact .inr (hquoted _ hright)
      · exact .inr (hquoted _ hright)
    · exact .inr (hquoted _ hright)
  have hoperator : evaluated (operators step.operator).1 = false ∧
      evaluated (operators step.operator).2 = false := by
    cases step.operator <;> decide
  constructor
  · simp [allowedNodeTypes]
  · intro text htext
    simp only [Option.toList_none, List.mem_cons, List.not_mem_nil, or_false] at htext
    rcases htext with rfl | rfl
    · rw [evaluated_eq]
      simp
    · exact evaluated_nodeName _
  · intro text htext hevaluated
    simp only [textsOf, textsOfFields, textsOfItems, List.nil_append, List.append_nil, List.cons_append,
      List.mem_cons, List.mem_append] at htext
    rcases htext with rfl | rfl | rfl | rfl | (hmem | hkind | hoperation | hnone) | rfl | hnone
    · exact absurd hevaluated (by decide)
    · exact absurd hevaluated (by decide)
    · rw [evaluated_eq] at hevaluated
      simp at hevaluated
    · exact .inr (.inr (.inl hleftExpression))
    · rcases hrightValue with hnumber | ⟨text', rfl, hexpression⟩
      · cases right <;> simp [Json.isNumber, textsOf] at hnumber hmem
      · rw [textsOf, List.mem_singleton] at hmem
        rw [hmem]
        exact .inr (.inr (.inl hexpression))
    · rw [hkind] at hevaluated
      exact absurd (hevaluated.symm.trans hoperator.1) (by decide)
    · rw [hoperation] at hevaluated
      exact absurd (hevaluated.symm.trans hoperator.2) (by decide)
    · cases hnone
    · exact absurd hevaluated (by decide)
    · cases hnone
  · intro htype
    simp at htype
  · intro _
    exact ⟨braced left, right, rfl, hleftExpression, hrightValue⟩

end Steps

/-- The trigger nodes of an accepted recipe are safe. -/
theorem triggerNodes_safe (valid : ValidRecipe) (names : List String) {node : Node}
    (hnode : node ∈ triggerNodes valid.recipe) : SafeNode names node := by
  have hmanual : SafeNode names (manualNode valid.recipe.name) := by
    constructor
    · simp [manualNode, allowedNodeTypes]
    · intro text htext
      simp only [manualNode, Option.toList_some, List.mem_cons, List.not_mem_nil, or_false] at htext
      rcases htext with rfl | rfl | rfl
      · decide
      · decide
      · rw [evaluated_eq, webhookId, uuid5Url]
        by_contra hhead
        rw [Bool.not_eq_false, beq_iff_eq] at hhead
        exact not_mem_uuidText _ (List.mem_of_head? hhead)
    · intro text htext hevaluated
      simp only [manualNode, textsOf, textsOfFields, List.nil_append, List.append_nil, List.cons_append,
        List.mem_cons, List.not_mem_nil, or_false] at htext
      rcases htext with rfl | rfl | rfl
      · exact absurd hevaluated (by decide)
      · rw [evaluated_eq] at hevaluated
        simp [webhookPath] at hevaluated
      · exact absurd hevaluated (by decide)
    · intro htype
      simp [manualNode] at htype
    · intro htype
      simp [manualNode] at htype
  cases htrigger : valid.recipe.trigger with
  | manual =>
    rw [triggerNodes, htrigger, List.mem_singleton] at hnode
    exact hnode ▸ hmanual
  | schedule cron =>
    simp only [triggerNodes, htrigger, List.mem_cons, List.not_mem_nil, or_false] at hnode
    rcases hnode with rfl | rfl
    · constructor
      · simp [scheduleNode, allowedNodeTypes]
      · intro text htext
        simp only [scheduleNode, Option.toList_none, List.mem_cons, List.not_mem_nil, or_false] at htext
        rcases htext with rfl | rfl
        · decide
        · decide
      · intro text htext hevaluated
        simp only [scheduleNode, textsOf, textsOfFields, textsOfItems, List.append_nil, List.cons_append,
          List.nil_append, List.mem_cons, List.not_mem_nil, or_false] at htext
        rcases htext with rfl | rfl
        · exact absurd hevaluated (by decide)
        · rw [evaluated_eq, beq_iff_eq] at hevaluated
          exact absurd hevaluated (valid.cron_head htrigger)
      · intro htype
        simp [scheduleNode] at htype
      · intro htype
        simp [scheduleNode] at htype
    · exact hmanual

/-! ## The whole workflow -/

/-- What the loop over the steps keeps: safe nodes, and names of the recipe's own steps. -/
structure Emits (recipe : Recipe) (names : List String) (state : CompileState) : Prop where
  nodes : ∀ node ∈ state.nodes, SafeNode names node
  nodeNames : state.nodeNames.Of recipe

/-- Emitting a safe node under a name of the recipe keeps the state safe. -/
theorem Emits.emit {recipe : Recipe} {names : List String} {state state' : CompileState} {node : Node} {step : Step}
    (h : Emits recipe names state) (hnode : SafeNode names node) (hstep : step ∈ recipe.allSteps)
    (hnodes : state'.nodes = state.nodes ++ [node])
    (hnames : state'.nodeNames = (step.id, nodeName step) :: state.nodeNames) : Emits recipe names state' := by
  constructor
  · intro other hother
    rw [hnodes, List.mem_append, List.mem_singleton] at hother
    rcases hother with hother | rfl
    · exact h.nodes other hother
    · exact hnode
  · rw [hnames]
    exact h.nodeNames.cons hstep

section Loop

variable {valid : ValidRecipe} {names : List String}
  (hemitted : ∀ step ∈ valid.recipe.allSteps, nodeName step ∈ names)
include hemitted

/-- Emitting an action keeps the state safe. -/
theorem emitAction_emits {row : ℤ} {state state' : CompileState} {step : ActionStep}
    (hstep : .action step ∈ valid.recipe.allSteps) (h : Emits valid.recipe names state)
    (hemit : emitAction row state step = .ok state') : Emits valid.recipe names state' := by
  obtain ⟨node, hnode, hemit⟩ := bind_eq_ok.mp hemit
  cases hemit
  exact h.emit (httpNode_safe (fun step hmem => ⟨valid.matchStepId_id hmem, hemitted step hmem⟩)
    (h.nodeNames.cons hstep) (valid.wellFormed hstep) hnode) hstep rfl rfl

/-- Emitting an `if` node keeps the state safe. -/
theorem emitCondition_emits {state state' : CompileState} {step : ConditionStep}
    (hstep : .condition step ∈ valid.recipe.allSteps) (h : Emits valid.recipe names state)
    (hemit : emitCondition state step = .ok state') : Emits valid.recipe names state' := by
  obtain ⟨node, hnode, hemit⟩ := bind_eq_ok.mp hemit
  cases hemit
  exact h.emit (ifNode_safe (fun step hmem => ⟨valid.matchStepId_id hmem, hemitted step hmem⟩)
    (h.nodeNames.cons hstep) (valid.wellFormed hstep) hnode) hstep rfl rfl

/-- Emitting a branch keeps the state safe. -/
theorem emitBranch_emits {row : ℤ} {port : Port} {column : ℕ} {state state' : CompileState}
    {branch : List ActionStep} (hbranch : ∀ step ∈ branch, .action step ∈ valid.recipe.allSteps)
    (h : Emits valid.recipe names state) (hemit : emitBranch row port column state branch = .ok state') :
    Emits valid.recipe names state' := by
  have hreopened : Emits valid.recipe names { state with pending := [port], column := column } :=
    ⟨h.nodes, h.nodeNames⟩
  exact foldlM_invariant (p := Emits valid.recipe names)
    (fun _ step _ hmem hstate => emitAction_emits hemitted (hbranch step hmem) hstate) hreopened hemit

/-- One round of the loop keeps the state safe. -/
theorem compileStep_emits {state state' : CompileState} {step : Step} (hstep : step ∈ valid.recipe.steps)
    (h : Emits valid.recipe names state) (hcompile : compileStep state step = .ok state') :
    Emits valid.recipe names state' := by
  have hpart : ∀ part ∈ step.withBranches, part ∈ valid.recipe.allSteps :=
    fun part hpart => List.mem_flatMap.mpr ⟨step, hstep, hpart⟩
  cases step with
  | action step => exact emitAction_emits hemitted (hpart _ List.mem_cons_self) h hcompile
  | condition step =>
    have hbranch : ∀ branch ∈ step.thenSteps ++ step.elseSteps, .action branch ∈ valid.recipe.allSteps :=
      fun branch hmem => hpart _ (List.mem_cons_of_mem _ (List.mem_map.mpr ⟨branch, hmem, rfl⟩))
    obtain ⟨atIf, hif, hcompile⟩ := bind_eq_ok.mp hcompile
    obtain ⟨afterThen, hthen, hcompile⟩ := bind_eq_ok.mp hcompile
    obtain ⟨afterElse, helse, hcompile⟩ := bind_eq_ok.mp hcompile
    cases hcompile
    have hatIf := emitCondition_emits hemitted (hpart _ List.mem_cons_self) h hif
    have hafterThen := emitBranch_emits hemitted
      (fun branch hmem => hbranch branch (List.mem_append_left _ hmem)) hatIf hthen
    have hafterElse := emitBranch_emits hemitted
      (fun branch hmem => hbranch branch (List.mem_append_right _ hmem)) hafterThen helse
    exact ⟨hafterElse.nodes, hafterElse.nodeNames⟩

/-- The nodes of a compiled recipe are safe. -/
theorem nodes_safe {workflow : Workflow} (hcompile : compileRecipe valid.recipe = .ok workflow) :
    ∀ node ∈ workflow.nodes, SafeNode names node := by
  obtain ⟨state, hstate, hcompile⟩ := bind_eq_ok.mp hcompile
  have hinitial : Emits valid.recipe names (initialState valid.recipe) :=
    ⟨fun node hnode => triggerNodes_safe valid names hnode, fun entry hentry => (by cases hentry)⟩
  have hfinal := foldlM_invariant (p := Emits valid.recipe names)
    (fun _ step _ hmem hstate => compileStep_emits hemitted hmem hstate) hinitial hstate
  dsimp only at hcompile
  split at hcompile
  · cases hcompile
  · cases hcompile
    exact hfinal.nodes

end Loop

end FleetWorkflow.Recipes
