import FleetWorkflow.Flow.Fallible
import FleetWorkflow.Flow.Pieces
import FleetWorkflow.Recipes.Compiler
import FleetWorkflow.Web.Expressions

/-!
# What a compiled text evaluates to

A text with references is emitted as a sum of string literals and members of the outputs of nodes. JavaScript reads
the sum as it is written unless a word of a path starts with a digit, and it puts texts together only from the first
summand on that is a text: what stands before it is added up.
-/

namespace FleetWorkflow.Recipes

open FleetWorkflow.Flow FleetWorkflow.Python FleetWorkflow.Web

/-! ## The values of an expression -/

/-- A primitive value that is no text. -/
inductive Plain where
  | undefined
  | null
  | bool (b : Bool)
  | number (x : JsNumber)
deriving DecidableEq

/-- A primitive value. -/
inductive Primitive where
  | plain (p : Plain)
  | string (units : List ℕ)
deriving DecidableEq

/-- A value of an expression: one of JSON, `undefined`, the function that finds nodes, a node, its item, or another value
of the runtime. -/
inductive N8nValue (N : Type) where
  | json (value : JsValue)
  | undefined
  | lookup
  | node (name : List ℕ)
  | item (node : List ℕ)
  | other (x : N)

/-- The sum of two numbers. -/
def addNumbers : JsNumber → JsNumber → JsNumber
  | .nan, _ => .nan
  | _, .nan => .nan
  | .infinity negative, .infinity negative' => if negative = negative' then .infinity negative else .nan
  | .infinity negative, _ => .infinity negative
  | _, .infinity negative => .infinity negative
  | .negativeZero, y => y
  | x, .negativeZero => x
  | .finite x, .finite y => nearestDouble (x + y < 0) |x + y|

/-- The number that a primitive value is in a sum of numbers. -/
def Plain.toNumber : Plain → JsNumber
  | .undefined => .nan
  | .null => .finite 0
  | .bool b => .finite (if b then 1 else 0)
  | .number x => x

/-- What the runtime does beyond what is said here: the outputs of its nodes, how numbers are written, its names, its
functions, the properties that are not a value's own, and its other values in a sum. -/
structure Runtime (N : Type) where
  outputs : List ℕ → JsValue
  numberText : JsNumber → List ℕ
  named : List Char → Option (N8nValue N)
  applied : N8nValue N → N8nValue N → Option (N8nValue N)
  inherited : N8nValue N → List Char → Option (N8nValue N)
  primitive : N8nValue N → Option Primitive

section Evaluation

variable {N : Type} (rt : Runtime N)

/-- The text of a primitive value that is none. -/
def Plain.text : Plain → List ℕ
  | .undefined => utf16 "undefined".toList
  | .null => utf16 "null".toList
  | .bool b => utf16 (if b then "true" else "false").toList
  | .number x => rt.numberText x

/-- The text of a primitive value. -/
def Primitive.text : Primitive → List ℕ
  | .plain p => p.text rt
  | .string units => units

mutual

/-- `String(value)`; an object with a property `toString` has no text. -/
def textOfJson : JsValue → Option (List ℕ)
  | .null => some (utf16 "null".toList)
  | .bool b => some (utf16 (if b then "true" else "false").toList)
  | .number x => some (rt.numberText x)
  | .string units => some units
  | .array items => (textsOfElements items).map fun texts => List.intercalate (utf16 [',']) texts
  | .object fields =>
    if fields.any fun field => field.1 = utf16 "toString".toList then none else some (utf16 "[object Object]".toList)

/-- The texts that an array joins. -/
def textsOfElements : List JsValue → Option (List (List ℕ))
  | [] => some []
  | item :: rest => do
    let text ← match item with
      | .null => some []
      | value => textOfJson value
    let texts ← textsOfElements rest
    return text :: texts

end

/-- `ToPrimitive(value)`. -/
def toPrimitive : N8nValue N → Option Primitive
  | .json .null => some (.plain .null)
  | .json (.bool b) => some (.plain (.bool b))
  | .json (.number x) => some (.plain (.number x))
  | .json value => (textOfJson rt value).map .string
  | .undefined => some (.plain .undefined)
  | value => rt.primitive value

/-- The value that a primitive is. -/
def Primitive.value : Primitive → N8nValue N
  | .plain .undefined => .undefined
  | .plain .null => .json .null
  | .plain (.bool b) => .json (.bool b)
  | .plain (.number x) => .json (.number x)
  | .string units => .json (.string units)

/-- The sum of two primitive values: texts are put together, other values are added up. -/
def combine : Primitive → Primitive → Primitive
  | .plain p, .plain q => .plain (.number (addNumbers p.toNumber q.toNumber))
  | p, q => .string (p.text rt ++ q.text rt)

/-- A property of its own that a value of JSON has under a name. -/
def ownProperty (name : List Char) : JsValue → Option JsValue
  | .object fields => (fields.find? fun field => field.1 = utf16 name).map Prod.snd
  | .array items => if name = "length".toList then some (.number (numberOf false items.length 0)) else none
  | .string units => if name = "length".toList then some (.number (numberOf false units.length 0)) else none
  | _ => none

/-- The property of a value under a name. -/
def propertyOf : N8nValue N → List Char → Option (N8nValue N)
  | .undefined, _ => none
  | .json .null, _ => none
  | .json value, name =>
    match ownProperty name value with
    | some found => some (.json found)
    | none => rt.inherited (.json value) name
  | .node node, name => if name = "item".toList then some (.item node) else rt.inherited (.node node) name
  | .item node, name => if name = "json".toList then some (.json (rt.outputs node)) else rt.inherited (.item node) name
  | value, name => rt.inherited value name

/-- Where n8n evaluates its expressions. -/
def Runtime.realm : Realm (N8nValue N) where
  string units := .json (.string units)
  named name := if name = ['$'] then some .lookup else rt.named name
  call
    | .lookup, .json (.string units) => some (.node units)
    | f, x => rt.applied f x
  member := propertyOf rt
  add x y := do
    let p ← toPrimitive rt x
    let q ← toPrimitive rt y
    return (combine rt p q).value

end Evaluation

/-! ## What a text means -/

section Meaning

variable {N : Type} (rt : Runtime N) (nodeNames : NodeNames)

/-- The words of a dotted path. -/
def pathWords (path : String) : List (List Char) := path.toList.splitOn '.'

/-- The value that a reference refers to: the property of the node's output at the end of the path. -/
def referenced (ref : StepReference) : Option (N8nValue N) := do
  let target ← nodeNames.get ref.step
  (pathWords ref.path).foldlM (propertyOf rt) (.json (rt.outputs (utf16 target.toList)))

/-- The value of a segment. -/
def segmentValue : Segment → Option (N8nValue N)
  | .literal text => some (.json (.string (utf16 text.toList)))
  | .reference ref => referenced rt nodeNames ref

/-- The primitive value of a segment, as which it is put together with others. -/
def segmentPrimitive (segment : Segment) : Option Primitive := segmentValue rt nodeNames segment >>= toPrimitive rt

/-- What a text means: the value of its only reference, or the texts of its segments put together. -/
def meaning (value : String) : Option (N8nValue N) :=
  match segments value with
  | [.reference ref] => referenced rt nodeNames ref
  | parts => do
    let primitives ← parts.mapM (segmentPrimitive rt nodeNames)
    return .json (.string (primitives.flatMap (Primitive.text rt)))

/-- A code is an expression that evaluates to what a text means. -/
def MeansText (value code : String) : Prop :=
  ∃ expr, readJs code.toList = some expr ∧ expr.eval rt.realm = meaning rt nodeNames value

/-- A word does not start with a digit. -/
def NamesMember (word : List Char) : Prop := ∀ c ∈ word.head?, isAsciiDigit c = false

/-- The sum of primitive values that are no texts. -/
def Plain.total : List Plain → Plain
  | [] => .undefined
  | p :: rest => rest.foldl (fun x y => .number (addNumbers x.toNumber y.toNumber)) p

/-- There is a text among the values, and what stands before the first one is one value at most, or is written like
its sum. -/
def TextFirst (primitives : List Primitive) : Prop :=
  ∃ (lead : List Plain) (units : List ℕ) (rest : List Primitive), primitives = lead.map .plain ++ .string units :: rest ∧
    (lead.length ≤ 1 ∨ (Plain.total lead).text rt = lead.flatMap (Plain.text rt))

end Meaning

/-! ## Putting values together -/

section Sums

variable {N : Type} (rt : Runtime N)

/-- The value of a primitive is that primitive. -/
@[simp] theorem toPrimitive_value (p : Primitive) : toPrimitive rt p.value = some p := by
  cases p with
  | plain p => cases p <;> rfl
  | string units => rfl

/-- Once there is a text, texts are put together. -/
theorem foldl_combine_string (primitives : List Primitive) (units : List ℕ) :
    primitives.foldl (combine rt) (.string units) = .string (units ++ primitives.flatMap (Primitive.text rt)) := by
  induction primitives generalizing units with
  | nil => rw [List.foldl_nil, List.flatMap_nil, List.append_nil]
  | cons p rest ih =>
    have hnext : combine rt (.string units) p = .string (units ++ p.text rt) := by cases p <;> rfl
    rw [List.foldl_cons, hnext, ih, List.flatMap_cons, List.append_assoc]

/-- As long as there is no text, numbers are added up. -/
theorem foldl_combine_plain (lead : List Plain) (p : Plain) :
    (lead.map Primitive.plain).foldl (combine rt) (.plain p) = .plain (Plain.total (p :: lead)) := by
  rw [Plain.total, List.foldl_map]
  induction lead generalizing p with
  | nil => rfl
  | cons q rest ih => exact ih _

/-- Values are what stands before the first text, and that text with what follows it, or there is no text. -/
theorem exists_lead (primitives : List Primitive) : (∃ lead : List Plain, primitives = lead.map .plain) ∨
    ∃ (lead : List Plain) (units : List ℕ) (rest : List Primitive), primitives = lead.map .plain ++ .string units :: rest := by
  induction primitives with
  | nil => exact .inl ⟨[], rfl⟩
  | cons p primitives ih =>
    cases p with
    | string units => exact .inr ⟨[], units, primitives, rfl⟩
    | plain p =>
      rcases ih with ⟨lead, rfl⟩ | ⟨lead, units, rest, rfl⟩
      · exact .inl ⟨p :: lead, rfl⟩
      · exact .inr ⟨p :: lead, units, rest, rfl⟩

/-- The text that follows what is no text is found in one way only. -/
theorem lead_unique {lead lead' : List Plain} {units units' : List ℕ} {rest rest' : List Primitive}
    (h : lead.map Primitive.plain ++ .string units :: rest = lead'.map Primitive.plain ++ .string units' :: rest') :
    lead = lead' := by
  induction lead generalizing lead' with
  | nil =>
    cases lead' with
    | nil => rfl
    | cons q others => cases h
  | cons p tail ih =>
    cases lead' with
    | nil => cases h
    | cons q others =>
      obtain ⟨hp, htail⟩ := List.cons.inj h
      rw [Primitive.plain.inj hp, ih htail]

/-- Values before a text are put together as texts exactly when there is one at most, or they are written like their
sum. -/
theorem foldl_combine_lead (p : Plain) (lead : List Plain) (units : List ℕ) (rest : List Primitive) :
    (lead.map Primitive.plain ++ .string units :: rest).foldl (combine rt) (.plain p) =
        .string ((Primitive.plain p :: (lead.map .plain ++ .string units :: rest)).flatMap (Primitive.text rt)) ↔
      (Plain.total (p :: lead)).text rt = (p :: lead).flatMap (Plain.text rt) := by
  have hsum : combine rt (.plain (Plain.total (p :: lead))) (.string units) =
      .string ((Plain.total (p :: lead)).text rt ++ units) := rfl
  have htexts : (Primitive.plain p :: (lead.map .plain ++ .string units :: rest)).flatMap (Primitive.text rt) =
      (p :: lead).flatMap (Plain.text rt) ++ (units ++ rest.flatMap (Primitive.text rt)) := by
    rw [← List.cons_append, ← List.map_cons, List.flatMap_append, List.flatMap_map, List.flatMap_cons]
    rfl
  rw [List.foldl_append, foldl_combine_plain, List.foldl_cons, hsum, foldl_combine_string, htexts, Primitive.string.injEq,
    List.append_assoc]
  exact List.append_left_inj _

/-- Two or more values are put together as texts exactly when there is a text first. -/
theorem foldl_combine_iff (first second : Primitive) (rest : List Primitive) :
    (second :: rest).foldl (combine rt) first = .string ((first :: second :: rest).flatMap (Primitive.text rt)) ↔
      TextFirst rt (first :: second :: rest) := by
  cases first with
  | string units =>
    apply iff_of_true
    · rw [foldl_combine_string]
      rfl
    · exact ⟨[], units, second :: rest, rfl, .inl (Nat.zero_le 1)⟩
  | plain p =>
    rcases exists_lead (second :: rest) with ⟨lead, hlead⟩ | ⟨lead, units, after, hlead⟩
    · apply iff_of_false
      · rw [hlead, foldl_combine_plain]
        exact fun h => by cases h
      · rintro ⟨lead', units, after, hsplit, -⟩
        rw [hlead, ← List.map_cons] at hsplit
        have hmem : Primitive.string units ∈ (p :: lead).map Primitive.plain := by
          rw [hsplit]
          exact List.mem_append_right _ List.mem_cons_self
        obtain ⟨q, -, hq⟩ := List.mem_map.mp hmem
        cases hq
    · rw [hlead, foldl_combine_lead]
      constructor
      · exact fun h => ⟨p :: lead, units, after, rfl, .inr h⟩
      · rintro ⟨lead', units', after', hsplit, hor⟩
        obtain rfl : p :: lead = lead' := lead_unique hsplit
        rcases hor with hshort | htotal
        · obtain rfl : lead = [] := List.eq_nil_of_length_eq_zero (by simpa using hshort)
          exact (List.append_nil _).symm
        · exact htotal

end Sums

/-! ## The summand of a segment -/

section Summands

variable {N : Type} (rt : Runtime N) (nodeNames : NodeNames)

/-- The access to the output of a node. -/
def outputTokens (target : String) : List JsToken :=
  [.name ['$'], .opening, .string (utf16 target.toList), .closing, .dot, .name "item".toList, .dot, .name "json".toList]

/-- The expression of that access. -/
def outputExpr (target : String) : JsExpr :=
  .member (.member (.call (.name ['$']) (.string (utf16 target.toList))) "item".toList) "json".toList

/-- The tokens of a point and a word: a number when the word starts with a digit. -/
def wordTokens (word : List Char) : List JsToken :=
  if (word.head?.map isAsciiDigit) = some true then [.number ('.' :: word)] else [.dot, .name word]

/-- The tokens of a segment, and the expression that they are if they are one. -/
def operandOf : Segment → List JsToken × JsExpr
  | .literal text => ([.string (utf16 text.toList)], .string (utf16 text.toList))
  | .reference ref =>
    let target := (nodeNames.get ref.step).getD ""
    (outputTokens target ++ (pathWords ref.path).flatMap wordTokens, (pathWords ref.path).foldl .member (outputExpr target))

/-- The members of a value, one after another. -/
theorem eval_members (words : List (List Char)) (expr : JsExpr) :
    (words.foldl .member expr).eval rt.realm = expr.eval rt.realm >>= fun value => words.foldlM (propertyOf rt) value := by
  induction words generalizing expr with
  | nil => exact (bind_pure _).symm
  | cons word words ih =>
    rw [List.foldl_cons, ih]
    simp only [JsExpr.eval, bind_assoc, List.foldlM_cons]
    rfl

/-- The access to the output of a node evaluates to it. -/
theorem eval_outputExpr (target : String) :
    (outputExpr target).eval rt.realm = some (.json (rt.outputs (utf16 target.toList))) := rfl

/-- The expression of a segment evaluates to the value of the segment. -/
theorem eval_operandOf {segment : Segment} {part : String} (h : jsPart nodeNames segment = .ok part) :
    (operandOf nodeNames segment).2.eval rt.realm = segmentValue rt nodeNames segment := by
  cases segment with
  | literal text => rfl
  | reference ref =>
    cases htarget : nodeNames.get ref.step with
    | none =>
      rw [jsPart, htarget] at h
      cases h
    | some target =>
      rw [segmentValue, referenced, htarget]
      show ((pathWords ref.path).foldl JsExpr.member (outputExpr ((nodeNames.get ref.step).getD ""))).eval rt.realm = _
      rw [htarget, eval_members, Option.getD_some, eval_outputExpr]
      rfl

/-- What a sum of two summands evaluates to. -/
theorem eval_plus (left right : JsExpr) : (JsExpr.plus left right).eval rt.realm = do
    let p ← left.eval rt.realm >>= toPrimitive rt
    let q ← right.eval rt.realm >>= toPrimitive rt
    return (combine rt p q).value := by
  rw [JsExpr.eval]
  cases left.eval rt.realm with
  | none => rfl
  | some x =>
    cases right.eval rt.realm with
    | none => cases hx : toPrimitive rt x <;> simp [hx]
    | some y => rfl

/-- What a sum of several summands evaluates to. -/
theorem eval_summands {parts : List Segment} (h : ∀ part ∈ parts, ∃ code, jsPart nodeNames part = .ok code) (hparts : parts ≠ [])
    (left : JsExpr) : ((parts.map (operandOf nodeNames)).foldl (fun sum operand => .plus sum operand.2) left).eval rt.realm = do
      let p ← left.eval rt.realm >>= toPrimitive rt
      let primitives ← parts.mapM (segmentPrimitive rt nodeNames)
      return (primitives.foldl (combine rt) p).value := by
  induction parts generalizing left with
  | nil => exact absurd rfl hparts
  | cons part rest ih =>
    obtain ⟨code, hcode⟩ := h part List.mem_cons_self
    have hplus := eval_plus rt left (operandOf nodeNames part).2
    rw [eval_operandOf rt nodeNames hcode, ← segmentPrimitive] at hplus
    rw [List.map_cons, List.foldl_cons, List.mapM_cons]
    cases rest with
    | nil =>
      rw [List.map_nil, List.foldl_nil, hplus, List.mapM_nil]
      cases left.eval rt.realm >>= toPrimitive rt <;> cases segmentPrimitive rt nodeNames part <;> rfl
    | cons next others =>
      rw [ih (fun other hother => h other (List.mem_cons_of_mem _ hother)) (by simp), hplus]
      cases left.eval rt.realm >>= toPrimitive rt <;> cases segmentPrimitive rt nodeNames part <;>
        cases (next :: others).mapM (segmentPrimitive rt nodeNames) <;>
          simp only [Option.bind_eq_bind, Option.bind_none, Option.bind_some, Option.pure_def, toPrimitive_value,
            List.foldl_cons]

end Summands

/-! ## The words of a path -/

/-- A path is cut into words of path characters, of which the first is empty only when no word starts the path. -/
theorem splitOn_scanPathRest (cs : List Char) : ∃ word words, (scanPathRest cs).splitOn '.' = word :: words ∧
    (∀ other ∈ word :: words, ∀ c ∈ other, isPathChar c = true) ∧ (∀ other ∈ words, other ≠ []) ∧
      ((∃ c ∈ cs.head?, isPathChar c = true) → word ≠ []) := by
  have hend : ∃ word words, ([] : List Char).splitOn '.' = word :: words ∧
      (∀ other ∈ word :: words, ∀ c ∈ other, isPathChar c = true) ∧ ∀ other ∈ words, other ≠ [] :=
    ⟨[], [], rfl, by simp, by simp⟩
  induction cs with
  | nil =>
    obtain ⟨word, words, hsplit, hchars, hrest⟩ := hend
    exact ⟨word, words, hsplit, hchars, hrest, by simp⟩
  | cons c rest ih =>
    obtain ⟨word, words, hsplit, hchars, hwords, hfirst⟩ := ih
    rw [scanPathRest.eq_def]
    dsimp only
    by_cases hword : isPathChar c = true
    · have hdot : c ≠ '.' := by
        rintro rfl
        cases hword
      rw [if_pos hword, List.splitOn_cons_eq_if_modifyHead, if_neg (by simpa using hdot), hsplit]
      refine ⟨c :: word, words, rfl, ?_, hwords, fun _ => by simp⟩
      intro other hother d hd
      rcases List.mem_cons.mp hother with rfl | hother
      · rcases List.mem_cons.mp hd with rfl | hd
        · exact hword
        · exact hchars word List.mem_cons_self d hd
      · exact hchars other (List.mem_cons_of_mem _ hother) d hd
    · rw [if_neg hword]
      obtain ⟨last, none, hsplitEnd, hcharsEnd, hrestEnd⟩ := hend
      have hstops : (∃ d ∈ (c :: rest).head?, isPathChar d = true) → last ≠ [] := by
        rintro ⟨d, hd, hpath⟩
        obtain rfl : c = d := by simpa using hd
        exact absurd hpath hword
      by_cases hdot : c = '.'
      · rw [if_pos hdot]
        cases rest with
        | nil => exact ⟨last, none, hsplitEnd, hcharsEnd, hrestEnd, hstops⟩
        | cons d more =>
          dsimp only
          by_cases hnext : isPathChar d = true
          · rw [if_pos hnext, hdot, List.splitOn_cons_eq_if_modifyHead, if_pos (by simp), hsplit]
            refine ⟨[], word :: words, rfl, ?_, ?_, ?_⟩
            · exact List.forall_mem_cons.mpr ⟨by simp, hchars⟩
            · exact List.forall_mem_cons.mpr ⟨hfirst ⟨d, rfl, hnext⟩, hwords⟩
            · rintro ⟨e, he, hpath⟩
              obtain rfl : '.' = e := by simpa using he
              cases hpath
          · rw [if_neg hnext]
            exact ⟨last, none, hsplitEnd, hcharsEnd, hrestEnd, hstops⟩
      · rw [if_neg hdot]
        exact ⟨last, none, hsplitEnd, hcharsEnd, hrestEnd, hstops⟩

/-- The words of a referenced path are not empty, and have path characters only. -/
theorem pathWords_of_mem_segments {value : String} {ref : StepReference} (h : Segment.reference ref ∈ segments value) :
    ∀ word ∈ pathWords ref.path, word ≠ [] ∧ ∀ c ∈ word, isPathChar c = true := by
  obtain ⟨cs, rest, -, hmatch⟩ := exists_match_of_mem_segments h
  obtain ⟨after, hpath, hne⟩ := matchReference_path hmatch
  cases after with
  | nil => exact absurd rfl hne
  | cons c more =>
    rw [scanPath] at hpath hne
    split at hpath
    · rename_i hword
      obtain ⟨word, words, hsplit, hchars, hwords, hfirst⟩ := splitOn_scanPathRest (c :: more)
      rw [pathWords, hpath, hsplit]
      intro other hother
      refine ⟨?_, hchars other hother⟩
      rcases List.mem_cons.mp hother with rfl | hother
      · exact hfirst ⟨c, rfl, hword⟩
      · exact hwords other hother
    · rename_i hword
      rw [if_neg hword] at hne
      exact absurd rfl hne

/-- A path with a point in front is its words with a point in front of each. -/
theorem dot_path_eq (path : String) : '.' :: path.toList = (pathWords path).flatMap ('.' :: ·) := by
  have hjoined : ['.'].intercalate (pathWords path) = path.toList := List.intercalate_splitOn '.'
  obtain ⟨word, words, hwords⟩ := List.exists_cons_of_ne_nil (List.splitOn_ne_nil '.' path.toList)
  rw [pathWords, hwords, intercalate_cons_eq_flatMap] at hjoined
  rw [pathWords, hwords, ← hjoined]
  rfl

/-! ## What is emitted is read -/

section Emitted

variable {nodeNames : NodeNames}

/-- Every token ends before a blank, and before nothing. -/
theorem endsBefore_blank (token : JsToken) (rest : List Char) : token.EndsBefore (' ' :: rest) ∧ token.EndsBefore [] := by
  have hname : ∀ c ∈ (' ' :: rest).head?, continuesName c = false := by
    intro c hc
    obtain rfl : ' ' = c := by simpa using hc
    decide
  have hdigit : ∀ c ∈ (' ' :: rest).head?, isAsciiDigit c = false := by
    intro c hc
    obtain rfl : ' ' = c := by simpa using hc
    decide
  cases token with
  | name chars => exact ⟨hname, by simp [JsToken.EndsBefore]⟩
  | number chars => exact ⟨hname, by simp [JsToken.EndsBefore]⟩
  | dot => exact ⟨hdigit, by simp [JsToken.EndsBefore]⟩
  | _ => exact ⟨trivial, trivial⟩

/-- A path character continues a name, and starts one unless it is a digit. -/
theorem continuesName_of_isPathChar {c : Char} (h : isPathChar c = true) : continuesName c = true := by
  simp only [isPathChar, Bool.or_eq_true, decide_eq_true_eq] at h
  simp only [continuesName, startsName, Bool.or_eq_true, decide_eq_true_eq]
  tauto

/-- A path character that is no digit starts a name. -/
theorem startsName_of_isPathChar {c : Char} (h : isPathChar c = true) (hdigit : isAsciiDigit c = false) :
    startsName c = true := by
  simp only [isPathChar, hdigit, Bool.or_eq_true, decide_eq_true_eq, Bool.false_eq_true, or_false] at h
  simp only [startsName, Bool.or_eq_true, decide_eq_true_eq]
  tauto

/-- The words of a path, each with its point, are written with their tokens. -/
theorem spellsAll_words {words : List (List Char)} (h : ∀ word ∈ words, word ≠ [] ∧ ∀ c ∈ word, isPathChar c = true) :
    SpellsAll (words.flatMap wordTokens) (words.flatMap ('.' :: ·)) := by
  induction words with
  | nil => exact .nil
  | cons word words ih =>
    have hlater := ih fun other hother => h other (List.mem_cons_of_mem _ hother)
    have hends : ∀ c ∈ (words.flatMap ('.' :: ·)).head?, continuesName c = false := by
      intro c hc
      cases words with
      | nil => cases hc
      | cons other others =>
        obtain rfl : '.' = c := by simpa using hc
        decide
    obtain ⟨hne, hchars⟩ := h word List.mem_cons_self
    obtain ⟨c, more, rfl⟩ := List.exists_cons_of_ne_nil hne
    have hmore : ∀ d ∈ more, continuesName d = true := fun d hd =>
      continuesName_of_isPathChar (hchars d (List.mem_cons_of_mem _ hd))
    rw [List.flatMap_cons, List.flatMap_cons, wordTokens]
    split
    · rename_i hdigit
      have hdigit : isAsciiDigit c = true := by simpa using hdigit
      exact .cons (.number hdigit hmore) hends hlater
    · rename_i hdigit
      have hdigit : isAsciiDigit c = false := by simpa using hdigit
      have hstarts := startsName_of_isPathChar (hchars c List.mem_cons_self) hdigit
      have hname : SpellsAll (.name (c :: more) :: words.flatMap wordTokens) ((c :: more) ++ words.flatMap ('.' :: ·)) :=
        .cons (.name hstarts hmore) hends hlater
      have hdot : SpellsAll (.dot :: .name (c :: more) :: words.flatMap wordTokens)
          (['.'] ++ ((c :: more) ++ words.flatMap ('.' :: ·))) := by
        refine .cons .dot ?_ hname
        intro d hd
        obtain rfl : c = d := by simpa using hd
        exact hdigit
      exact hdot

/-- The access to the output of a node is written with its tokens. -/
theorem spellsAll_output (target : String) (rest : List JsToken) {cs : List Char} (h : SpellsAll rest cs)
    (hends : ∀ c ∈ cs.head?, continuesName c = false) :
    SpellsAll (outputTokens target ++ rest)
      ("$(".toList ++ ((dumpsStr target).toList ++ (").item.json".toList ++ cs))) := by
  have hname {chars : List Char} {after : List Char} (hafter : ∀ c ∈ after.head?, continuesName c = false) :
      (JsToken.name chars).EndsBefore after := hafter
  have hjson : SpellsAll (.name "json".toList :: rest) ("json".toList ++ cs) :=
    .cons (.name (by decide) (List.all_eq_true.mp (by decide))) hends h
  have hitem : SpellsAll (.name "item".toList :: .dot :: .name "json".toList :: rest)
      ("item".toList ++ (['.'] ++ ("json".toList ++ cs))) :=
    .cons (.name (by decide) (List.all_eq_true.mp (by decide))) (hname (by simp; decide))
      (.cons .dot (by simp [JsToken.EndsBefore]; decide) hjson)
  have hclosing : SpellsAll (.closing :: .dot :: .name "item".toList :: .dot :: .name "json".toList :: rest)
      ([')'] ++ (['.'] ++ ("item".toList ++ (['.'] ++ ("json".toList ++ cs))))) :=
    .cons .closing trivial (.cons .dot (by simp [JsToken.EndsBefore]; decide) hitem)
  have hopening := SpellsAll.cons Spells.opening trivial (SpellsAll.cons (Spells.string target) trivial hclosing)
  have hlookup : Spells (.name ['$']) ['$'] := .name (by decide) (by simp)
  have hall := SpellsAll.cons hlookup (hname (by simp; decide)) hopening
  have hstart : "$(".toList = ['$', '('] := by decide
  have hmiddle : ").item.json".toList = [')'] ++ (['.'] ++ ("item".toList ++ (['.'] ++ "json".toList))) := by decide
  rw [hstart, hmiddle, outputTokens]
  simpa only [List.append_assoc, List.cons_append, List.nil_append] using hall

/-- What is emitted for a segment is written with its tokens. -/
theorem spellsAll_operandOf {segment : Segment} {part : String} (h : jsPart nodeNames segment = .ok part)
    (hwords : ∀ ref, segment = .reference ref → ∀ word ∈ pathWords ref.path, word ≠ [] ∧ ∀ c ∈ word, isPathChar c = true) :
    SpellsAll (operandOf nodeNames segment).1 part.toList := by
  cases segment with
  | literal text =>
    cases h
    have hnone := SpellsAll.cons (Spells.string text) trivial .nil
    rw [List.append_nil] at hnone
    exact hnone
  | reference ref =>
    cases htarget : nodeNames.get ref.step with
    | none =>
      rw [jsPart, htarget] at h
      cases h
    | some target =>
      rw [jsPart, htarget] at h
      cases h
      have hpath := spellsAll_words (hwords ref rfl)
      rw [← dot_path_eq] at hpath
      have hall := spellsAll_output target _ hpath (by simp; decide)
      simp only [operandOf, htarget, Option.getD_some, String.toList_append, List.append_assoc]
      exact hall

/-- The segments of an accepted text have summands that are written as they are emitted. -/
theorem spellsAll_code {first : Segment} {others : List Segment} {part : String} {parts : List String}
    (hfirst : jsPart nodeNames first = .ok part)
    (hothers : List.Forall₂ (fun segment part => jsPart nodeNames segment = .ok part) others parts)
    (hwords : ∀ ref, .reference ref ∈ first :: others → ∀ word ∈ pathWords ref.path, word ≠ [] ∧
      ∀ c ∈ word, isPathChar c = true) :
    SpellsAll ((operandOf nodeNames first).1 ++ summands (others.map (operandOf nodeNames)))
      (" + ".intercalate (part :: parts)).toList := by
  have hplus : " + ".toList = [' ', '+', ' '] := by decide
  rw [String.toList_intercalate, List.map_cons, intercalate_cons_eq_flatMap, hplus, List.flatMap_map]
  apply (spellsAll_operandOf hfirst fun ref href => hwords ref (href ▸ List.mem_cons_self)).append
  · have hlater : ∀ ref, .reference ref ∈ others → ∀ word ∈ pathWords ref.path, word ≠ [] ∧
        ∀ c ∈ word, isPathChar c = true := fun ref href => hwords ref (List.mem_cons_of_mem _ href)
    clear hwords hfirst
    induction hothers with
    | nil => exact .nil
    | @cons segment part others parts hpart hrest ih =>
      have hspelt := spellsAll_operandOf hpart fun ref href => hlater ref (href ▸ List.mem_cons_self)
      have hafter := ih fun ref href => hlater ref (List.mem_cons_of_mem _ href)
      have hboth := hspelt.append hafter fun token _ => by
        cases parts with
        | nil => exact (endsBefore_blank token []).2
        | cons next more => exact (endsBefore_blank token _).1
      have hall : SpellsAll (.plus :: ((operandOf nodeNames segment).1 ++ summands (others.map (operandOf nodeNames))))
          ([' ', '+', ' '] ++ (part.toList ++ parts.flatMap fun part => [' ', '+', ' '] ++ part.toList)) :=
        .cons .plus trivial hboth
      rw [List.flatMap_cons, List.append_assoc]
      exact hall
  · intro token _
    cases parts with
    | nil => exact (endsBefore_blank token []).2
    | cons next more => exact (endsBefore_blank token _).1

/-! ## Which segments are read -/

/-- A segment is read as a member of an output or as a text: no word of its path starts with a digit. -/
def NamesMembers (segment : Segment) : Prop :=
  ∀ ref, segment = .reference ref → ∀ word ∈ pathWords ref.path, NamesMember word

/-- The access to an output is read with its members. -/
theorem parseOperand_output (target : String) {fuel : ℕ} (hfuel : 8 ≤ fuel) (rest : List JsToken) :
    parseOperand fuel (outputTokens target ++ rest) = parseSuffixes (fuel - 4) (outputExpr target) rest := by
  obtain ⟨fuel, rfl⟩ : ∃ n, fuel = n + 8 := ⟨fuel - 8, by omega⟩
  rfl

/-- A word that starts with no digit is a member. -/
theorem wordTokens_of_namesMember {word : List Char} (h : NamesMember word) : wordTokens word = [.dot, .name word] := by
  rw [wordTokens, if_neg]
  intro hdigit
  obtain ⟨c, hc, hdigit⟩ := Option.map_eq_some_iff.mp hdigit
  rw [h c hc] at hdigit
  cases hdigit

/-- A segment whose words are members is a summand. -/
theorem readsOperand_of_namesMembers {segment : Segment} (h : NamesMembers segment) :
    ReadsOperand (operandOf nodeNames segment).1 (operandOf nodeNames segment).2 := by
  cases segment with
  | literal text => exact readsOperand_string _
  | reference ref =>
    intro fuel rest hfuel hrest
    have hwords : ∀ words : List (List Char), (∀ word ∈ words, NamesMember word) →
        words.flatMap wordTokens = words.flatMap fun word => [.dot, .name word] := by
      intro words hwords
      exact List.flatMap_congr fun word hword => wordTokens_of_namesMember (hwords word hword)
    simp only [operandOf, hwords _ (h ref rfl)] at hfuel ⊢
    have hlength : ∀ words : List (List Char), (words.flatMap fun word => [JsToken.dot, .name word]).length = 2 * words.length := by
      intro words
      simp [List.length_flatMap, Nat.mul_comm]
    rw [List.length_append, hlength] at hfuel
    have houtput : (outputTokens ((nodeNames.get ref.step).getD "")).length = 8 := rfl
    rw [List.append_assoc, parseOperand_output _ (by omega), parseSuffixes_members _ _ (by omega),
      parseSuffixes_ends (by omega) _ hrest]

/-- A segment with a word that starts with a digit is a summand up to a number. -/
theorem stopsAtNumber_of_not_namesMembers {segment : Segment} (h : ¬ NamesMembers segment) :
    StopsAtNumber (operandOf nodeNames segment).1 := by
  cases segment with
  | literal text => exact absurd (fun ref href => by cases href) h
  | reference ref =>
    have hsome : ¬ ∀ word ∈ pathWords ref.path, NamesMember word := by
      intro hall
      apply h
      intro ref' href
      cases href
      exact hall
    obtain ⟨before, word, after, hpath, hbefore, hword⟩ := exists_first_not NamesMember hsome
    have hnumber : wordTokens word = [.number ('.' :: word)] := by
      rw [wordTokens, if_pos]
      rw [NamesMember] at hword
      simp only [not_forall, Bool.not_eq_false] at hword
      obtain ⟨c, hc, hdigit⟩ := hword
      rw [Option.mem_def.mp hc, Option.map_some, hdigit]
    intro fuel rest hfuel
    have hmembers : before.flatMap wordTokens = before.flatMap fun word => [.dot, .name word] :=
      List.flatMap_congr fun other hother => wordTokens_of_namesMember (hbefore other hother)
    have hlength : (before.flatMap fun word => [JsToken.dot, .name word]).length = 2 * before.length := by
      simp [List.length_flatMap, Nat.mul_comm]
    have houtput : (outputTokens ((nodeNames.get ref.step).getD "")).length = 8 := rfl
    simp only [operandOf, hpath, List.flatMap_append, List.flatMap_cons, hnumber, hmembers, List.length_append, hlength,
      houtput] at hfuel ⊢
    refine ⟨before.foldl .member (outputExpr ((nodeNames.get ref.step).getD "")), '.' :: word, after.flatMap wordTokens ++ rest, ?_⟩
    rw [List.append_assoc, parseOperand_output _ (by omega), List.append_assoc, parseSuffixes_members _ _ (by omega)]
    obtain ⟨n, hn⟩ : ∃ n, fuel - 4 - before.length = n + 1 := ⟨fuel - 4 - before.length - 1, by omega⟩
    rw [hn]
    simp [parseSuffixes]

/-- The emitted sum of two summands or more, or the only summand, is read when all of its words are members. -/
theorem readJs_code_iff {first : Segment} {others : List Segment} {part : String} {parts : List String}
    (hfirst : jsPart nodeNames first = .ok part)
    (hothers : List.Forall₂ (fun segment part => jsPart nodeNames segment = .ok part) others parts)
    (hwords : ∀ ref, .reference ref ∈ first :: others → ∀ word ∈ pathWords ref.path, word ≠ [] ∧
      ∀ c ∈ word, isPathChar c = true) (expr : JsExpr) :
    readJs (" + ".intercalate (part :: parts)).toList = some expr ↔ (∀ segment ∈ first :: others, NamesMembers segment) ∧
      expr = (others.map (operandOf nodeNames)).foldl (fun sum operand => .plus sum operand.2) (operandOf nodeNames first).2 := by
  rw [readJs_of_spellsAll (spellsAll_code hfirst hothers hwords)]
  have hoperands {before : List Segment} (hbefore : ∀ segment ∈ before, NamesMembers segment) :
      ∀ operand ∈ before.map (operandOf nodeNames), ReadsOperand operand.1 operand.2 := by
    intro operand hoperand
    obtain ⟨segment, hsegment, rfl⟩ := List.mem_map.mp hoperand
    exact readsOperand_of_namesMembers (hbefore segment hsegment)
  by_cases hall : ∀ segment ∈ first :: others, NamesMembers segment
  · obtain ⟨hnames, hlater⟩ := List.forall_mem_cons.mp hall
    rw [parseJs_sum (readsOperand_of_namesMembers hnames) (hoperands hlater), Option.some.injEq, and_iff_right hall, eq_comm]
  · refine iff_of_false ?_ fun h => hall h.1
    have hnone : parseJs ((operandOf nodeNames first).1 ++ summands (others.map (operandOf nodeNames))) = none := by
      by_cases hnames : NamesMembers first
      · have hlater : ¬ ∀ segment ∈ others, NamesMembers segment := fun hlater =>
          hall (List.forall_mem_cons.mpr ⟨hnames, hlater⟩)
        obtain ⟨before, short, after, rfl, hbefore, hshort⟩ := exists_first_not NamesMembers hlater
        have hsplit : summands ((before ++ short :: after).map (operandOf nodeNames)) =
            summands (before.map (operandOf nodeNames)) ++ .plus :: ((operandOf nodeNames short).1 ++
              summands (after.map (operandOf nodeNames))) := by
          rw [summands, List.map_append, List.flatMap_append, List.map_cons, List.flatMap_cons]
          rfl
        rw [hsplit]
        exact parseJs_later_short (readsOperand_of_namesMembers hnames) (hoperands hbefore)
          (stopsAtNumber_of_not_namesMembers hshort) _
      · exact parseJs_first_short (stopsAtNumber_of_not_namesMembers hnames) _
    rw [hnone]
    exact fun h => by cases h

end Emitted

/-! ## When the code means the text -/

section Means

variable {N : Type} (rt : Runtime N) {nodeNames : NodeNames}

/-- A primitive is a text exactly when its value is. -/
theorem value_eq_string_iff (p : Primitive) (units : List ℕ) :
    (p.value : N8nValue N) = .json (.string units) ↔ p = .string units := by
  cases p with
  | plain p => cases p <;> simp [Primitive.value]
  | string units' => simp [Primitive.value]

/-- The meaning of two segments or more is the text of their sum exactly when a text comes first, if they have values. -/
theorem eval_code_iff {first second : Segment} {others : List Segment}
    (h : ∀ part ∈ first :: second :: others, ∃ code, jsPart nodeNames part = .ok code) :
    (((second :: others).map (operandOf nodeNames)).foldl (fun sum operand => .plus sum operand.2)
        (operandOf nodeNames first).2).eval rt.realm = (do
          let primitives ← (first :: second :: others).mapM (segmentPrimitive rt nodeNames)
          return .json (.string (primitives.flatMap (Primitive.text rt)))) ↔
      ∀ primitives, (first :: second :: others).mapM (segmentPrimitive rt nodeNames) = some primitives →
        TextFirst rt primitives := by
  obtain ⟨⟨code, hcode⟩, hlater⟩ := List.forall_mem_cons.mp h
  have hmeaning : (first :: second :: others).mapM (segmentPrimitive rt nodeNames) = do
      let p ← segmentPrimitive rt nodeNames first
      let q ← segmentPrimitive rt nodeNames second
      let primitives ← others.mapM (segmentPrimitive rt nodeNames)
      return p :: q :: primitives := by
    simp only [List.mapM_cons, bind_assoc, pure_bind]
  have hsum := eval_summands rt nodeNames hlater (by simp) (operandOf nodeNames first).2
  rw [eval_operandOf rt nodeNames hcode, ← segmentPrimitive] at hsum
  rw [hsum, hmeaning, List.mapM_cons]
  cases segmentPrimitive rt nodeNames first with
  | none => simp
  | some p =>
    cases segmentPrimitive rt nodeNames second with
    | none => simp
    | some q =>
      cases others.mapM (segmentPrimitive rt nodeNames) with
      | none => simp
      | some primitives =>
        simp only [Option.bind_eq_bind, Option.bind_some, Option.pure_def, Option.some.injEq, forall_eq', value_eq_string_iff]
        exact foldl_combine_iff rt p q primitives

/-- The expression of a text evaluates to what the text means exactly when no word of a path starts with a digit, and,
for several segments that all have values, a text comes first. -/
theorem jsExpression_means_iff {value code : String} (hcode : jsExpression nodeNames value = .ok code) :
    MeansText rt nodeNames value code ↔ (∀ segment ∈ segments value, NamesMembers segment) ∧
      ((segments value).length ≤ 1 ∨ ∀ primitives, (segments value).mapM (segmentPrimitive rt nodeNames) = some primitives →
        TextFirst rt primitives) := by
  obtain ⟨parts, hparts, hcode⟩ := bind_eq_ok.mp hcode
  have hemitted := forall₂_of_mapM hparts
  have hwords : ∀ ref, .reference ref ∈ segments value → ∀ word ∈ pathWords ref.path, word ≠ [] ∧
      ∀ c ∈ word, isPathChar c = true := fun ref href => pathWords_of_mem_segments href
  obtain rfl : (if parts.isEmpty then dumpsStr "" else " + ".intercalate parts) = code := Except.ok.inj hcode
  rw [MeansText, meaning]
  clear hparts hcode
  generalize segments value = pieces at hemitted hwords
  cases hemitted with
  | nil =>
    have hread : readJs (dumpsStr "").toList = some (.string []) := by decide
    exact iff_of_true ⟨_, hread, rfl⟩ ⟨List.forall_mem_nil _, .inl (Nat.zero_le 1)⟩
  | @cons first part others parts hfirst hothers =>
    simp only [List.isEmpty_cons, Bool.false_eq_true, if_false, readJs_code_iff hfirst hothers hwords, and_assoc,
      exists_and_left, exists_eq_left]
    apply and_congr_right
    intro _
    cases hothers with
    | nil =>
      apply iff_of_true _ (.inl (Nat.le_refl 1))
      rw [List.map_nil, List.foldl_nil, eval_operandOf rt nodeNames hfirst]
      cases first with
      | literal text =>
        show some _ = some (N8nValue.json (.string (utf16 text.toList ++ [])))
        rw [List.append_nil]
      | reference ref => rfl
    | @cons second next others parts hsecond hothers =>
      have hall : List.Forall₂ (fun segment part => jsPart nodeNames segment = .ok part) (first :: second :: others)
          (part :: next :: parts) := .cons hfirst (.cons hsecond hothers)
      have hemitted : ∀ segment ∈ first :: second :: others, ∃ code, jsPart nodeNames segment = .ok code := by
        intro segment hsegment
        obtain ⟨code, -, hcode⟩ := exists_of_forall₂ hall.flip hsegment
        exact ⟨code, hcode⟩
      have hseveral : ¬ (first :: second :: others).length ≤ 1 := by simp
      rw [or_iff_right hseveral, ← eval_code_iff rt hemitted]
      cases first <;> rfl

/-- A runtime in which every node has put out three rows. -/
def threeRows : Runtime Unit where
  outputs _ := .object [(utf16 "rows".toList, .number (.finite 3))]
  numberText x := utf16 (if x = .finite 3 then "3" else "6").toList
  named _ := none
  applied _ _ := none
  inherited _ _ := none
  primitive _ := none

/-- A number after a text is put into the text; two numbers are added up instead. -/
theorem threeRows_means :
    MeansText threeRows [("q", "Query (q)")] "Rows: \x7b\x7bsteps.q.rows\x7d\x7d"
        "\"Rows: \" + $(\"Query (q)\").item.json.rows" ∧
      ¬ MeansText threeRows [("q", "Query (q)")] "\x7b\x7bsteps.q.rows\x7d\x7d\x7b\x7bsteps.q.rows\x7d\x7d"
        "$(\"Query (q)\").item.json.rows + $(\"Query (q)\").item.json.rows" := by
  have hnames : ∀ segment ∈ [Segment.literal "Rows: ", .reference ⟨"q", "rows"⟩], NamesMembers segment := by
    rintro segment hsegment ref rfl
    obtain rfl : ref = ⟨"q", "rows"⟩ := by simpa using hsegment
    rw [show pathWords "rows" = ["rows".toList] by decide]
    intro word hword
    obtain rfl := List.mem_singleton.mp hword
    intro c hc
    obtain rfl : 'r' = c := Option.mem_some_iff.mp hc
    rfl
  constructor
  · refine (jsExpression_means_iff threeRows (by decide)).mpr ?_
    have hsegments : segments "Rows: \x7b\x7bsteps.q.rows\x7d\x7d" = [.literal "Rows: ", .reference ⟨"q", "rows"⟩] := by
      decide
    have hvalues : [Segment.literal "Rows: ", .reference ⟨"q", "rows"⟩].mapM (segmentPrimitive threeRows [("q", "Query (q)")]) =
        some [.string (utf16 "Rows: ".toList), .plain (.number (.finite 3))] := by
      decide
    rw [hsegments, hvalues]
    refine ⟨hnames, .inr ?_⟩
    rintro primitives h
    cases h
    exact ⟨[], _, _, rfl, .inl (Nat.zero_le 1)⟩
  · intro hmeans
    have hsegments : segments "\x7b\x7bsteps.q.rows\x7d\x7d\x7b\x7bsteps.q.rows\x7d\x7d" =
        [.reference ⟨"q", "rows"⟩, .reference ⟨"q", "rows"⟩] := by
      decide
    have hvalues : [Segment.reference ⟨"q", "rows"⟩, .reference ⟨"q", "rows"⟩].mapM
        (segmentPrimitive threeRows [("q", "Query (q)")]) =
          some [.plain (.number (.finite 3)), .plain (.number (.finite 3))] := by
      decide
    have hor := ((jsExpression_means_iff threeRows (by decide)).mp hmeans).2
    rw [hsegments, hvalues] at hor
    rcases hor with hshort | hfirst
    · simp at hshort
    · obtain ⟨lead, units, rest, hsplit, -⟩ := hfirst _ rfl
      have hmem : Primitive.string units ∈ [Primitive.plain (.number (.finite 3)), .plain (.number (.finite 3))] := by
        rw [hsplit]
        exact List.mem_append_right _ List.mem_cons_self
      simp at hmem

end Means

end FleetWorkflow.Recipes
