import Mathlib.Data.List.Dedup
import Mathlib.Data.String.Basic
import FleetWorkflow.Flow.Fallible
import FleetWorkflow.Mcp.JsonSchema
import FleetWorkflow.Python.Value

/-!
# The payload check of a tool call

Every call of a tool goes through one check of its payload against the schema that the tool declares.
The check tells the types of JSON apart with `isinstance`, for which a truth value is an integer and an
integer with a point is none. It looks at the type of a declared property and at no other keyword below it,
has no entry for `null`, and fails on a type that is a list and on a property whose schema is a truth value.

A field is overlooked when the check lets it through and the schema does not, mistaken when it is the other
way round, and refused when neither takes it. From these three the verdicts of a whole call follow.
-/

namespace FleetWorkflow.Mcp

open Python Flow JsonSchema

/-! ## The tools of a server -/

/-- How a tool call fails: with one of the server's own errors or with another exception. -/
inductive ToolError where
  | mcpAuth (message : String)
  | mcpValidation (message : String)
  | exception (exc : Exc)
deriving DecidableEq, Repr

/-- A registered tool, as far as a call reads it. -/
structure ToolContract (Result : Type) where
  inputSchema : Keywords Schema
  fn : Dict → Except ToolError Result

/-! ## Types of Python -/

/-- The types of decoded values. -/
inductive PyType where
  | str
  | int
  | float
  | bool
  | dict
  | list
  | noneType
deriving DecidableEq, Repr

/-- `__name__`. -/
def PyType.name : PyType → String
  | .str => "str"
  | .int => "int"
  | .float => "float"
  | .bool => "bool"
  | .dict => "dict"
  | .list => "list"
  | .noneType => "NoneType"

/-- `type(value)`. -/
def typeOf : Json → PyType
  | .null => .noneType
  | .bool _ => .bool
  | .int _ => .int
  | .float _ => .float
  | .str _ => .str
  | .arr _ => .list
  | .obj _ => .dict

/-- `issubclass(t, u)`: `bool` is a subclass of `int`. -/
def PyType.isSubclass (t u : PyType) : Bool := t = u || (t = .bool && u = .int)

/-- `isinstance(value, types)`. -/
def isInstance (value : Json) (types : List PyType) : Bool := types.any (typeOf value).isSubclass

/-- `_TYPE_MAP.get(expected)`. -/
def typeMap : SimpleType → Option (List PyType)
  | .string => some [.str]
  | .number => some [.int, .float]
  | .integer => some [.int]
  | .boolean => some [.bool]
  | .object => some [.dict]
  | .array => some [.list]
  | .null => none

/-- The name of a type in a schema. -/
def typeText : SimpleType → String
  | .string => "string"
  | .number => "number"
  | .integer => "integer"
  | .boolean => "boolean"
  | .object => "object"
  | .array => "array"
  | .null => "null"

/-! ## The check -/

/-- The round of a required field. -/
def checkRequired (payload : Dict) (field : String) : Except ToolError Unit :=
  if (Json.get? payload field).isSome then .ok () else .error (.mcpValidation ("missing required field: " ++ field))

/-- `sorted(set(payload) - set(properties))`. -/
def extraFields (payload : Dict) (schema : Keywords Schema) : List String :=
  ((payload.map Prod.fst).dedup.filter fun field => (schema.property? field).isNone).mergeSort

/-- `schema.get("additionalProperties") is False`. -/
def isClosed (schema : Keywords Schema) : Bool :=
  match schema.additionalProperties with
  | some (.boolean false) => true
  | _ => false

/-- The check for fields that the schema does not declare. -/
def checkExtra (py : Builtins) (payload : Dict) (schema : Keywords Schema) : Except ToolError Unit :=
  if isClosed schema && !(extraFields payload schema).isEmpty then
    .error (.mcpValidation ("unexpected field(s): " ++ py.str (.arr ((extraFields payload schema).map .str))))
  else .ok ()

/-- `properties.get(field, {}).get("type")`. -/
def expectedType (schema : Keywords Schema) (field : String) : Except ToolError (Option TypeKeyword) :=
  match schema.property? field with
  | none => .ok none
  | some (.boolean _) => .error (.exception ⟨.attributeError, "'bool' object has no attribute 'get'"⟩)
  | some (.object keywords) => .ok keywords.type

/-- The round of a field of the payload; a list has no hash to be looked up with. -/
def checkType (py : Builtins) (schema : Keywords Schema) (field : String) (value : Json) : Except ToolError Unit := do
  match ← expectedType schema field with
  | none => .ok ()
  | some (.several _ _) => .error (.exception ⟨.typeError, "unhashable type: 'list'"⟩)
  | some (.name expected) =>
    match typeMap expected with
    | none => .ok ()
    | some pyType =>
      if isInstance value pyType then .ok ()
      else .error (.mcpValidation ("field " ++ py.repr (.str field) ++ " expected type " ++ typeText expected ++ ", got "
        ++ (typeOf value).name))

/-- `_validate_schema(payload, schema)`. -/
def validateSchema (py : Builtins) (payload : Dict) (schema : Keywords Schema) : Except ToolError Unit := do
  schema.required.forM (checkRequired payload)
  checkExtra py payload schema
  payload.forM fun entry => checkType py schema entry.1 entry.2

/-- A server: its key and its tools by name. -/
structure McpServer (Result : Type) where
  apiKey : String
  tools : List (String × ToolContract Result)

/-- `hmac.compare_digest(a, b)`, which takes ASCII texts only. -/
def compareDigest (a b : String) : Except ToolError Bool :=
  if (a.toList ++ b.toList).all (·.toNat < 128) then .ok (a = b)
  else .error (.exception ⟨.typeError, "comparing strings with non-ASCII characters is not supported"⟩)

/-- `_check_auth(api_key)`. -/
def McpServer.checkAuth {Result : Type} (server : McpServer Result) (apiKey : String) : Except ToolError Unit := do
  if ← compareDigest apiKey server.apiKey then .ok () else .error (.mcpAuth "invalid MCP server API key")

/-- `call_tool(name, payload, api_key=api_key)`. -/
def McpServer.callTool {Result : Type} (py : Builtins) (server : McpServer Result) (name : String) (payload : Dict)
    (apiKey : String) : Except ToolError Result := do
  server.checkAuth apiKey
  match server.tools.lookup name with
  | none => .error (.exception ⟨.keyError, py.repr (.str name)⟩)
  | some tool =>
    validateSchema py payload tool.inputSchema
    tool.fn payload

/-! ## What the check says of a field -/

section Fields

variable {py : Builtins} {schema : Keywords Schema} {payload : Dict} {field : String} {value : Json} {t : SimpleType}

/-- The instance check, where the type map has an entry. -/
def Passes (t : SimpleType) (value : Json) : Prop := ∀ types, typeMap t = some types → isInstance value types = true

/-- A value passes for a type that it is not of. -/
def Confuses : SimpleType → Json → Prop
  | .number, .bool _ | .integer, .bool _ => True
  | .null, .null => False
  | .null, _ => True
  | _, _ => False

/-- A value does not meet the keywords for objects. -/
def Unfit (schema : Keywords Schema) (value : Json) : Prop := ∃ fields, value = .obj fields ∧ ¬schema.Fits fields

/-- A value that the check of a property takes and the schema of the property does not. -/
def Overlooks (property : Keywords Schema) (value : Json) : Prop :=
  match property.type with
  | none => Unfit property value
  | some (.name t) => Confuses t value ∨ t = .object ∧ Unfit property value
  | some (.several _ _) => False

/-- A value that the check of a property does not take and the schema of the property does. -/
def Mistakes (property : Keywords Schema) (value : Json) : Prop :=
  match property.type with
  | none => False
  | some (.name t) => t = .integer ∧ ∃ x, value = .float x ∧ IsIntegral x
  | some (.several _ _) => Valid (.object property) value

/-- A value that neither the check nor the schema of a property takes. -/
def Refuses (property : Keywords Schema) (value : Json) : Prop :=
  match property.type with
  | none => False
  | some (.name t) => ¬t.Holds value ∧ ¬Confuses t value
  | some (.several _ _) => ¬Valid (.object property) value

/-- A field that is let through though the schema forbids it: of a property that the check is too lax on, or
undeclared and not valid under the schema for such fields. -/
def Overlooked (schema : Keywords Schema) (entry : String × Json) : Prop :=
  match schema.property? entry.1 with
  | none => isClosed schema = false ∧ ∃ other, schema.additionalProperties = some other ∧ ¬Valid other entry.2
  | some (.boolean _) => False
  | some (.object property) => Overlooks property entry.2

/-- A field that stops the call though the schema allows it. -/
def Mistaken (schema : Keywords Schema) (entry : String × Json) : Prop :=
  match schema.property? entry.1 with
  | none => False
  | some (.boolean accepts) => accepts = true
  | some (.object property) => Mistakes property entry.2

/-- A field that stops the call and that the schema forbids. -/
def Refused (schema : Keywords Schema) (entry : String × Json) : Prop :=
  match schema.property? entry.1 with
  | none => isClosed schema = true
  | some (.boolean accepts) => accepts = false
  | some (.object property) => Refuses property entry.2

/-- A field passes both checks of the code: it is declared or the schema is open, and its type is right. -/
def Passed (py : Builtins) (schema : Keywords Schema) (entry : String × Json) : Prop :=
  (isClosed schema = true → (schema.property? entry.1).isSome) ∧ checkType py schema entry.1 entry.2 = .ok ()

/-- The instance check fails to be the type check on truth values and for `null`. -/
theorem passes_and_not_holds_iff : Passes t value ∧ ¬t.Holds value ↔ Confuses t value := by
  cases t <;> cases value <;> simp [Passes, typeMap, isInstance, PyType.isSubclass, typeOf, SimpleType.Holds, Confuses]

/-- It turns down integers that are written with a point. -/
theorem not_passes_and_holds_iff :
    ¬Passes t value ∧ t.Holds value ↔ t = .integer ∧ ∃ x, value = .float x ∧ IsIntegral x := by
  cases t <;> cases value <;> simp [Passes, typeMap, isInstance, PyType.isSubclass, typeOf, SimpleType.Holds]

/-- The round of a field without a schema succeeds. -/
theorem checkType_undeclared (h : schema.property? field = none) : checkType py schema field value = .ok () := by
  simp [checkType, expectedType, h, bind, Except.bind]

/-- The round of a field whose schema is a truth value fails. -/
theorem checkType_boolean {accepts : Bool} (h : schema.property? field = some (.boolean accepts)) :
    checkType py schema field value ≠ .ok () := by
  simp [checkType, expectedType, h, bind, Except.bind]

/-- The round of a declared field succeeds exactly when no type is given or the value passes for it. -/
theorem checkType_object_iff {property : Keywords Schema} (h : schema.property? field = some (.object property)) :
    checkType py schema field value = .ok () ↔
      match property.type with
      | none => True
      | some (.name t) => Passes t value
      | some (.several _ _) => False := by
  simp only [checkType, expectedType, h, bind, Except.bind]
  cases property.type with
  | none => simp
  | some keyword =>
    cases keyword with
    | several first others => simp
    | name t =>
      simp only [Passes]
      cases htypes : typeMap t with
      | none => simp
      | some types => by_cases hinstance : isInstance value types = true <;> simp [hinstance]

/-- A value that is no object meets the keywords for objects. -/
theorem valid_iff_not_unfit {property : Keywords Schema} :
    Valid (.object property) value ↔ property.Admits value ∧ ¬Unfit property value := by
  rw [valid_object_iff, Unfit]
  simp only [not_exists, not_and, not_not]

/-- A value under a name of a type. -/
theorem admits_name {property : Keywords Schema} (h : property.type = some (.name t)) :
    property.Admits value ↔ t.Holds value := by
  simp [Keywords.Admits, h, TypeKeyword.Admits]

/-- A value under no type. -/
theorem admits_none {property : Keywords Schema} (h : property.type = none) : property.Admits value := by
  simp [Keywords.Admits, h]

/-- An object under the keywords of a property that names a type which holds of it. -/
theorem eq_object_of_unfit {property : Keywords Schema} (hholds : t.Holds value) (hunfit : Unfit property value) :
    t = .object := by
  rcases hunfit with ⟨fields, rfl, -⟩
  cases t <;> simp [SimpleType.Holds] at hholds ⊢

/-- A value that passes for `object`. -/
theorem passes_object_of_unfit {property : Keywords Schema} (hunfit : Unfit property value) : Passes .object value := by
  rcases hunfit with ⟨fields, rfl, -⟩
  simp [Passes, typeMap, isInstance, PyType.isSubclass, typeOf]

/-- A schema is closed when it has `false` for the fields that it does not declare. -/
theorem isClosed_iff : isClosed schema = true ↔ schema.additionalProperties = some (.boolean false) := by
  rw [isClosed]
  split
  · rename_i h
    simp [h]
  · rename_i h
    simpa using h

/-- Validity of an undeclared field. -/
theorem validField_undeclared (h : schema.property? field = none) :
    schema.ValidField field value ↔ ∀ other, schema.additionalProperties = some other → Valid other value := by
  simp [Keywords.ValidField, Keywords.subschema?, h]

/-- Validity of a declared field. -/
theorem validField_declared {subschema : Schema} (h : schema.property? field = some subschema) :
    schema.ValidField field value ↔ Valid subschema value := by
  simp [Keywords.ValidField, Keywords.subschema?, h]

/-- An undeclared field passes an open schema. -/
theorem passed_undeclared (h : schema.property? field = none) :
    Passed py schema (field, value) ↔ isClosed schema = false := by
  simp [Passed, h, checkType_undeclared h]

/-- A declared field passes when its round does. -/
theorem passed_declared {subschema : Schema} (h : schema.property? field = some subschema) :
    Passed py schema (field, value) ↔ checkType py schema field value = .ok () := by
  simp [Passed, h]

/-- A field is overlooked when it passes and is not valid. -/
theorem overlooked_iff :
    Overlooked schema (field, value) ↔ Passed py schema (field, value) ∧ ¬schema.ValidField field value := by
  rw [Overlooked]
  cases h : schema.property? field with
  | none =>
    rw [passed_undeclared h, validField_undeclared h]
    simp
  | some subschema =>
    rw [passed_declared h, validField_declared h]
    cases subschema with
    | boolean accepts => simp [checkType_boolean h]
    | object property =>
      rw [checkType_object_iff h, valid_iff_not_unfit]
      simp only [Overlooks]
      cases htype : property.type with
      | none => simp [admits_none htype]
      | some keyword =>
        cases keyword with
        | several first others => simp
        | name t =>
          rw [admits_name htype]
          simp only [← passes_and_not_holds_iff]
          constructor
          · rintro (⟨hpasses, hholds⟩ | ⟨rfl, hunfit⟩)
            · exact ⟨hpasses, fun hvalid => hholds hvalid.1⟩
            · exact ⟨passes_object_of_unfit hunfit, fun hvalid => hvalid.2 hunfit⟩
          · rintro ⟨hpasses, hinvalid⟩
            by_cases hholds : t.Holds value
            · have hunfit : Unfit property value := by
                by_contra hfit
                exact hinvalid ⟨hholds, hfit⟩
              exact .inr ⟨eq_object_of_unfit hholds hunfit, hunfit⟩
            · exact .inl ⟨hpasses, hholds⟩

/-- A field is mistaken when it does not pass and is valid. -/
theorem mistaken_iff :
    Mistaken schema (field, value) ↔ ¬Passed py schema (field, value) ∧ schema.ValidField field value := by
  rw [Mistaken]
  cases h : schema.property? field with
  | none =>
    rw [passed_undeclared h, validField_undeclared h, Bool.not_eq_false, isClosed_iff]
    simp only [false_iff, not_and]
    intro hclosed hvalid
    simpa using hvalid _ hclosed
  | some subschema =>
    rw [passed_declared h, validField_declared h]
    cases subschema with
    | boolean accepts => simp [checkType_boolean h]
    | object property =>
      rw [checkType_object_iff h]
      simp only [Mistakes]
      cases htype : property.type with
      | none => simp
      | some keyword =>
        cases keyword with
        | several first others => simp
        | name t =>
          rw [valid_iff_not_unfit, admits_name htype]
          simp only [← not_passes_and_holds_iff]
          constructor
          · rintro ⟨hpasses, hholds⟩
            refine ⟨hpasses, hholds, ?_⟩
            intro hunfit
            have hobject := eq_object_of_unfit hholds hunfit
            exact hpasses (hobject ▸ passes_object_of_unfit hunfit)
          · rintro ⟨hpasses, hholds, -⟩
            exact ⟨hpasses, hholds⟩

/-- A field is refused when it neither passes nor is valid. -/
theorem refused_iff :
    Refused schema (field, value) ↔ ¬Passed py schema (field, value) ∧ ¬schema.ValidField field value := by
  rw [Refused]
  cases h : schema.property? field with
  | none =>
    rw [passed_undeclared h, validField_undeclared h, Bool.not_eq_false]
    constructor
    · intro hclosed
      refine ⟨hclosed, ?_⟩
      intro hvalid
      simpa using hvalid _ (isClosed_iff.mp hclosed)
    · intro hboth
      exact hboth.1
  | some subschema =>
    rw [passed_declared h, validField_declared h]
    cases subschema with
    | boolean accepts => simp [checkType_boolean h]
    | object property =>
      rw [checkType_object_iff h]
      simp only [Refuses]
      cases htype : property.type with
      | none => simp
      | some keyword =>
        cases keyword with
        | several first others => simp
        | name t =>
          rw [valid_iff_not_unfit, admits_name htype]
          simp only [← passes_and_not_holds_iff]
          constructor
          · rintro ⟨hholds, hconfused⟩
            exact ⟨fun hpasses => hconfused ⟨hpasses, hholds⟩, fun hvalid => hholds hvalid.1⟩
          · rintro ⟨hpasses, hinvalid⟩
            refine ⟨?_, fun hconfused => hpasses hconfused.1⟩
            intro hholds
            apply hinvalid
            refine ⟨hholds, ?_⟩
            intro hunfit
            have hobject := eq_object_of_unfit hholds hunfit
            exact hpasses (hobject ▸ passes_object_of_unfit hunfit)

/-! ## The verdict on a payload -/

/-- A payload lacks no required field when the rounds of the required fields succeed. -/
theorem checkRequired_forM_iff : schema.required.forM (checkRequired payload) = .ok () ↔ schema.HasRequired payload := by
  rw [forM_eq_ok_iff]
  apply forall₂_congr
  intro required _
  rw [checkRequired]
  split <;> simp_all

/-- There are extra fields when the payload has a field that is not declared. -/
theorem extraFields_eq_nil_iff : extraFields payload schema = [] ↔ ∀ entry ∈ payload, (schema.property? entry.1).isSome := by
  rw [extraFields, ← List.length_eq_zero_iff, List.length_mergeSort, List.length_eq_zero_iff]
  simp [List.filter_eq_nil_iff, Option.isSome_iff_ne_none]

/-- The check for extra fields succeeds on an open schema and when every field is declared. -/
theorem checkExtra_eq_ok_iff :
    checkExtra py payload schema = .ok () ↔ ∀ entry ∈ payload, isClosed schema = true → (schema.property? entry.1).isSome := by
  rw [checkExtra]
  by_cases hclosed : isClosed schema = true
  · simp only [hclosed, Bool.true_and, Bool.not_eq_true', forall_const, ← extraFields_eq_nil_iff]
    cases extraFields payload schema <;> simp
  · simp [hclosed]

/-- The check succeeds when no required field is missing and every field passes. -/
theorem validateSchema_eq_ok_iff :
    validateSchema py payload schema = .ok () ↔
      schema.HasRequired payload ∧ ∀ entry ∈ payload, Passed py schema entry := by
  rw [validateSchema]
  constructor
  · intro h
    obtain ⟨⟨⟩, hrequired, h⟩ := bind_eq_ok.mp h
    obtain ⟨⟨⟩, hextra, htypes⟩ := bind_eq_ok.mp h
    rw [forM_eq_ok_iff] at htypes
    exact ⟨checkRequired_forM_iff.mp hrequired,
      fun entry hentry => ⟨checkExtra_eq_ok_iff.mp hextra entry hentry, htypes entry hentry⟩⟩
  · rintro ⟨hrequired, hpassed⟩
    have hextra : checkExtra py payload schema = .ok () :=
      checkExtra_eq_ok_iff.mpr fun entry hentry => (hpassed entry hentry).1
    have htypes : payload.forM (fun entry => checkType py schema entry.1 entry.2) = .ok () :=
      forM_eq_ok_iff.mpr fun entry hentry => (hpassed entry hentry).2
    exact bind_eq_ok.mpr ⟨(), checkRequired_forM_iff.mpr hrequired, bind_eq_ok.mpr ⟨(), hextra, htypes⟩⟩

/-- A tool runs in a call exactly when the key is the server's, the tool is registered and the check lets the
payload through. -/
theorem callTool_eq {Result : Type} {server : McpServer Result} {name apiKey : String} {tool : ToolContract Result}
    (hkey : server.checkAuth apiKey = .ok ()) (htool : server.tools.lookup name = some tool) :
    server.callTool py name payload apiKey = (validateSchema py payload tool.inputSchema >>= fun _ => tool.fn payload) := by
  simp [McpServer.callTool, hkey, htool, bind, Except.bind]

/-- Two verdicts, of which each is that all items are well in its own sense, are the same one if an item is ill
in both senses, or if an item is ill in the first only exactly when something is ill in the second only. -/
theorem forall_iff_forall_iff {α : Type} {items : List α} {required admits : Prop} {passed valid : α → Prop} :
    ((required ∧ ∀ x ∈ items, passed x) ↔ admits ∧ required ∧ ∀ x ∈ items, valid x) ↔
      ¬required ∨ (∃ x ∈ items, ¬passed x ∧ ¬valid x) ∨
        ((∃ x ∈ items, ¬passed x ∧ valid x) ↔ ¬admits ∨ ∃ x ∈ items, passed x ∧ ¬valid x) := by
  by_cases hrequired : required
  · simp only [hrequired, true_and, not_true_eq_false, false_or]
    by_cases hboth : ∃ x ∈ items, ¬passed x ∧ ¬valid x
    · simp only [hboth, true_or, iff_true]
      obtain ⟨x, hx, hpassed, hvalid⟩ := hboth
      constructor
      · intro h
        exact absurd (h x hx) hpassed
      · intro h
        exact absurd (h.2 x hx) hvalid
    · simp only [hboth, false_or]
      push Not at hboth
      have hmistaken : (∃ x ∈ items, ¬passed x ∧ valid x) ↔ ¬∀ x ∈ items, passed x := by
        push Not
        exact exists_congr fun x => and_congr_right fun hx => and_iff_left_of_imp (hboth x hx)
      have hoverlooked : (∃ x ∈ items, passed x ∧ ¬valid x) ↔ ¬∀ x ∈ items, valid x := by
        push Not
        apply exists_congr fun x => and_congr_right fun hx => and_iff_right_of_imp fun hvalid => ?_
        by_contra hpassed
        exact hvalid (hboth x hx hpassed)
      rw [hmistaken, hoverlooked]
      tauto
  · simp [hrequired]

/-- The verdicts of the payload check and of the schema are the same one exactly when a required field
is missing, when a field is refused, or when a field is mistaken just if another is overlooked or the schema is for
no objects. -/
theorem validateSchema_agrees_iff (py : Builtins) (schema : Keywords Schema) (payload : Dict) :
    (validateSchema py payload schema = .ok () ↔ Valid (.object schema) (.obj payload)) ↔
      ¬schema.HasRequired payload ∨ (∃ entry ∈ payload, Refused schema entry) ∨
        ((∃ entry ∈ payload, Mistaken schema entry) ↔
          ¬schema.Admits (.obj payload) ∨ ∃ entry ∈ payload, Overlooked schema entry) := by
  have hrefused : (∃ entry ∈ payload, Refused schema entry) ↔
      ∃ entry ∈ payload, ¬Passed py schema entry ∧ ¬schema.ValidField entry.1 entry.2 :=
    exists_congr fun entry => and_congr_right fun _ => refused_iff
  have hmistaken : (∃ entry ∈ payload, Mistaken schema entry) ↔
      ∃ entry ∈ payload, ¬Passed py schema entry ∧ schema.ValidField entry.1 entry.2 :=
    exists_congr fun entry => and_congr_right fun _ => mistaken_iff
  have hoverlooked : (∃ entry ∈ payload, Overlooked schema entry) ↔
      ∃ entry ∈ payload, Passed py schema entry ∧ ¬schema.ValidField entry.1 entry.2 :=
    exists_congr fun entry => and_congr_right fun _ => overlooked_iff
  rw [validateSchema_eq_ok_iff, valid_obj_iff, Keywords.Fits, hrefused, hmistaken, hoverlooked]
  exact forall_iff_forall_iff

end Fields

/-- The built-in functions, with a text quoted as it is. -/
def quotesTexts : Builtins where
  repr
    | .str text => "'" ++ text ++ "'"
    | _ => ""
  lower := id
  float _ := .error ⟨.typeError, ""⟩
  int _ := .error ⟨.typeError, ""⟩

/-- The schema of a tool that takes a number of rows. -/
def rowsSchema : Keywords Schema where
  type := some (.name .object)
  properties := [("limit", .object ⟨some (.name .integer), [], [], none⟩)]
  required := ["limit"]
  additionalProperties := some (.boolean false)

/-- A truth value is let through as the number of rows. -/
theorem limit_true_accepted :
    validateSchema quotesTexts [("limit", .bool true)] rowsSchema = .ok () ∧
      ¬Valid (.object rowsSchema) (.obj [("limit", .bool true)]) := by
  constructor
  · rw [validateSchema_eq_ok_iff]
    simp [Keywords.HasRequired, Passed, rowsSchema, Json.get?, Keywords.property?, checkType, expectedType, typeMap,
      isInstance, typeOf, PyType.isSubclass, bind, Except.bind]
  · simp [Keywords.Fits, rowsSchema, Keywords.ValidField, Keywords.subschema?, Keywords.property?,
      valid_object_iff, Keywords.Admits, TypeKeyword.Admits, SimpleType.Holds]

/-- A number of rows that is written with a point is turned down. -/
example : validateSchema quotesTexts [("limit", .float (.decimal false 50 (-1)))] rowsSchema =
    .error (.mcpValidation "field 'limit' expected type integer, got float") := by
  simp [validateSchema, checkRequired, checkExtra, extraFields, isClosed, rowsSchema, Json.get?, Keywords.property?,
    checkType, expectedType, typeMap, isInstance, typeOf, PyType.isSubclass, bind, Except.bind, quotesTexts, typeText,
    PyType.name, List.forM, pure, Except.pure]

end FleetWorkflow.Mcp
