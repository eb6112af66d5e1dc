import FleetWorkflow.Python.Binary64

/-!
# JSON Schema

The schemas that are written with the keywords `type`, `properties`, `required` and
`additionalProperties`, nested as deep as one likes, and the values that are valid under them. Every
keyword speaks of a value by itself: the last three say something of objects only, and are met by every
other value.

A number is an integer when its fraction is zero, however it is written. Truth values are no numbers.
-/

namespace FleetWorkflow.JsonSchema

open Python

/-! ## Schemas -/

/-- The names that `type` may give. -/
inductive SimpleType where
  | string
  | number
  | integer
  | boolean
  | object
  | array
  | null
deriving DecidableEq, Repr

/-- The value of `type`: a name, or a list of at least one. -/
inductive TypeKeyword where
  | name (t : SimpleType)
  | several (first : SimpleType) (others : List SimpleType)

/-- The keywords of a schema whose subschemas are of a type; an absent `properties` or `required` is an
empty one. -/
structure Keywords (S : Type) where
  type : Option TypeKeyword
  properties : List (String × S)
  required : List String
  additionalProperties : Option S

/-- A schema: `true`, `false` or an object of keywords. -/
inductive Schema where
  | boolean (accepts : Bool)
  | object (keywords : Keywords Schema)

/-- The schema of a declared property. -/
def Keywords.property? (schema : Keywords Schema) (field : String) : Option Schema := schema.properties.lookup field

/-- The schema that the value of a field has to meet, if there is one. -/
def Keywords.subschema? (schema : Keywords Schema) (field : String) : Option Schema :=
  match schema.property? field with
  | some subschema => some subschema
  | none => schema.additionalProperties

/-! ## Validity -/

/-- A number without a fraction. -/
def IsIntegral (x : PyFloat) : Prop := ∃ n : ℤ, x.value = .finite n

/-- A value is of a type. -/
def SimpleType.Holds : SimpleType → Json → Prop
  | .string, .str _ | .boolean, .bool _ | .object, .obj _ | .array, .arr _ | .null, .null => True
  | .number, .int _ | .number, .float _ | .integer, .int _ => True
  | .integer, .float x => IsIntegral x
  | _, _ => False

/-- A value meets the keyword `type`. -/
def TypeKeyword.Admits : TypeKeyword → Json → Prop
  | .name t, value => t.Holds value
  | .several first others, value => ∃ t ∈ first :: others, t.Holds value

/-- A value meets the keyword `type` of a schema, which may be absent. -/
def Keywords.Admits (schema : Keywords Schema) (value : Json) : Prop := ∀ t ∈ schema.type, t.Admits value

/-- An object has the fields that a schema requires. -/
def Keywords.HasRequired (schema : Keywords Schema) (fields : List (String × Json)) : Prop :=
  ∀ field ∈ schema.required, (Json.get? fields field).isSome

/-- A value is valid under a schema. -/
inductive Valid : Schema → Json → Prop where
  | always (value : Json) : Valid (.boolean true) value
  | keywords {schema : Keywords Schema} {value : Json} (htype : schema.Admits value)
      (hrequired : ∀ fields, value = .obj fields → schema.HasRequired fields)
      (hfields : ∀ fields, value = .obj fields → ∀ entry ∈ fields, ∀ subschema,
        schema.subschema? entry.1 = some subschema → Valid subschema entry.2) : Valid (.object schema) value

/-- A field and its value are valid under the subschema for the field. -/
def Keywords.ValidField (schema : Keywords Schema) (field : String) (value : Json) : Prop :=
  ∀ subschema, schema.subschema? field = some subschema → Valid subschema value

/-- An object meets the keywords that speak of objects. -/
def Keywords.Fits (schema : Keywords Schema) (fields : List (String × Json)) : Prop :=
  schema.HasRequired fields ∧ ∀ entry ∈ fields, schema.ValidField entry.1 entry.2

/-- The schemas `true` and `false`. -/
@[simp]
theorem valid_boolean_iff {accepts : Bool} {value : Json} : Valid (.boolean accepts) value ↔ accepts = true := by
  constructor
  · intro h
    cases h
    rfl
  · intro h
    rw [h]
    exact .always value

/-- A value is valid under keywords when it meets each of them. -/
theorem valid_object_iff {schema : Keywords Schema} {value : Json} :
    Valid (.object schema) value ↔ schema.Admits value ∧ ∀ fields, value = .obj fields → schema.Fits fields := by
  constructor
  · intro h
    cases h with
    | keywords htype hrequired hfields =>
      exact ⟨htype, fun fields hvalue => ⟨hrequired fields hvalue, fun entry hentry => hfields fields hvalue entry hentry⟩⟩
  · intro h
    exact .keywords h.1 (fun fields hvalue => (h.2 fields hvalue).1)
      fun fields hvalue entry hentry => (h.2 fields hvalue).2 entry hentry

/-- An object is valid under keywords when it is of the type and meets the others. -/
theorem valid_obj_iff {schema : Keywords Schema} {fields : List (String × Json)} :
    Valid (.object schema) (.obj fields) ↔ schema.Admits (.obj fields) ∧ schema.Fits fields := by
  rw [valid_object_iff]
  apply and_congr_right
  intro _
  constructor
  · intro h
    exact h fields rfl
  · intro h fields' hfields
    rw [← Json.obj.inj hfields]
    exact h

end FleetWorkflow.JsonSchema
