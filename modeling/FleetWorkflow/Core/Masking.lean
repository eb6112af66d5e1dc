import FleetWorkflow.Core.PiiScrub
import FleetWorkflow.Python.Unambiguous
import FleetWorkflow.Python.Value

/-!
# Masking of values

What it means to scrub a value of any depth: each text in it is replaced by its scrubbed text, and a number in whose
numeral an identifier is found by the scrubbed numeral. A masked value is encoded as the value itself only when
there was nothing to mask.
-/

namespace FleetWorkflow.Core

open Python

variable (unicode : Unicode)

/-- Nothing is masked in a text. -/
def Clean (text : String) : Prop := (scrub unicode text).text = text

instance : DecidablePred (Clean unicode) := fun text => inferInstanceAs (Decidable ((scrub unicode text).text = text))

/-- A number, or its scrubbed numeral. -/
def maskNumber (number : Json) (numeral : List Char) : Json :=
  if Clean unicode (String.ofList numeral) then number else .str (scrub unicode (String.ofList numeral)).text

mutual

/-- A value whose texts and numerals are scrubbed. -/
def maskJson : Json → Json
  | .null => .null
  | .bool b => .bool b
  | .int n => maskNumber unicode (.int n) (reprInt n)
  | .float x => maskNumber unicode (.float x) (reprFloat x)
  | .str s => .str (scrub unicode s).text
  | .arr items => .arr (maskItems items)
  | .obj fields => .obj (maskFields fields)

/-- The items of a masked array. -/
def maskItems : List Json → List Json
  | [] => []
  | item :: rest => maskJson item :: maskItems rest

/-- The members of a masked object, whose names are texts too. -/
def maskFields : List (String × Json) → List (String × Json)
  | [] => []
  | (key, value) :: rest => ((scrub unicode key).text, maskJson value) :: maskFields rest

end

mutual

/-- The texts and numerals of a value, at any depth. -/
def textsOf : Json → List String
  | .null => []
  | .bool _ => []
  | .int n => [String.ofList (reprInt n)]
  | .float x => [String.ofList (reprFloat x)]
  | .str s => [s]
  | .arr items => textsOfItems items
  | .obj fields => textsOfFields fields

/-- The texts of an array. -/
def textsOfItems : List Json → List String
  | [] => []
  | item :: rest => textsOf item ++ textsOfItems rest

/-- The texts of an object. -/
def textsOfFields : List (String × Json) → List String
  | [] => []
  | (key, value) :: rest => key :: (textsOf value ++ textsOfFields rest)

end

variable {unicode}

/-- A number is masked unless its numeral is clean. -/
theorem maskNumber_eq_self_iff {number : Json} (h : ∀ s, number ≠ .str s) (numeral : List Char) :
    maskNumber unicode number numeral = number ↔ Clean unicode (String.ofList numeral) := by
  rw [maskNumber]
  split
  · rename_i hclean
    simp [hclean]
  · rename_i hfound
    simp [hfound, (h _).symm]

mutual

/-- Nothing is masked in a value exactly when nothing is in its texts. -/
theorem maskJson_eq_self_iff : ∀ value, maskJson unicode value = value ↔ ∀ text ∈ textsOf value, Clean unicode text
  | .null => by simp [maskJson, textsOf]
  | .bool b => by simp [maskJson, textsOf]
  | .int n => by
    rw [maskJson, maskNumber_eq_self_iff (by simp)]
    simp [textsOf]
  | .float x => by
    rw [maskJson, maskNumber_eq_self_iff (by simp)]
    simp [textsOf]
  | .str s => by simp [maskJson, textsOf, Clean]
  | .arr items => by
    have hitems := maskItems_eq_self_iff items
    simp [maskJson, textsOf, hitems]
  | .obj fields => by
    have hfields := maskFields_eq_self_iff fields
    simp [maskJson, textsOf, hfields]

/-- Nothing is masked in an array exactly when nothing is in its texts. -/
theorem maskItems_eq_self_iff : ∀ items,
    maskItems unicode items = items ↔ ∀ text ∈ textsOfItems items, Clean unicode text
  | [] => by simp [maskItems, textsOfItems]
  | item :: rest => by
    rw [maskItems, List.cons.injEq, maskJson_eq_self_iff item, maskItems_eq_self_iff rest, textsOfItems,
      List.forall_mem_append]

/-- Nothing is masked in an object exactly when nothing is in its texts. -/
theorem maskFields_eq_self_iff : ∀ fields,
    maskFields unicode fields = fields ↔ ∀ text ∈ textsOfFields fields, Clean unicode text
  | [] => by simp [maskFields, textsOfFields]
  | (key, value) :: rest => by
    rw [maskFields, List.cons.injEq, Prod.mk.injEq, maskJson_eq_self_iff value, maskFields_eq_self_iff rest,
      textsOfFields, List.forall_mem_cons, List.forall_mem_append, and_assoc]
    rfl

end

/-- A number is told from its scrubbed numeral. -/
theorem unambiguous_maskNumber {number : Json} (h : ∀ s, Unambiguous escapeRaw number (.str s)) (numeral : List Char) :
    Unambiguous escapeRaw number (maskNumber unicode number numeral) := by
  rw [maskNumber]
  split
  · exact .refl number
  · exact h _

mutual

/-- A value is told from the masked one. -/
theorem unambiguous_maskJson : ∀ value, Unambiguous escapeRaw value (maskJson unicode value)
  | .null => .refl .null
  | .bool b => .refl (.bool b)
  | .int n => by
    rw [maskJson]
    exact unambiguous_maskNumber (unambiguous_int n) _
  | .float x => by
    rw [maskJson]
    exact unambiguous_maskNumber (unambiguous_float x) _
  | .str s => by
    rw [maskJson]
    exact unambiguous_str readBack_escapeRaw s _
  | .arr items => by
    rw [maskJson]
    exact unambiguous_arr (unambiguous_maskItems items)
  | .obj fields => by
    rw [maskJson]
    exact unambiguous_obj readBack_escapeRaw (unambiguous_maskFields fields)

/-- Items are told from the masked ones. -/
theorem unambiguous_maskItems : ∀ items, List.Forall₂ (Unambiguous escapeRaw) items (maskItems unicode items)
  | [] => .nil
  | item :: rest => .cons (unambiguous_maskJson item) (unambiguous_maskItems rest)

/-- Values of members are told from the masked ones. -/
theorem unambiguous_maskFields : ∀ fields : List (String × Json),
    List.Forall₂ (fun field field' => Unambiguous escapeRaw field.2 field'.2) fields (maskFields unicode fields)
  | [] => .nil
  | (_, value) :: rest => .cons (unambiguous_maskJson value) (unambiguous_maskFields rest)

end

end FleetWorkflow.Core
