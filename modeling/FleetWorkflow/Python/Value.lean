import FleetWorkflow.Python.Json

/-!
# Dictionaries and exceptions

The parts of Python's data model that coroutines of the fleet use: exceptions with their text,
truth values, and dictionaries with the two ways of reading a key.
-/

namespace FleetWorkflow.Python

/-- The classes of exceptions that the modelled code raises or tells apart. -/
inductive ExcKind where
  | keyError
  | typeError
  | valueError
  | attributeError
  | assertionError
  | http (status : ℕ)
  | ticketNotLabeled
  | protectedPath
  | diffTooLarge
  | parseError
  | branchNamePattern
  | invalidRecipient
  | disallowedChannel
  | unknownStatus
  | graphRecursion
  | emptyInput
  | integrityError
  | staleData
  | multipleResults
  | gateway
  | indexError
  | overflowError
  | noSuchKey
  | unexpectedResponse
  | clarificationNeeded
  | analyticsClarification
  | governedToolRefusal
  | analyticsRefusal
  | app (status : ℕ) (code : String)
  | requestValidation
  | jwt
  | httpx
  | external
deriving DecidableEq, Repr

/-- An exception and `str(exc)`. -/
structure Exc where
  kind : ExcKind
  message : String
deriving DecidableEq, Repr

/-- The built-in functions on texts and numbers whose results the modelled code only passes on. -/
structure Builtins where
  repr : Json → String
  lower : String → String
  float : Json → Except Exc PyFloat
  int : Json → Except Exc ℤ

/-- `str(value)`, which is `repr(value)` for what is not a string. -/
def Builtins.str (py : Builtins) : Json → String
  | .str s => s
  | value => py.repr value

/-- The string-keyed dictionaries that graph states and request bodies are. -/
abbrev Dict := List (String × Json)

namespace Json

/-- The truth value of a Python object. -/
def truthy : Json → Bool
  | null => false
  | bool b => b
  | int n => n ≠ 0
  | float (.decimal _ digits _) => digits ≠ 0
  | float _ => true
  | str s => s ≠ ""
  | arr items => !items.isEmpty
  | obj fields => !fields.isEmpty

/-- `fields[key]`. -/
def field (fields : Dict) (key : String) : Except Exc Json :=
  match get? fields key with
  | some value => .ok value
  | none => .error ⟨.keyError, "'" ++ key ++ "'"⟩

/-- `value[key]`. -/
def item : Json → String → Except Exc Json
  | obj fields, key => field fields key
  | _, _ => .error ⟨.typeError, "indices must be integers or slices, not 'str'"⟩

/-- `value.get(key, default)`. -/
def getOr : Json → String → Json → Except Exc Json
  | obj fields, key, fallback => .ok ((get? fields key).getD fallback)
  | _, _, _ => .error ⟨.attributeError, "object has no attribute 'get'"⟩

/-- The items that a `for` loop or an unpacking goes through. -/
def iterate : Json → Except Exc (List Json)
  | arr items => .ok items
  | str s => .ok (s.toList.map fun c => str (String.singleton c))
  | obj fields => .ok (fields.map fun field => str field.1)
  | _ => .error ⟨.typeError, "object is not iterable"⟩

/-- `value == text`. -/
def eqStr : Json → String → Bool
  | str s, text => s = text
  | _, _ => false

/-- `text in value`. -/
def contains : Json → String → Except Exc Bool
  | obj fields, text => .ok (get? fields text).isSome
  | arr items, text => .ok (items.any fun item => item.eqStr text)
  | str s, text => .ok (s.toList.tails.any fun rest => text.toList.isPrefixOf rest)
  | _, _ => .error ⟨.typeError, "argument is not iterable"⟩

/-- The mapping unpacked by `**value`. -/
def kwargs : Json → Except Exc Dict
  | obj fields => .ok fields
  | _ => .error ⟨.typeError, "argument after ** must be a mapping"⟩

/-- `fields.get(key)` has a true value. -/
def flag (fields : Dict) (key : String) : Bool :=
  match get? fields key with
  | some value => value.truthy
  | none => false

/-- Merge the writes of a node into the state, key by key. -/
def merge (values writes : Dict) : Dict := writes.foldl (fun values write => insert values write.1 write.2) values

/-- Reading after a write. -/
theorem get?_insert (fields : Dict) (key : String) (value : Json) (other : String) :
    get? (insert fields key value) other = if other = key then some value else get? fields other := by
  by_cases hany : fields.any (fun field => field.1 = key) = true
  · rw [insert, if_pos hany]
    have hkey : ((fun field : String × Json => decide (field.1 = other)) ∘ fun field =>
        if field.1 = key then (key, value) else field) = fun field => decide (field.1 = other) := by
      funext field
      simp only [Function.comp_apply]
      split
      · rename_i heq
        rw [heq]
      · rfl
    simp only [get?, List.find?_map, hkey]
    by_cases hother : other = key
    · subst hother
      obtain ⟨field, hfield⟩ := Option.isSome_iff_exists.mp
        (List.find?_isSome.mpr (List.any_eq_true.mp hany))
      have hname : field.1 = other := by simpa using List.find?_some hfield
      simp [hfield, hname]
    · cases hfind : fields.find? fun field => decide (field.1 = other) with
      | none => simp [hother]
      | some field =>
        have hname : field.1 = other := by simpa using List.find?_some hfind
        simp [hname, hother]
  · rw [insert, if_neg hany]
    simp only [get?, List.find?_append]
    by_cases hother : other = key
    · subst hother
      have hnone : fields.find? (fun field => decide (field.1 = other)) = none := by
        rw [List.find?_eq_none]
        exact fun field hfield hname => hany (List.any_eq_true.mpr ⟨field, hfield, hname⟩)
      simp [hnone]
    · have hskip : ¬ key = other := fun h => hother h.symm
      simp [hskip, hother]

/-- A flag is read through writes that leave its key alone. -/
theorem flag_insert (values : Dict) (key other : String) (value : Json) (h : other ≠ key) :
    flag (insert values key value) other = flag values other := by
  simp only [flag, get?_insert, if_neg h]

/-- A flag that is written. -/
theorem flag_insert_self (values : Dict) (key : String) (value : Json) :
    flag (insert values key value) key = value.truthy := by
  rw [flag, get?_insert, if_pos rfl]

/-- Merging writes key by key. -/
theorem merge_cons (values : Dict) (key : String) (value : Json) (writes : Dict) :
    merge values ((key, value) :: writes) = merge (insert values key value) writes := rfl

/-- Merging nothing. -/
theorem merge_nil (values : Dict) : merge values [] = values := rfl

end Json

end FleetWorkflow.Python
