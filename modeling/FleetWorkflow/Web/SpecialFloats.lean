import FleetWorkflow.Web.JsonCodec

/-!
# Floats that are no numbers

The encoder writes an infinite or undefined float as a word. No such word is in the grammar, so that a text with one
is refused as a whole, wherever in the value the float stands.
-/

namespace FleetWorkflow.Web

open Python

mutual

/-- A float that is no number stands in a value, and JSON can hold what is written before it. -/
def Special : Json → Prop
  | .float (.decimal ..) => False
  | .float _ => True
  | .arr items => SpecialItems items
  | .obj fields => SpecialFields fields
  | _ => False

/-- The items of a list. -/
def SpecialItems : List Json → Prop
  | [] => False
  | item :: rest => Special item ∨ Encodable item ∧ SpecialItems rest

/-- The members of a dictionary. -/
def SpecialFields : List (String × Json) → Prop
  | [] => False
  | (_, value) :: rest => Special value ∨ Encodable value ∧ SpecialFields rest

end

/-- The first character of a value that is read, or refused for a float. -/
theorem dumps_head_of_special {value : Json} (h : Special value ∨ Encodable value) :
    ∃ c cs, encode escapeChar value = c :: cs ∧ Json.isJsonSpace c = false ∧ c ≠ ']' := by
  rcases h with hspecial | hvalue
  · cases value with
    | null => exact hspecial.elim
    | bool b => exact hspecial.elim
    | int n => exact hspecial.elim
    | float x =>
      cases x with
      | decimal negative digits exponent => exact hspecial.elim
      | infinity negative => cases negative <;> exact ⟨_, _, rfl, rfl, by decide⟩
      | nan => exact ⟨'N', _, rfl, rfl, by decide⟩
    | str s => exact hspecial.elim
    | arr items => exact ⟨'[', _, rfl, rfl, by decide⟩
    | obj fields => exact ⟨'\x7b', _, rfl, rfl, by decide⟩
  · obtain ⟨c, cs, heq, hspace, hclose, -⟩ := dumps_head hvalue
    exact ⟨c, cs, heq, hspace, hclose⟩

/-- One blank is skipped. -/
theorem skipSpace_blank {c : Char} (hc : Json.isJsonSpace c = false) (cs : List Char) :
    Json.skipSpace (' ' :: c :: cs) = c :: cs := by
  rw [Json.skipSpace, List.dropWhile_cons, if_pos (by rfl)]
  exact skipSpace_cons hc cs

/-- The first character of the items of a list. -/
theorem dumpsItems_head_of_special {item : Json} (h : Special item ∨ Encodable item) (rest : List Json) :
    ∃ c cs, encodeItems escapeChar (item :: rest) = c :: cs ∧ Json.isJsonSpace c = false ∧ c ≠ ']' := by
  obtain ⟨c, cs, heq, hspace, hclose⟩ := dumps_head_of_special h
  cases rest with
  | nil => exact ⟨c, cs, heq, hspace, hclose⟩
  | cons next more =>
    rw [encodeItems_cons, heq]
    exact ⟨c, _, rfl, hspace, hclose⟩

/-- A member is refused with its value. -/
theorem scanFields_member_of_none {key : String} {value : Json} {fuel : ℕ} {read : List (List ℕ × JsValue)}
    {after : List Char} (hvalue : Special value ∨ Encodable value)
    (hscan : scanValue fuel (encode escapeChar value ++ after) = none) :
    scanFields (fuel + 1) read (literal escapeChar key ++ ':' :: ' ' :: (encode escapeChar value ++ after)) = none := by
  obtain ⟨c, cs, heq, hspace, -⟩ := dumps_head_of_special hvalue
  rw [heq, List.cons_append] at hscan ⊢
  rw [literal, List.cons_append, List.append_assoc, List.singleton_append, scanFields]
  simp only [scanText_escaped, Option.bind_eq_bind, Option.bind_some]
  rw [skipSpace_cons (by rfl)]
  simp only [skipSpace_blank hspace, hscan, Option.bind_none]

mutual

/-- A value with a float that is no number is not read. -/
theorem scanValue_special : ∀ (value : Json) (fuel : ℕ) (rest : List Char), Special value → Ends rest →
    (encode escapeChar value).length ≤ fuel → scanValue fuel (encode escapeChar value ++ rest) = none
  | _, 0, _, _, _, _ => rfl
  | .null, _ + 1, _, h, _, _ => h.elim
  | .bool _, _ + 1, _, h, _, _ => h.elim
  | .int _, _ + 1, _, h, _, _ => h.elim
  | .float (.decimal ..), _ + 1, _, h, _, _ => h.elim
  | .float (.infinity negative), _ + 1, _, _, _, _ => by cases negative <;> rfl
  | .float .nan, _ + 1, _, _, _, _ => rfl
  | .str _, _ + 1, _, h, _, _ => h.elim
  | .arr [], _ + 1, _, h, _, _ => h.elim
  | .arr (item :: more), fuel + 1, rest, h, _, hfuel => by
    obtain ⟨c, cs, heq, hspace, hclose⟩ := dumpsItems_head_of_special (h.imp_right And.left) more
    have hread := scanItems_special (item :: more) fuel [] rest h (by
      simp only [encode, List.length_cons, List.length_append, List.length_nil] at hfuel
      omega)
    rw [encode, List.cons_append, List.append_assoc, List.singleton_append]
    rw [heq, List.cons_append] at hread ⊢
    rw [scanValue_array hspace hclose, hread]
    rfl
  | .obj [], _ + 1, _, h, _, _ => h.elim
  | .obj ((key, value) :: more), fuel + 1, rest, h, _, hfuel => by
    have hread := scanFields_special ((key, value) :: more) fuel [] rest h (by
      simp only [encode, List.length_cons, List.length_append, List.length_nil] at hfuel
      omega)
    obtain ⟨cs, heq⟩ := dumpsFields_head (key, value) more
    rw [encode, List.cons_append, List.append_assoc, List.singleton_append]
    rw [heq, List.cons_append] at hread ⊢
    rw [scanValue_object, hread]
    rfl

/-- The items are not read up to the end. -/
theorem scanItems_special : ∀ (items : List Json) (fuel : ℕ) (read : List JsValue) (rest : List Char),
    SpecialItems items → (encodeItems escapeChar items).length + 1 ≤ fuel →
      scanItems fuel read (encodeItems escapeChar items ++ ']' :: rest) = none
  | _, 0, _, _, _, hfuel => absurd hfuel (Nat.not_succ_le_zero _)
  | [], _, _, _, h, _ => h.elim
  | [item], fuel + 1, read, rest, h, hfuel => by
    have hitem : Special item := h.resolve_right And.right
    rw [encodeItems] at hfuel ⊢
    rw [scanItems, scanValue_special item fuel _ hitem (ends_cons (by simp) rest) (by omega)]
    rfl
  | item :: next :: more, fuel + 1, read, rest, h, hfuel => by
    rw [encodeItems_cons, List.length_append, List.length_cons, List.length_cons] at hfuel
    rw [encodeItems_cons, List.append_assoc, List.cons_append, List.cons_append, scanItems]
    rcases h with hitem | ⟨hitem, hmore⟩
    · rw [scanValue_special item fuel _ hitem (ends_cons (by simp) _) (by omega)]
      rfl
    · obtain ⟨c, cs, heq, hspace, -⟩ := dumpsItems_head_of_special (hmore.imp_right And.left) more
      have hread := scanItems_special (next :: more) fuel (read ++ [ofPython item]) rest hmore (by omega)
      rw [scanValue_dumps item fuel _ hitem (ends_cons (by simp) _) (by omega)]
      simp only [Option.bind_eq_bind, Option.bind_some]
      rw [heq, List.cons_append] at hread ⊢
      rw [skipSpace_cons (by rfl)]
      simp only [skipSpace_blank hspace, hread]

/-- The members are not read up to the end. -/
theorem scanFields_special : ∀ (fields : List (String × Json)) (fuel : ℕ) (read : List (List ℕ × JsValue))
    (rest : List Char), SpecialFields fields → (encodeFields escapeChar fields).length + 1 ≤ fuel →
      scanFields fuel read (encodeFields escapeChar fields ++ '\x7d' :: rest) = none
  | _, 0, _, _, _, hfuel => absurd hfuel (Nat.not_succ_le_zero _)
  | [], _, _, _, h, _ => h.elim
  | [(key, value)], fuel + 1, read, rest, h, hfuel => by
    have hvalue : Special value := h.resolve_right And.right
    rw [encodeFields, List.length_append, List.length_cons, List.length_cons] at hfuel
    have hscan := scanValue_special value fuel _ hvalue (ends_cons (c := '\x7d') (by simp) rest) (by omega)
    rw [encodeFields, List.append_assoc, List.cons_append, List.cons_append]
    exact scanFields_member_of_none (.inl hvalue) hscan
  | (key, value) :: next :: more, fuel + 1, read, rest, h, hfuel => by
    rw [encodeFields_cons, List.length_append, List.length_cons, List.length_cons, List.length_append, List.length_cons,
      List.length_cons] at hfuel
    rw [encodeFields_cons]
    simp only [List.append_assoc, List.cons_append]
    rcases h with hvalue | ⟨hvalue, hmore⟩
    · have hscan := scanValue_special value fuel
        (',' :: ' ' :: (encodeFields escapeChar (next :: more) ++ '\x7d' :: rest)) hvalue (ends_cons (by simp) _) (by omega)
      exact scanFields_member_of_none (.inl hvalue) hscan
    · have hscan := scanValue_dumps value fuel
        (',' :: ' ' :: (encodeFields escapeChar (next :: more) ++ '\x7d' :: rest)) hvalue (ends_cons (by simp) _) (by omega)
      have hread := scanFields_special (next :: more) fuel
        (defineProperty read (utf16 key.toList) (ofPython value)) rest hmore (by omega)
      obtain ⟨cs, heq⟩ := dumpsFields_head next more
      rw [heq, List.cons_append] at hread hscan ⊢
      rw [scanFields_member hvalue hscan, skipSpace_cons (by rfl)]
      simp only [skipSpace_blank (by rfl : Json.isJsonSpace '"' = false), hread]

end

/-- What the encoder writes for a value with a float that is no number is refused. -/
theorem jsonParse_special {value : Json} (h : Special value) : jsonParse (dumps value) = none := by
  rw [dumps]
  obtain ⟨c, cs, heq, hspace, -⟩ := dumps_head_of_special (.inl h)
  have hskip : Json.skipSpace (encode escapeChar value) = encode escapeChar value := by
    rw [heq]
    exact skipSpace_cons hspace cs
  have hread := scanValue_special value ((encode escapeChar value).length + 1) [] h (fun c hc => by cases hc) (Nat.le_succ _)
  rw [List.append_nil] at hread
  rw [jsonParse, hskip, hread]
  rfl

end FleetWorkflow.Web
