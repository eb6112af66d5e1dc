import FleetWorkflow.Web.JsonNumbers

/-!
# The encoder and the decoder of JSON

`json.dumps` writes every value without an infinite or undefined float as one line of JSON, and
`JSON.parse` reads it as the value that is meant by it. The proof is one on the syntax of values, with
the text that follows a value left open.
-/

namespace FleetWorkflow.Web

open Python

mutual

/-- The values that JSON can hold: the keys of a dictionary are distinct, and floats are numbers. -/
def Encodable : Json → Prop
  | .float (.decimal ..) => True
  | .float _ => False
  | .arr items => EncodableItems items
  | .obj fields => EncodableFields fields
  | _ => True

/-- The items of a list. -/
def EncodableItems : List Json → Prop
  | [] => True
  | item :: rest => Encodable item ∧ EncodableItems rest

/-- The members of a dictionary. -/
def EncodableFields : List (String × Json) → Prop
  | [] => True
  | (key, value) :: rest => (∀ field ∈ rest, field.1 ≠ key) ∧ Encodable value ∧ EncodableFields rest

end

/-- Texts are told apart by their units. -/
theorem utf16_inj {text other : List Char} (h : utf16 text = utf16 other) : text = other := by
  have hcode : ∀ c d : Char, c.toNat = d.toNat → c = d := by
    intro c d hcd
    rw [← Char.ofNat_toNat c, hcd, Char.ofNat_toNat]
  induction text generalizing other with
  | nil =>
    cases other with
    | nil => rfl
    | cons d other =>
      rw [utf16, utf16, List.flatMap_nil, List.flatMap_cons, utf16Char] at h
      split at h <;> cases h
  | cons c text ih =>
    cases other with
    | nil =>
      rw [utf16, utf16, List.flatMap_nil, List.flatMap_cons, utf16Char] at h
      split at h <;> cases h
    | cons d other =>
      have hc := toNat_not_surrogate c
      have hd := toNat_not_surrogate d
      rw [utf16, utf16, List.flatMap_cons, List.flatMap_cons, utf16Char, utf16Char] at h
      split at h
      · split at h
        · obtain ⟨hhead, htail⟩ := List.cons.inj h
          rw [hcode c d hhead, ih htail]
        · obtain ⟨hhead, -⟩ := List.cons.inj h
          omega
      · split at h
        · obtain ⟨hhead, -⟩ := List.cons.inj h
          omega
        · obtain ⟨hhead, hrest⟩ := List.cons.inj h
          obtain ⟨hlow, htail⟩ := List.cons.inj hrest
          rw [hcode c d (by omega), ih htail]

/-- The start of a number that is written. -/
def StartsNumber (cs : List Char) : Prop := ∃ c rest, cs = c :: rest ∧ (c = '-' ∨ isAsciiDigit c)

/-- A numeral starts with its sign or a digit. -/
theorem startsNumber_text {numeral : Numeral} (hvalid : numeral.Valid) (negative : Bool) :
    StartsNumber (signText negative ++ numeral.text) := by
  cases negative with
  | true => exact ⟨'-', _, rfl, .inl rfl⟩
  | false =>
    obtain ⟨c, digits, hwhole⟩ := hvalid.whole_cons
    have hdigit := hvalid.digits c (hwhole ▸ List.mem_cons_self)
    rw [signText, if_neg Bool.false_ne_true, List.nil_append, Numeral.text, hwhole]
    exact ⟨c, _, rfl, .inr hdigit⟩

/-- An integer starts with its sign or a digit. -/
theorem startsNumber_reprInt (n : ℤ) : StartsNumber (reprInt n) := by
  rw [reprInt]
  split
  · exact ⟨'-', _, rfl, .inl rfl⟩
  · cases hdigits : Nat.toDigits 10 n.natAbs with
    | nil => exact absurd hdigits Nat.toDigits_ne_nil
    | cons c rest => exact ⟨c, rest, rfl, .inr (isAsciiDigit_toDigits (hdigits ▸ List.mem_cons_self))⟩

/-- A float that is a number starts with its sign or a digit. -/
theorem startsNumber_reprFloat (negative : Bool) (digits : ℕ) (exponent : ℤ) :
    StartsNumber (reprFloat (.decimal negative digits exponent)) := by
  obtain ⟨numeral, hwrites⟩ := exists_writes negative digits exponent
  rw [hwrites.text]
  exact startsNumber_text hwrites.valid negative

/-- What starts like a number is read as one. -/
theorem scanValue_number {cs : List Char} (h : StartsNumber cs) (fuel : ℕ) (rest : List Char) :
    scanValue (fuel + 1) (cs ++ rest) = scanNumber (cs ++ rest) := by
  obtain ⟨c, more, rfl, hc⟩ := h
  have hne : ∀ d, d ≠ '-' → isAsciiDigit d = false → c ≠ d := by
    intro d hminus hdigit
    rcases hc with rfl | hc
    · exact hminus.symm
    · exact isAsciiDigit_ne hc hdigit
  have hquote := hne '"' (by decide) rfl
  have hbrace := hne '\x7b' (by decide) rfl
  have hbracket := hne '[' (by decide) rfl
  have hnull := hne 'n' (by decide) rfl
  have htrue := hne 't' (by decide) rfl
  have hfalse := hne 'f' (by decide) rfl
  rw [List.cons_append, scanValue.eq_def]
  simp [hquote, hbrace, hbracket, hnull, htrue, hfalse]

/-- The first character of an encoded value is no blank and no closing bracket. -/
theorem dumps_head {value : Json} (h : Encodable value) :
    ∃ c cs, encode escapeChar value = c :: cs ∧ Json.isJsonSpace c = false ∧ c ≠ ']' ∧ c ≠ '\x7d' := by
  have hnumber : ∀ cs, StartsNumber cs → ∃ c more, cs = c :: more ∧ Json.isJsonSpace c = false ∧ c ≠ ']' ∧ c ≠ '\x7d' := by
    rintro cs ⟨c, more, rfl, rfl | hc⟩
    · exact ⟨'-', more, rfl, rfl, by decide, by decide⟩
    · have hspace : Json.isJsonSpace c = false := by
        simp [Json.isJsonSpace, isAsciiDigit_ne hc (d := ' ') rfl, isAsciiDigit_ne hc (d := '\t') rfl,
          isAsciiDigit_ne hc (d := '\n') rfl, isAsciiDigit_ne hc (d := '\r') rfl]
      exact ⟨c, more, rfl, hspace, isAsciiDigit_ne hc rfl, isAsciiDigit_ne hc rfl⟩
  cases value with
  | null => exact ⟨'n', _, rfl, rfl, by decide, by decide⟩
  | bool b => cases b <;> exact ⟨_, _, rfl, rfl, by decide, by decide⟩
  | int n => exact hnumber _ (startsNumber_reprInt n)
  | float x =>
    cases x with
    | decimal negative digits exponent => exact hnumber _ (startsNumber_reprFloat negative digits exponent)
    | infinity negative => exact h.elim
    | nan => exact h.elim
  | str s => exact ⟨'"', _, rfl, rfl, by decide, by decide⟩
  | arr items => exact ⟨'[', _, rfl, rfl, by decide, by decide⟩
  | obj fields => exact ⟨'\x7b', _, rfl, rfl, by decide, by decide⟩

/-- No blank is skipped before what is none. -/
theorem skipSpace_cons {c : Char} (hc : Json.isJsonSpace c = false) (cs : List Char) :
    Json.skipSpace (c :: cs) = c :: cs := by
  rw [Json.skipSpace, List.dropWhile_cons, if_neg (by simp [hc])]

/-- One blank is skipped before an encoded value. -/
theorem skipSpace_dumps {value : Json} (h : Encodable value) (rest : List Char) :
    Json.skipSpace (' ' :: (encode escapeChar value ++ rest)) = encode escapeChar value ++ rest := by
  obtain ⟨c, cs, heq, hspace, -, -⟩ := dumps_head h
  rw [heq, List.cons_append, Json.skipSpace, List.dropWhile_cons, if_pos (by rfl)]
  exact skipSpace_cons hspace _

/-- A new member is put behind the others. -/
theorem defineProperty_new {fields : List (List ℕ × JsValue)} {key : List ℕ} (h : ∀ field ∈ fields, field.1 ≠ key)
    (value : JsValue) : defineProperty fields key value = fields ++ [(key, value)] := by
  rw [defineProperty, if_neg]
  simp only [List.any_eq_true, decide_eq_true_eq, not_exists, not_and]
  exact h

theorem ends_cons {c : Char} (hc : c = ',' ∨ c = ']' ∨ c = '\x7d') (rest : List Char) : Ends (c :: rest) := by
  intro d hd
  obtain rfl := Option.some.inj hd
  exact hc

/-- An array that is not empty is read item by item. -/
theorem scanValue_array {c : Char} (hspace : Json.isJsonSpace c = false) (hclose : c ≠ ']') (fuel : ℕ) (cs : List Char) :
    scanValue (fuel + 1) ('[' :: c :: cs) = (scanItems fuel [] (c :: cs)).map fun r => (.array r.1, r.2) := by
  rw [scanValue, skipSpace_cons hspace]
  split
  · rename_i heq
    exact absurd (List.cons.inj heq).1 hclose
  · rfl

/-- An object that is not empty is read member by member. -/
theorem scanValue_object (fuel : ℕ) (cs : List Char) :
    scanValue (fuel + 1) ('\x7b' :: '"' :: cs) = (scanFields fuel [] ('"' :: cs)).map fun r => (.object r.1, r.2) := by
  rw [scanValue, skipSpace_cons (by rfl)]
  rfl

/-- The first character of encoded items. -/
theorem dumpsItems_head {item : Json} (h : Encodable item) (rest : List Json) :
    ∃ c cs, encodeItems escapeChar (item :: rest) = c :: cs ∧ Json.isJsonSpace c = false ∧ c ≠ ']' := by
  obtain ⟨c, cs, heq, hspace, hclose, -⟩ := dumps_head h
  cases rest with
  | nil => exact ⟨c, cs, heq, hspace, hclose⟩
  | cons next more =>
    rw [encodeItems, heq]
    · exact ⟨c, _, rfl, hspace, hclose⟩
    · simp

/-- An encoded value has a character. -/
theorem length_dumps_pos {value : Json} (h : Encodable value) : 0 < (encode escapeChar value).length := by
  obtain ⟨c, cs, heq, -⟩ := dumps_head h
  rw [heq]
  exact Nat.succ_pos _

/-- A member is read up to the end of its value. -/
theorem scanFields_member {key : String} {value : Json} {fuel : ℕ} {read : List (List ℕ × JsValue)} {after : List Char}
    (hvalue : Encodable value) (hscan : scanValue fuel (encode escapeChar value ++ after) = some (ofPython value, after)) :
    scanFields (fuel + 1) read (literal escapeChar key ++ ':' :: ' ' :: (encode escapeChar value ++ after)) =
      match Json.skipSpace after with
      | '\x7d' :: rest => some (defineProperty read (utf16 key.toList) (ofPython value), rest)
      | ',' :: rest => scanFields fuel (defineProperty read (utf16 key.toList) (ofPython value)) (Json.skipSpace rest)
      | _ => none := by
  rw [literal, List.cons_append, List.append_assoc, List.singleton_append, scanFields]
  simp only [scanText_escaped, Option.bind_eq_bind, Option.bind_some]
  rw [skipSpace_cons (by rfl)]
  simp only [skipSpace_dumps hvalue, hscan]
  rfl

/-- The first character of encoded members. -/
theorem dumpsFields_head (field : String × Json) (rest : List (String × Json)) :
    ∃ cs, encodeFields escapeChar (field :: rest) = '"' :: cs := by
  obtain ⟨key, value⟩ := field
  cases rest with
  | nil => exact ⟨_, rfl⟩
  | cons next more =>
    rw [encodeFields]
    · exact ⟨_, rfl⟩
    · simp

mutual

/-- An encoded value is read as what is meant by it, up to what follows it. -/
theorem scanValue_dumps : ∀ (value : Json) (fuel : ℕ) (rest : List Char), Encodable value → Ends rest →
    (encode escapeChar value).length ≤ fuel → scanValue fuel (encode escapeChar value ++ rest) = some (ofPython value, rest)
  | value, 0, _, hvalue, _, hfuel => by
    have hpos := length_dumps_pos hvalue
    omega
  | .null, _ + 1, _, _, _, _ => rfl
  | .bool b, _ + 1, _, _, _, _ => by cases b <;> rfl
  | .int n, fuel + 1, rest, _, hrest, _ => by
    rw [encode, scanValue_number (startsNumber_reprInt n), scanNumber_reprInt n hrest]
  | .float (.decimal negative digits exponent), fuel + 1, rest, _, hrest, _ => by
    rw [encode, scanValue_number (startsNumber_reprFloat negative digits exponent),
      scanNumber_reprFloat negative exponent hrest]
  | .float (.infinity negative), _ + 1, _, hvalue, _, _ => hvalue.elim
  | .float .nan, _ + 1, _, hvalue, _, _ => hvalue.elim
  | .str s, fuel + 1, rest, _, _, _ => by
    rw [encode, literal, List.cons_append, List.append_assoc, List.singleton_append, scanValue, scanText_escaped]
    rfl
  | .arr [], _ + 1, _, _, _, _ => rfl
  | .arr (item :: more), fuel + 1, rest, hvalue, _, hfuel => by
    obtain ⟨c, cs, heq, hspace, hclose⟩ := dumpsItems_head hvalue.1 more
    have hread := scanItems_dumps (item :: more) fuel [] rest hvalue (List.cons_ne_nil _ _) (by
      simp only [encode, List.length_cons, List.length_append, List.length_nil] at hfuel
      omega)
    rw [encode, List.cons_append, List.append_assoc, List.singleton_append]
    rw [heq, List.cons_append] at hread ⊢
    rw [scanValue_array hspace hclose, hread]
    rfl
  | .obj [], _ + 1, _, _, _, _ => rfl
  | .obj ((key, value) :: more), fuel + 1, rest, hvalue, _, hfuel => by
    have hread := scanFields_dumps ((key, value) :: more) fuel [] rest hvalue (List.cons_ne_nil _ _) (by
      simp only [encode, List.length_cons, List.length_append, List.length_nil] at hfuel
      omega) (fun _ _ member hmember => by cases hmember)
    obtain ⟨cs, heq⟩ := dumpsFields_head (key, value) more
    rw [encode, List.cons_append, List.append_assoc, List.singleton_append]
    rw [heq, List.cons_append] at hread ⊢
    rw [scanValue_object, hread]
    rfl

/-- Encoded items are read one after another. -/
theorem scanItems_dumps : ∀ (items : List Json) (fuel : ℕ) (read : List JsValue) (rest : List Char),
    EncodableItems items → items ≠ [] → (encodeItems escapeChar items).length + 1 ≤ fuel →
      scanItems fuel read (encodeItems escapeChar items ++ ']' :: rest) = some (read ++ ofItems items, rest)
  | _, 0, _, _, _, _, hfuel => absurd hfuel (Nat.not_succ_le_zero _)
  | [], _, _, _, _, hne, _ => absurd rfl hne
  | [item], fuel + 1, read, rest, hitems, _, hfuel => by
    rw [encodeItems] at hfuel ⊢
    rw [scanItems, scanValue_dumps item fuel _ hitems.1 (ends_cons (by simp) rest) (by omega)]
    simp [skipSpace_cons, Json.isJsonSpace, ofItems]
  | item :: next :: more, fuel + 1, read, rest, hitems, _, hfuel => by
    obtain ⟨hitem, hmore⟩ := hitems
    obtain ⟨c, cs, heq, hspace, -⟩ := dumpsItems_head hmore.1 more
    rw [encodeItems, List.length_append, List.length_cons, List.length_cons] at hfuel
    · rw [encodeItems, List.append_assoc, List.cons_append, List.cons_append, scanItems,
        scanValue_dumps item fuel _ hitem (ends_cons (by simp) _) (by omega)]
      · have hread := scanItems_dumps (next :: more) fuel (read ++ [ofPython item]) rest hmore
          (List.cons_ne_nil _ _) (by omega)
        have hskip : Json.skipSpace (' ' :: (encodeItems escapeChar (next :: more) ++ ']' :: rest)) =
            encodeItems escapeChar (next :: more) ++ ']' :: rest := by
          rw [heq, List.cons_append, Json.skipSpace, List.dropWhile_cons, if_pos (by rfl)]
          exact skipSpace_cons hspace _
        simp only [Option.bind_eq_bind, Option.bind_some]
        rw [skipSpace_cons (by rfl)]
        simp only [hskip, hread, ofItems, List.append_assoc, List.singleton_append]
      · simp
    · simp

/-- Encoded members are read one after another. -/
theorem scanFields_dumps : ∀ (fields : List (String × Json)) (fuel : ℕ) (read : List (List ℕ × JsValue))
    (rest : List Char), EncodableFields fields → fields ≠ [] → (encodeFields escapeChar fields).length + 1 ≤ fuel →
      (∀ field ∈ fields, ∀ member ∈ read, member.1 ≠ utf16 field.1.toList) →
      scanFields fuel read (encodeFields escapeChar fields ++ '\x7d' :: rest) = some (read ++ ofFields fields, rest)
  | _, 0, _, _, _, _, hfuel, _ => absurd hfuel (Nat.not_succ_le_zero _)
  | [], _, _, _, _, hne, _, _ => absurd rfl hne
  | [(key, value)], fuel + 1, read, rest, hfields, _, hfuel, hnew => by
    obtain ⟨-, hvalue, -⟩ := hfields
    rw [encodeFields, List.length_append, List.length_cons, List.length_cons] at hfuel
    have hscan := scanValue_dumps value fuel _ hvalue (ends_cons (c := '\x7d') (by simp) rest) (by omega)
    rw [encodeFields, List.append_assoc, List.cons_append, List.cons_append, scanFields_member hvalue hscan,
      skipSpace_cons (by rfl)]
    simp only [defineProperty_new (hnew _ List.mem_cons_self), ofFields]
  | (key, value) :: next :: more, fuel + 1, read, rest, hfields, _, hfuel, hnew => by
    obtain ⟨hkey, hvalue, hmore⟩ := hfields
    rw [encodeFields, List.length_append, List.length_cons, List.length_cons, List.length_append, List.length_cons,
      List.length_cons] at hfuel
    · have hscan := scanValue_dumps value fuel (',' :: ' ' :: (encodeFields escapeChar (next :: more) ++ '\x7d' :: rest)) hvalue
        (ends_cons (by simp) _) (by omega)
      have hread := scanFields_dumps (next :: more) fuel (read ++ [(utf16 key.toList, ofPython value)]) rest hmore
        (List.cons_ne_nil _ _) (by omega) (by
          intro field hfield member hmember
          rcases List.mem_append.mp hmember with hmember | hmember
          · exact hnew field (List.mem_cons_of_mem _ hfield) member hmember
          · obtain rfl := List.mem_singleton.mp hmember
            intro heq
            exact hkey field hfield (String.toList_inj.mp (utf16_inj heq)).symm)
      obtain ⟨cs, heq⟩ := dumpsFields_head next more
      have hskip : Json.skipSpace (' ' :: (encodeFields escapeChar (next :: more) ++ '\x7d' :: rest)) =
          encodeFields escapeChar (next :: more) ++ '\x7d' :: rest := by
        rw [heq, List.cons_append, Json.skipSpace, List.dropWhile_cons, if_pos (by rfl)]
        exact skipSpace_cons (by rfl) _
      rw [encodeFields]
      · simp only [List.append_assoc, List.cons_append]
        rw [scanFields_member hvalue hscan, skipSpace_cons (by rfl)]
        simp only [defineProperty_new (hnew _ List.mem_cons_self), hskip, hread, ofFields, List.append_assoc,
          List.singleton_append]
      · simp
    · simp

end

/-- What the encoder writes is parsed as what is meant by it. -/
theorem jsonParse_dumps {value : Json} (h : Encodable value) : jsonParse (dumps value) = some (ofPython value) := by
  rw [dumps]
  obtain ⟨c, cs, heq, hspace, -, -⟩ := dumps_head h
  have hskip : Json.skipSpace (encode escapeChar value) = encode escapeChar value := by
    rw [heq]
    exact skipSpace_cons hspace cs
  have hread := scanValue_dumps value ((encode escapeChar value).length + 1) [] h (fun c hc => by cases hc) (Nat.le_succ _)
  rw [List.append_nil] at hread
  rw [jsonParse, hskip, hread]
  rfl

/-! ## One line -/

/-- An escaped character is on the line. -/
theorem newline_not_mem_escapeChar (c : Char) : '\n' ∉ escapeChar c := by
  have hhex : ∀ n, '\n' ∉ hex4 n := by
    have hdigit : ∀ d < 16, '\n' ≠ Nat.digitChar d := by decide
    intro n
    simp [hex4, hdigit _ (Nat.mod_lt _ (by decide : 0 < 16))]
  by_cases hc : '\n' = c
  · rw [← hc]
    decide
  · rw [escapeChar]
    repeat' split
    all_goals simp_all

/-- An encoded text is on one line. -/
theorem newline_not_mem_escaped (s : String) : '\n' ∉ literal escapeChar s := by
  rw [literal]
  simp [newline_not_mem_escapeChar]

/-- A digit is no newline. -/
theorem newline_not_mem_digits {digits : List Char} (h : ∀ c ∈ digits, isAsciiDigit c) : '\n' ∉ digits := by
  intro hmem
  exact isAsciiDigit_ne (h _ hmem) rfl rfl

/-- An integer is on one line. -/
theorem newline_not_mem_reprInt (n : ℤ) : '\n' ∉ reprInt n := by
  have hdigits : '\n' ∉ Nat.toDigits 10 n.natAbs := newline_not_mem_digits fun c hc => isAsciiDigit_toDigits hc
  rw [reprInt]
  split
  · simp [hdigits]
  · exact hdigits

/-- A float is on one line. -/
theorem newline_not_mem_reprFloat (negative : Bool) (digits : ℕ) (exponent : ℤ) :
    '\n' ∉ reprFloat (.decimal negative digits exponent) := by
  obtain ⟨numeral, hwrites⟩ := exists_writes negative digits exponent
  have hwhole := newline_not_mem_digits hwrites.valid.digits
  have hfraction := newline_not_mem_digits hwrites.valid.fraction
  have hexponent : '\n' ∉ Numeral.exponentText numeral.exponent := by
    cases hcase : numeral.exponent with
    | none => simp [Numeral.exponentText]
    | some exponent =>
      obtain ⟨negative', digits'⟩ := exponent
      have hdigits := newline_not_mem_digits (hwrites.valid.exponent negative' digits' hcase).2
      cases negative' <;> simp [Numeral.exponentText, hdigits]
  rw [hwrites.text, Numeral.text, signText]
  cases negative <;> split <;> simp [hwhole, hfraction, hexponent]

mutual

/-- An encoded value is on one line. -/
theorem newline_not_mem_dumps : ∀ (value : Json), Encodable value → '\n' ∉ encode escapeChar value
  | .null, _ => by decide
  | .bool b, _ => by cases b <;> decide
  | .int n, _ => newline_not_mem_reprInt n
  | .float (.decimal negative digits exponent), _ => newline_not_mem_reprFloat negative digits exponent
  | .float (.infinity _), h => h.elim
  | .float .nan, h => h.elim
  | .str s, _ => newline_not_mem_escaped s
  | .arr items, h => by
    have hitems := newline_not_mem_dumpsItems items h
    simp [encode, hitems]
  | .obj fields, h => by
    have hfields := newline_not_mem_dumpsFields fields h
    simp [encode, hfields]

/-- Encoded items are on one line. -/
theorem newline_not_mem_dumpsItems : ∀ (items : List Json), EncodableItems items → '\n' ∉ encodeItems escapeChar items
  | [], _ => by decide
  | [item], h => newline_not_mem_dumps item h.1
  | item :: next :: more, h => by
    have hitem := newline_not_mem_dumps item h.1
    have hmore := newline_not_mem_dumpsItems (next :: more) h.2
    rw [encodeItems]
    · simp [hitem, hmore]
    · simp

/-- Encoded members are on one line. -/
theorem newline_not_mem_dumpsFields : ∀ (fields : List (String × Json)), EncodableFields fields →
    '\n' ∉ encodeFields escapeChar fields
  | [], _ => by decide
  | [(key, value)], h => by
    have hkey := newline_not_mem_escaped key
    have hvalue := newline_not_mem_dumps value h.2.1
    simp [encodeFields, hkey, hvalue]
  | (key, value) :: next :: more, h => by
    have hkey := newline_not_mem_escaped key
    have hvalue := newline_not_mem_dumps value h.2.1
    have hmore := newline_not_mem_dumpsFields (next :: more) h.2.2
    rw [encodeFields]
    · simp [hkey, hvalue, hmore]
    · simp

end

end FleetWorkflow.Web
