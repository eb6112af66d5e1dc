import FleetWorkflow.Python.JsonText

/-!
# Encodings told apart

A value's encoding and what follows it determine the value, as far as it is a text, or was built from parts that
are determined so. A number and a text differ in their first character.
-/

namespace FleetWorkflow.Python

variable {escape : Char → List Char}

/-- No continuation makes the encodings of two different values equal. -/
def Unambiguous (escape : Char → List Char) (v w : Json) : Prop :=
  ∀ rest rest', encode escape v ++ rest = encode escape w ++ rest' → v = w ∧ rest = rest'

/-- A value's encoding ends at a fixed place. -/
theorem Unambiguous.refl (v : Json) : Unambiguous escape v v := by
  intro rest rest' h
  exact ⟨rfl, List.append_cancel_left h⟩

/-- Texts are told apart. -/
theorem unambiguous_str (hescape : ReadBack escape) (s t : String) : Unambiguous escape (.str s) (.str t) := by
  intro rest rest' h
  rw [encode, encode] at h
  obtain ⟨hs, hrest⟩ := literal_append_inj hescape h
  exact ⟨congrArg Json.str hs, hrest⟩

/-! ## Numbers -/

/-- There is no quote among digits. -/
theorem quote_not_mem_toDigits (n : ℕ) : '"' ∉ Nat.toDigits 10 n := by
  intro h
  have hdigit := Nat.isDigit_of_mem_toDigits (by decide) (by decide) h
  exact absurd hdigit (by decide)

/-- There is no quote in an integer. -/
theorem quote_not_mem_reprInt (n : ℤ) : '"' ∉ reprInt n := by
  rw [reprInt]
  split <;> simp [quote_not_mem_toDigits]

/-- A point and an exponent bring no quote into digits. -/
theorem quote_not_mem_reprDigits {digits : List Char} (h : '"' ∉ digits) (point : ℤ) :
    '"' ∉ reprDigits digits point := by
  have htake : ∀ n, '"' ∉ digits.take n := fun n hmem => h (List.mem_of_mem_take hmem)
  have hdrop : ∀ n, '"' ∉ digits.drop n := fun n hmem => h (List.mem_of_mem_drop hmem)
  rw [reprDigits]
  dsimp only
  split
  · split
    · simp [h]
    · split <;> simp [h, htake, hdrop]
  · have hmantissa : '"' ∉ (if digits.length = 1 then [] else '.' :: digits.drop 1) := by
      split
      · exact List.not_mem_nil
      · intro hmem
        exact (List.mem_cons.mp hmem).elim (absurd · (by decide)) (hdrop 1)
    have hpower : ∀ n, '"' ∉ (if (Nat.toDigits 10 n).length = 1 then '0' :: Nat.toDigits 10 n
        else Nat.toDigits 10 n) := by
      intro n
      split <;> simp [quote_not_mem_toDigits]
    have hsign : '"' ≠ (if point - 1 < 0 then '-' else '+') := by
      split <;> decide
    simp only [List.mem_append, List.mem_cons, List.not_mem_nil, or_false, not_or]
    exact ⟨⟨⟨htake 1, hmantissa⟩, by decide, hsign⟩, hpower _⟩

/-- There is no quote in a float. -/
theorem quote_not_mem_reprFloat (x : PyFloat) : '"' ∉ reprFloat x := by
  cases x with
  | nan => decide
  | infinity negative => cases negative <;> decide
  | decimal negative digits exponent =>
    have hdigits := quote_not_mem_reprDigits (quote_not_mem_toDigits digits)
    rw [reprFloat, List.mem_append, not_or]
    constructor
    · cases negative <;> decide
    · split
      · decide
      · exact hdigits _

/-- A value whose encoding holds no quote, and at least one character, is told from a text. -/
theorem unambiguous_of_no_quote {v : Json} (hquote : '"' ∉ encode escape v) (hne : encode escape v ≠ [])
    (s : String) : Unambiguous escape v (.str s) := by
  intro rest rest' h
  obtain ⟨c, cs, heq⟩ := List.exists_cons_of_ne_nil hne
  rw [heq, encode, literal, List.cons_append, List.cons_append] at h
  rw [heq, (List.cons.inj h).1] at hquote
  exact absurd List.mem_cons_self hquote

/-- An integer is told from a text. -/
theorem unambiguous_int (n : ℤ) (s : String) : Unambiguous escape (.int n) (.str s) := by
  apply unambiguous_of_no_quote
  · rw [encode]
    exact quote_not_mem_reprInt n
  · have hdigits : Nat.toDigits 10 n.natAbs ≠ [] := Nat.toDigits_ne_nil
    rw [encode, reprInt]
    split <;> simp [hdigits]

/-- A float is told from a text. -/
theorem unambiguous_float (x : PyFloat) (s : String) : Unambiguous escape (.float x) (.str s) := by
  apply unambiguous_of_no_quote
  · rw [encode]
    exact quote_not_mem_reprFloat x
  · rw [encode]
    cases x with
    | nan => decide
    | infinity negative => cases negative <;> decide
    | decimal negative digits exponent =>
      have hdigits : Nat.toDigits 10 digits ≠ [] := Nat.toDigits_ne_nil
      rw [reprFloat, reprDigits]
      dsimp only
      repeat' split
      all_goals simp [hdigits]

/-! ## Lists and objects -/

/-- Items up to the closing bracket are told apart when each is. -/
theorem encodeItems_append_inj {items items' : List Json} (hitems : List.Forall₂ (Unambiguous escape) items items')
    {rest rest' : List Char} (h : encodeItems escape items ++ rest = encodeItems escape items' ++ rest') :
    items = items' ∧ rest = rest' := by
  induction hitems with
  | nil => exact ⟨rfl, h⟩
  | cons hhead htail ih =>
    cases htail with
    | nil =>
      obtain ⟨heq, hrest⟩ := hhead _ _ h
      exact ⟨by rw [heq], hrest⟩
    | cons hnext hmore =>
      rw [encodeItems_cons, encodeItems_cons, List.append_assoc, List.append_assoc] at h
      obtain ⟨heq, hrest⟩ := hhead _ _ h
      obtain ⟨htails, hrest⟩ := ih (List.cons.inj (List.cons.inj hrest).2).2
      exact ⟨by rw [heq, htails], hrest⟩

/-- Members up to the closing brace are told apart when each value is. -/
theorem encodeFields_append_inj (hescape : ReadBack escape) {fields fields' : List (String × Json)}
    (hfields : List.Forall₂ (fun field field' => Unambiguous escape field.2 field'.2) fields fields')
    {rest rest' : List Char} (h : encodeFields escape fields ++ rest = encodeFields escape fields' ++ rest') :
    fields = fields' ∧ rest = rest' := by
  induction hfields with
  | nil => exact ⟨rfl, h⟩
  | cons hhead htail ih =>
    rename_i field field' _ _
    obtain ⟨key, value⟩ := field
    obtain ⟨key', value'⟩ := field'
    cases htail with
    | nil =>
      rw [encodeFields, encodeFields, List.append_assoc, List.append_assoc] at h
      obtain ⟨hkey, h⟩ := literal_append_inj hescape h
      obtain ⟨hvalue, hrest⟩ := hhead _ _ (List.cons.inj (List.cons.inj h).2).2
      rw [hkey, show value = value' from hvalue]
      exact ⟨rfl, hrest⟩
    | cons hnext hmore =>
      rw [encodeFields_cons, encodeFields_cons, List.append_assoc, List.append_assoc] at h
      obtain ⟨hkey, h⟩ := literal_append_inj hescape h
      simp only [List.cons_append, List.append_assoc, List.cons.injEq, true_and] at h
      obtain ⟨hvalue, h⟩ := hhead _ _ h
      obtain ⟨htails, hrest⟩ := ih (List.cons.inj (List.cons.inj h).2).2
      rw [hkey, show value = value' from hvalue, htails]
      exact ⟨rfl, hrest⟩

/-- Lists of values that are told apart. -/
theorem unambiguous_arr {items items' : List Json} (h : List.Forall₂ (Unambiguous escape) items items') :
    Unambiguous escape (.arr items) (.arr items') := by
  intro rest rest' heq
  rw [encode, encode, List.cons_append, List.cons_append, List.append_assoc, List.append_assoc] at heq
  obtain ⟨hitems, hrest⟩ := encodeItems_append_inj h (List.cons.inj heq).2
  exact ⟨congrArg Json.arr hitems, (List.cons.inj hrest).2⟩

/-- Objects whose values are told apart. -/
theorem unambiguous_obj (hescape : ReadBack escape) {fields fields' : List (String × Json)}
    (h : List.Forall₂ (fun field field' => Unambiguous escape field.2 field'.2) fields fields') :
    Unambiguous escape (.obj fields) (.obj fields') := by
  intro rest rest' heq
  rw [encode, encode, List.cons_append, List.cons_append, List.append_assoc, List.append_assoc] at heq
  obtain ⟨hfields, hrest⟩ := encodeFields_append_inj hescape h (List.cons.inj heq).2
  exact ⟨congrArg Json.obj hfields, (List.cons.inj hrest).2⟩

end FleetWorkflow.Python
