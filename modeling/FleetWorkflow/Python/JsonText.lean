import FleetWorkflow.Python.Json

/-!
# JSON encoding

`json.dumps(value)`, with a blank in its separators. Texts are escaped to ASCII, or with
`ensure_ascii=False` only where the grammar demands it; what is written is one line either way.
-/

namespace FleetWorkflow.Python

/-- `int.__repr__`. -/
def reprInt (n : ℤ) : List Char :=
  if n < 0 then '-' :: Nat.toDigits 10 n.natAbs else Nat.toDigits 10 n.natAbs

/-- The digits of a float with its point after a number of them, as `float.__repr__` writes them. -/
def reprDigits (digits : List Char) (point : ℤ) : List Char :=
  if -4 < point ∧ point ≤ 16 then
    if point ≤ 0 then ['0', '.'] ++ List.replicate (-point).toNat '0' ++ digits
    else if point < digits.length then digits.take point.toNat ++ '.' :: digits.drop point.toNat
    else digits ++ List.replicate (point.toNat - digits.length) '0' ++ ['.', '0']
  else
    let power := (Nat.toDigits 10 (point - 1).natAbs)
    digits.take 1 ++ (if digits.length = 1 then [] else '.' :: digits.drop 1) ++
      ['e', if point - 1 < 0 then '-' else '+'] ++ (if power.length = 1 then '0' :: power else power)

/-- A float as the encoder writes it; its numeral is the shortest one that is read back as it. -/
def reprFloat : PyFloat → List Char
  | .nan => ['N', 'a', 'N']
  | .infinity negative => (if negative then ['-'] else []) ++ ['I', 'n', 'f', 'i', 'n', 'i', 't', 'y']
  | .decimal negative digits exponent =>
    (if negative then ['-'] else []) ++
      if digits = 0 then ['0', '.', '0']
      else reprDigits (Nat.toDigits 10 digits) ((Nat.toDigits 10 digits).length + exponent)

/-- One character inside a string literal that need not be ASCII. -/
def escapeRaw (c : Char) : List Char :=
  if c = '"' || c = '\\' || c.toNat < 32 then escapeChar c else [c]

section Encoder

variable (escape : Char → List Char)

/-- A text as the encoder writes it. -/
def literal (s : String) : List Char := '"' :: (s.toList.flatMap escape ++ ['"'])

mutual

/-- The encoding of a value. -/
def encode : Json → List Char
  | .null => ['n', 'u', 'l', 'l']
  | .bool b => if b then ['t', 'r', 'u', 'e'] else ['f', 'a', 'l', 's', 'e']
  | .int n => reprInt n
  | .float x => reprFloat x
  | .str s => literal escape s
  | .arr items => '[' :: (encodeItems items ++ [']'])
  | .obj fields => '\x7b' :: (encodeFields fields ++ ['\x7d'])

/-- The items of an array. -/
def encodeItems : List Json → List Char
  | [] => []
  | [item] => encode item
  | item :: rest => encode item ++ ',' :: ' ' :: encodeItems rest

/-- The members of an object. -/
def encodeFields : List (String × Json) → List Char
  | [] => []
  | [(key, value)] => literal escape key ++ ':' :: ' ' :: encode value
  | (key, value) :: rest => literal escape key ++ ':' :: ' ' :: (encode value ++ ',' :: ' ' :: encodeFields rest)

end

/-- The items of an array with several. -/
theorem encodeItems_cons (item next : Json) (rest : List Json) :
    encodeItems escape (item :: next :: rest) = encode escape item ++ ',' :: ' ' :: encodeItems escape (next :: rest) :=
  rfl

/-- The members of an object with several. -/
theorem encodeFields_cons (key : String) (value : Json) (next : String × Json) (rest : List (String × Json)) :
    encodeFields escape ((key, value) :: next :: rest) = literal escape key ++ ':' :: ' ' ::
      (encode escape value ++ ',' :: ' ' :: encodeFields escape (next :: rest)) :=
  rfl

end Encoder

/-- `json.dumps(value)`, as characters. -/
def dumps (value : Json) : List Char := encode escapeChar value

/-- `json.dumps(value, ensure_ascii=False)`, as characters. -/
def dumpsRaw (value : Json) : List Char := encode escapeRaw value

example : dumps (.obj [("delta", .str "a\n\"é"), ("n", .arr [.int (-7), .bool true, .float (.decimal false 15 (-1))])]) =
    "\x7b\"delta\": \"a\\n\\\"\\u00e9\", \"n\": [-7, true, 1.5]\x7d".toList := by decide

/-!
## JSON string literals read back

The encoder's literals are ASCII and hold no bracket or quote of their own: reading one gives the
encoded text back and stops right after the closing quote.
-/

/-- A hexadecimal digit that the encoder writes is read back. -/
theorem hexDigit?_digitChar {d : ℕ} (h : d < 16) : Json.hexDigit? (Nat.digitChar d) = some d := by
  have hall : ∀ d < 16, Json.hexDigit? (Nat.digitChar d) = some d := by decide
  exact hall d h

/-- Four hexadecimal digits are read back as the code unit that they were written from. -/
theorem unit4?_hex4 {n : ℕ} (h : n < 0x10000) (rest : List Char) :
    Json.unit4? (hex4 n ++ rest) = some (n, rest) := by
  have hdigit (m : ℕ) : Json.hexDigit? (Nat.digitChar (m % 16)) = some (m % 16) :=
    hexDigit?_digitChar (Nat.mod_lt _ (by decide))
  simp only [hex4, List.cons_append, List.nil_append, Json.unit4?, hdigit, Option.bind_eq_bind,
    Option.bind_some, Option.pure_def, Option.some.injEq, Prod.mk.injEq, and_true]
  omega

/-- The code point of a character is not a surrogate. -/
theorem toNat_not_surrogate (c : Char) : c.toNat < 0xD800 ∨ 0xDFFF < c.toNat ∧ c.toNat < 0x110000 := by
  have h := c.valid
  simpa [UInt32.isValidChar, Nat.isValidChar] using h

/-- A `\u` escape of a character in the basic plane is read back. -/
theorem escapedUnit?_hex4 {c : Char} (h : c.toNat < 0x10000) (rest : List Char) :
    Json.escapedUnit? (hex4 c.toNat ++ rest) = some (c, rest) := by
  have hrange := toNat_not_surrogate c
  have hhigh : ¬ (0xD800 ≤ c.toNat && c.toNat ≤ 0xDBFF) = true := by
    rw [Bool.and_eq_true, decide_eq_true_eq, decide_eq_true_eq]
    omega
  have hlow : ¬ (0xDC00 ≤ c.toNat && c.toNat ≤ 0xDFFF) = true := by
    rw [Bool.and_eq_true, decide_eq_true_eq, decide_eq_true_eq]
    omega
  rw [Json.escapedUnit?, unit4?_hex4 h]
  simp only [Option.bind_eq_bind, Option.bind_some, if_neg hhigh, if_neg hlow, Option.pure_def,
    Char.ofNat_toNat]

/-- A pair of surrogates is read as one character. -/
theorem escapedUnit?_pair {high low : ℕ} (hhigh : 0xD800 ≤ high ∧ high ≤ 0xDBFF)
    (hlow : 0xDC00 ≤ low ∧ low ≤ 0xDFFF) (rest : List Char) :
    Json.escapedUnit? (hex4 high ++ '\\' :: 'u' :: (hex4 low ++ rest)) =
      some (Char.ofNat (0x10000 + (high - 0xD800) * 1024 + (low - 0xDC00)), rest) := by
  have hhighUnit : (0xD800 ≤ high && high ≤ 0xDBFF) = true := by simp [hhigh]
  have hlowUnit : (0xDC00 ≤ low && low ≤ 0xDFFF) = true := by simp [hlow]
  rw [Json.escapedUnit?, unit4?_hex4 (by omega)]
  simp only [Option.bind_eq_bind, Option.bind_some, if_pos hhighUnit]
  rw [unit4?_hex4 (by omega)]
  simp only [if_pos hlowUnit, Option.pure_def]

/-- The two `\u` escapes of a character above the basic plane are read back as that character. -/
theorem escapedUnit?_surrogates {c : Char} (h : ¬ c.toNat < 0x10000) (rest : List Char) :
    Json.escapedUnit? (hex4 (0xD800 + (c.toNat - 0x10000) / 1024) ++
      '\\' :: 'u' :: (hex4 (0xDC00 + (c.toNat - 0x10000) % 1024) ++ rest)) = some (c, rest) := by
  have hrange := toNat_not_surrogate c
  have hvalue : ∀ high low, high = 0xD800 + (c.toNat - 0x10000) / 1024 →
      low = 0xDC00 + (c.toNat - 0x10000) % 1024 →
      0x10000 + (high - 0xD800) * 1024 + (low - 0xDC00) = c.toNat := by
    intro high low hhigh hlow
    omega
  generalize hhigh : 0xD800 + (c.toNat - 0x10000) / 1024 = high
  generalize hlow : 0xDC00 + (c.toNat - 0x10000) % 1024 = low
  rw [escapedUnit?_pair (by omega) (by omega), hvalue high low hhigh.symm hlow.symm, Char.ofNat_toNat]

/-- Reading a string takes one step for an escaped character. -/
theorem scanString_escapeChar (c : Char) (fuel : ℕ) (acc rest : List Char) :
    Json.scanString (fuel + 1) acc (escapeChar c ++ rest) = Json.scanString fuel (c :: acc) rest := by
  rw [escapeChar]
  split
  · subst_vars; rfl
  split
  · subst_vars; rfl
  split
  · subst_vars; rfl
  split
  · subst_vars; rfl
  split
  · subst_vars; rfl
  split
  · rename_i h
    rw [← Char.ofNat_toNat c, h]
    rfl
  split
  · rename_i h
    rw [← Char.ofNat_toNat c, h]
    rfl
  split
  · rename_i hquote hslash _ _ _ _ _ hprintable
    rw [Bool.and_eq_true, decide_eq_true_eq, decide_eq_true_eq] at hprintable
    rw [List.singleton_append, Json.scanString.eq_def]
    simp only [if_neg hquote, if_neg hslash, if_neg (Nat.not_lt.mpr hprintable.1)]
  split
  · rename_i hbasic
    simp only [List.cons_append, List.nil_append]
    rw [Json.scanString]
    simp [escapedUnit?_hex4 hbasic]
  · rename_i hbasic
    simp only [List.append_assoc, List.cons_append, List.nil_append]
    rw [Json.scanString]
    simp [escapedUnit?_surrogates hbasic]

/-- Each character of a literal is read back by one step. -/
def ReadBack (escape : Char → List Char) : Prop :=
  ∀ c fuel acc rest, Json.scanString (fuel + 1) acc (escape c ++ rest) = Json.scanString fuel (c :: acc) rest

/-- Literals in ASCII are read back. -/
theorem readBack_escapeChar : ReadBack escapeChar := scanString_escapeChar

/-- Literals that need not be ASCII are read back. -/
theorem readBack_escapeRaw : ReadBack escapeRaw := by
  intro c fuel acc rest
  rw [escapeRaw]
  split
  · exact scanString_escapeChar c fuel acc rest
  · rename_i hplain
    simp only [Bool.or_eq_true, decide_eq_true_eq, not_or] at hplain
    obtain ⟨⟨hquote, hslash⟩, hcontrol⟩ := hplain
    rw [List.singleton_append, Json.scanString.eq_def]
    simp only [if_neg hquote, if_neg hslash, if_neg hcontrol]

/-- A literal's characters are read back up to its closing quote. -/
theorem scanString_escaped {escape : Char → List Char} (hescape : ReadBack escape) (cs : List Char) {fuel : ℕ}
    (h : cs.length < fuel) (acc rest : List Char) :
    Json.scanString fuel acc (cs.flatMap escape ++ '"' :: rest) = some (String.ofList (acc.reverse ++ cs), rest) := by
  induction cs generalizing fuel acc with
  | nil =>
    obtain ⟨fuel, rfl⟩ := Nat.exists_eq_add_of_lt h
    simp [Json.scanString]
  | cons c cs ih =>
    obtain ⟨fuel, rfl⟩ : ∃ n, fuel = n + 1 := ⟨fuel - 1, by omega⟩
    rw [List.flatMap_cons, List.append_assoc, hescape, ih (by simpa using h)]
    simp

/-- Every character is written as at least one. -/
theorem escapeChar_ne_nil (c : Char) : escapeChar c ≠ [] := by
  rw [escapeChar]
  repeat' split
  all_goals simp

/-- A text is no longer than its escaped form. -/
theorem length_le_escaped (cs : List Char) : cs.length ≤ (cs.flatMap escapeChar).length := by
  induction cs with
  | nil => exact Nat.le_refl 0
  | cons c cs ih =>
    have hpos := List.length_pos_iff.mpr (escapeChar_ne_nil c)
    rw [List.flatMap_cons, List.length_append, List.length_cons]
    omega

/-- The body of an encoded text is read back after its opening quote. -/
theorem scanText_escaped (value : String) (rest : List Char) :
    Json.scanText (value.toList.flatMap escapeChar ++ '"' :: rest) = .ok (value, rest) := by
  have hlength := length_le_escaped value.toList
  rw [Json.scanText, scanString_escaped readBack_escapeChar value.toList (by rw [List.length_append]; omega)]
  simp

/-- A literal can be told from what follows it. -/
theorem literal_append_inj {escape : Char → List Char} (hescape : ReadBack escape) {s t : String} {rest rest' : List Char}
    (h : literal escape s ++ rest = literal escape t ++ rest') : s = t ∧ rest = rest' := by
  rw [literal, literal, List.cons_append, List.cons_append, List.append_assoc, List.append_assoc,
    List.singleton_append, List.singleton_append] at h
  have hread := congrArg (Json.scanString (s.toList.length + t.toList.length + 1) []) (List.cons.inj h).2
  rw [scanString_escaped hescape s.toList (by omega), scanString_escaped hescape t.toList (by omega)] at hread
  obtain ⟨htext, hrest⟩ := Prod.mk.inj (Option.some.inj hread)
  exact ⟨by simpa using htext, hrest⟩

/-- An encoded text: its opening quote, its escaped characters and its closing quote. -/
theorem toList_dumpsStr (value : String) :
    (dumpsStr value).toList = '"' :: (value.toList.flatMap escapeChar ++ ['"']) := by
  simp [dumpsStr]

/-- The encoder writes a brace only for a brace. -/
theorem eq_of_brace_mem_escapeChar {brace c : Char} (hbrace : brace = '\x7b' ∨ brace = '\x7d')
    (h : brace ∈ escapeChar c) : c = brace := by
  have hhex : ∀ n, brace ∉ hex4 n := by
    have hdigit : ∀ d < 16, Nat.digitChar d ≠ '\x7b' ∧ Nat.digitChar d ≠ '\x7d' := by decide
    have hne : ∀ m, brace ≠ Nat.digitChar (m % 16) := by
      intro m
      have hm := hdigit (m % 16) (Nat.mod_lt _ (by decide))
      rcases hbrace with rfl | rfl
      · exact hm.1.symm
      · exact hm.2.symm
    intro n
    simp [hex4, hne]
  have hplain : ∀ d ∈ ['\\', '"', 'n', 'r', 't', 'f', 'b', 'u'], brace ≠ d := by
    rcases hbrace with rfl | rfl
    · simp
    · simp
  rw [escapeChar] at h
  repeat' split at h
  all_goals simp_all

end FleetWorkflow.Python
