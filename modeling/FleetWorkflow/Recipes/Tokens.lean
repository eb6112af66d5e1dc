import FleetWorkflow.Python.JsonText
import FleetWorkflow.Recipes.Reference

/-!
# Tokens of an emitted expression

The spellings that the compiler puts inside the braces of an n8n expression, and a reader for
them. The reader looks at the first character of what is left, and at nothing that it has already
read; a text that is none of these spellings has no tokens at all.
-/

namespace FleetWorkflow.Recipes

open FleetWorkflow.Python

/-- One token: a JSON string literal, a node access, or one of the fixed spellings. -/
inductive Token where
  | text (value : String)
  | access (node path : String)
  | plus
  | openBody
  | colon
  | comma
  | closeBody
deriving DecidableEq, Repr

/-- The characters of a dotted path. -/
def isAccessChar (c : Char) : Bool := isPathChar c || c = '.'

/-- What opens a request body: `JSON.stringify(` and a brace. -/
def bodyOpening : List Char :=
  ['J', 'S', 'O', 'N', '.', 's', 't', 'r', 'i', 'n', 'g', 'i', 'f', 'y', '(', '\x7b']

/-- The tokens with a fixed spelling. -/
def fixedTokens : List (Token × List Char) :=
  [(.plus, [' ', '+', ' ']), (.openBody, bodyOpening), (.colon, [':', ' ']),
    (.comma, [',', ' ']), (.closeBody, ['\x7d', ')'])]

/-- What stands between the node and the path of an access. -/
def accessMiddle : List Char := [')', '.', 'i', 't', 'e', 'm', '.', 'j', 's', 'o', 'n', '.']

/-- An access after its `$("`: the rest of the node literal, and the longest path. -/
def scanAccess (cs : List Char) : Option (Token × List Char) :=
  match Json.scanText cs with
  | .error _ => none
  | .ok (node, afterNode) => do
    let afterMiddle ← dropLiteral accessMiddle afterNode
    let path := afterMiddle.takeWhile isAccessChar
    if path = [] then none
    else return (.access node (String.ofList path), afterMiddle.dropWhile isAccessChar)

/-- One token at the start of the text, and the text after it. -/
def scanToken (cs : List Char) : Option (Token × List Char) :=
  match cs with
  | '"' :: rest =>
    match Json.scanText rest with
    | .ok (value, after) => some (.text value, after)
    | .error _ => none
  | '$' :: '(' :: '"' :: rest => scanAccess rest
  | _ => fixedTokens.findSome? fun entry => (dropLiteral entry.2 cs).map fun rest => (entry.1, rest)

/-- The tokens of a text; each takes at least one character. -/
def tokenize : ℕ → List Char → Option (List Token)
  | _, [] => some []
  | 0, _ :: _ => none
  | fuel + 1, cs => do
    let (token, rest) ← scanToken cs
    let others ← tokenize fuel rest
    return token :: others

/-- The tokens of the JavaScript inside an expression. -/
def tokens (code : String) : Option (List Token) := tokenize code.length code.toList

example : tokens "JSON.stringify(\x7b\"sql\": \"a\\\"\" + $(\"q (a)\").item.json.rows.0\x7d)" =
    some [.openBody, .text "sql", .colon, .text "a\"", .plus, .access "q (a)" "rows.0", .closeBody] := by
  decide

/-! ## Spelling tokens -/

/-- The characters of a token. -/
def Token.chars : Token → List Char
  | .text value => (dumpsStr value).toList
  | .access node path => '$' :: '(' :: (dumpsStr node).toList ++ accessMiddle ++ path.toList
  | .plus => [' ', '+', ' ']
  | .openBody => bodyOpening
  | .colon => [':', ' ']
  | .comma => [',', ' ']
  | .closeBody => ['\x7d', ')']

/-- A token that can be spelt: the path of an access is not empty and stays in its class. -/
def Token.Spelt : Token → Prop
  | .access _ path => path.toList ≠ [] ∧ ∀ c ∈ path.toList, isAccessChar c = true
  | _ => True

/-- A text that does not continue a path. -/
def EndsPath (cs : List Char) : Prop := ∀ c ∈ cs.head?, isAccessChar c = false

/-- A spelt token is read back. -/
theorem scanToken_chars {token : Token} (h : token.Spelt) {rest : List Char} (hrest : EndsPath rest) :
    scanToken (token.chars ++ rest) = some (token, rest) := by
  cases token with
  | text value =>
    simp only [Token.chars, toList_dumpsStr, List.cons_append, List.append_assoc, List.nil_append, scanToken,
      scanText_escaped]
  | access node path =>
    obtain ⟨htake, hdrop⟩ := takeWhile_run h.2 hrest
    have hmiddle : dropLiteral accessMiddle (accessMiddle ++ (path.toList ++ rest)) = some (path.toList ++ rest) := by
      simp [dropLiteral]
    simp only [Token.chars, toList_dumpsStr, List.cons_append, List.append_assoc, List.nil_append, scanToken,
      scanAccess, scanText_escaped, hmiddle, Option.bind_eq_bind, Option.bind_some, htake, hdrop, h.1, if_false,
      String.ofList_toList]
    rfl
  | plus => simp [Token.chars, scanToken, fixedTokens, dropLiteral]
  | openBody => simp [Token.chars, scanToken, fixedTokens, dropLiteral, bodyOpening]
  | colon => simp [Token.chars, scanToken, fixedTokens, dropLiteral, bodyOpening]
  | comma => simp [Token.chars, scanToken, fixedTokens, dropLiteral, bodyOpening]
  | closeBody => simp [Token.chars, scanToken, fixedTokens, dropLiteral, bodyOpening]

/-- Only the opening of a body could continue a path. -/
theorem Token.endsPath {token : Token} (h : token ≠ .openBody) (rest : List Char) :
    EndsPath (token.chars ++ rest) := by
  intro c hc
  cases token with
  | openBody => exact absurd rfl h
  | text value =>
    rw [Token.chars, toList_dumpsStr] at hc
    obtain rfl : '"' = c := by simpa using hc
    decide
  | access node path =>
    obtain rfl : '$' = c := by simpa [Token.chars] using hc
    decide
  | plus =>
    obtain rfl : ' ' = c := by simpa [Token.chars] using hc
    decide
  | colon =>
    obtain rfl : ':' = c := by simpa [Token.chars] using hc
    decide
  | comma =>
    obtain rfl : ',' = c := by simpa [Token.chars] using hc
    decide
  | closeBody =>
    obtain rfl : '\x7d' = c := by simpa [Token.chars] using hc
    decide

/-- Every token has a character. -/
theorem Token.chars_ne_nil (token : Token) : token.chars ≠ [] := by
  cases token with
  | text value => simp [Token.chars, toList_dumpsStr]
  | access node path => simp [Token.chars]
  | _ => simp [Token.chars, bodyOpening]

/-- Spelt tokens are read back, when a body is opened at most at the start. -/
theorem tokenize_chars {ts : List Token} (hspelt : ∀ token ∈ ts, token.Spelt)
    (htail : Token.openBody ∉ ts.tail) {fuel : ℕ} (hfuel : (ts.flatMap Token.chars).length ≤ fuel) :
    tokenize fuel (ts.flatMap Token.chars) = some ts := by
  induction ts generalizing fuel with
  | nil => simp [tokenize]
  | cons token rest ih =>
    have hends : EndsPath (rest.flatMap Token.chars) := by
      cases rest with
      | nil => exact fun c hc => by cases hc
      | cons next rest =>
        rw [List.flatMap_cons]
        exact Token.endsPath (fun heq => htail (heq ▸ List.mem_cons_self)) _
    have hpos := List.length_pos_iff.mpr token.chars_ne_nil
    rw [List.flatMap_cons, List.length_append] at hfuel
    obtain ⟨fuel, rfl⟩ : ∃ n, fuel = n + 1 := ⟨fuel - 1, by omega⟩
    have hrest : tokenize fuel (rest.flatMap Token.chars) = some rest :=
      ih (fun other hother => hspelt other (List.mem_cons_of_mem _ hother))
        (fun hmem => htail (List.mem_of_mem_tail hmem)) (by omega)
    have hscan := scanToken_chars (hspelt token List.mem_cons_self) hends
    obtain ⟨c, cs, hchars⟩ := List.exists_cons_of_ne_nil token.chars_ne_nil
    rw [hchars, List.cons_append] at hscan
    rw [List.flatMap_cons, hchars, List.cons_append]
    simp [tokenize, hscan, hrest]

/-- The tokens of a text that is spelt by them. -/
theorem tokens_eq {code : String} {ts : List Token} (hcode : code.toList = ts.flatMap Token.chars)
    (hspelt : ∀ token ∈ ts, token.Spelt) (htail : Token.openBody ∉ ts.tail) : tokens code = some ts := by
  rw [tokens, ← String.length_toList, hcode]
  exact tokenize_chars hspelt htail (Nat.le_refl _)

/-! ## Braces -/

/-- A text without braces. -/
def BraceFree (cs : List Char) : Prop := ∀ c ∈ cs, c ≠ '\x7b' ∧ c ≠ '\x7d'

/-- No character of the text is a brace. -/
theorem braceFree_of_all {cs : List Char} (h : cs.all (fun c => c != '\x7b' && c != '\x7d') = true) :
    BraceFree cs := by
  intro c hc
  simpa using List.all_eq_true.mp h c hc

/-- A token whose own texts have no braces. -/
def Token.BraceFree : Token → Prop
  | .text value => Recipes.BraceFree value.toList
  | .access node _ => Recipes.BraceFree node.toList
  | _ => True

/-- A code without a second pair of expression braces in it. -/
def NoPair (code : String) : Prop :=
  ¬ ['\x7b', '\x7b'] <:+: code.toList ∧ ¬ ['\x7d', '\x7d'] <:+: code.toList

/-- A literal has the braces of its text only. -/
theorem BraceFree.dumpsStr {value : String} (h : BraceFree value.toList) :
    BraceFree (Python.dumpsStr value).toList := by
  have hescaped : ∀ brace, brace = '\x7b' ∨ brace = '\x7d' → brace ∉ value.toList.flatMap escapeChar := by
    intro brace hbrace hmem
    obtain ⟨c, hc, hin⟩ := List.mem_flatMap.mp hmem
    obtain rfl := eq_of_brace_mem_escapeChar hbrace hin
    rcases hbrace with rfl | rfl
    · exact (h _ hc).1 rfl
    · exact (h _ hc).2 rfl
  intro c hc
  rw [toList_dumpsStr, List.mem_cons, List.mem_append, List.mem_singleton] at hc
  rcases hc with rfl | hc | rfl
  · decide
  · exact ⟨fun heq => hescaped c (.inl heq) hc, fun heq => hescaped c (.inr heq) hc⟩
  · decide

/-- No character of a path is a brace. -/
theorem braceFree_path {path : List Char} (h : ∀ c ∈ path, isAccessChar c = true) : BraceFree path := by
  intro c hc
  have hchar := h c hc
  constructor
  · rintro rfl
    exact absurd hchar (by decide)
  · rintro rfl
    exact absurd hchar (by decide)

/-- The braces of a token's spelling: one at the end of a body's opening, one at the start of its closing. -/
theorem Token.count_braces {token : Token} (hspelt : token.Spelt) (hfree : token.BraceFree) :
    token.chars.count '\x7b' = (if token = .openBody then 1 else 0) ∧
      token.chars.count '\x7d' = (if token = .closeBody then 1 else 0) := by
  have hnone : ∀ {cs : List Char}, Recipes.BraceFree cs → cs.count '\x7b' = 0 ∧ cs.count '\x7d' = 0 :=
    fun h => ⟨List.count_eq_zero.mpr fun hmem => (h _ hmem).1 rfl,
      List.count_eq_zero.mpr fun hmem => (h _ hmem).2 rfl⟩
  cases token with
  | text value => simpa [Token.chars] using hnone (Recipes.BraceFree.dumpsStr hfree)
  | access node path =>
    have hnode := hnone (Recipes.BraceFree.dumpsStr hfree)
    have hpath := hnone (braceFree_path hspelt.2)
    simp [Token.chars, accessMiddle, hnode, hpath]
  | plus => decide
  | openBody => decide
  | colon => decide
  | comma => decide
  | closeBody => decide

/-- Braces are counted by the tokens that have them. -/
theorem count_braces_chars {ts : List Token} (hspelt : ∀ token ∈ ts, token.Spelt)
    (hfree : ∀ token ∈ ts, token.BraceFree) :
    (ts.flatMap Token.chars).count '\x7b' = ts.count .openBody ∧
      (ts.flatMap Token.chars).count '\x7d' = ts.count .closeBody := by
  induction ts with
  | nil => exact ⟨rfl, rfl⟩
  | cons token rest ih =>
    have hrest := ih (fun other hother => hspelt other (List.mem_cons_of_mem _ hother))
      (fun other hother => hfree other (List.mem_cons_of_mem _ hother))
    have htoken := Token.count_braces (hspelt token List.mem_cons_self) (hfree token List.mem_cons_self)
    rw [List.flatMap_cons, List.count_append, List.count_append, hrest.1, hrest.2, htoken.1, htoken.2]
    simp [List.count_cons, Nat.add_comm]

/-- A code with at most one body has no second pair of expression braces. -/
theorem noPair {code : String} {ts : List Token} (hcode : code.toList = ts.flatMap Token.chars)
    (hspelt : ∀ token ∈ ts, token.Spelt) (hfree : ∀ token ∈ ts, token.BraceFree)
    (hopen : ts.count .openBody ≤ 1) (hclose : ts.count .closeBody ≤ 1) : NoPair code := by
  obtain ⟨hopens, hcloses⟩ := count_braces_chars hspelt hfree
  rw [NoPair, hcode]
  constructor
  · intro hinfix
    have hcount := hinfix.sublist.count_le '\x7b'
    rw [hopens] at hcount
    exact absurd (Nat.le_trans hcount hopen) (by decide : ¬ 2 ≤ 1)
  · intro hinfix
    have hcount := hinfix.sublist.count_le '\x7d'
    rw [hcloses] at hcount
    exact absurd (Nat.le_trans hcount hclose) (by decide : ¬ 2 ≤ 1)

/-! ## Sums and bodies -/

/-- An operand: a literal, or an access to one of the named nodes. -/
def Token.IsOperand (names : List String) : Token → Prop
  | .text _ => True
  | .access node path => node ∈ names ∧ path.toList ≠ [] ∧ ∀ c ∈ path.toList, isAccessChar c = true
  | _ => False

/-- Operands with a plus between each two. -/
def IsSum (names : List String) (ts : List Token) : Prop :=
  ∃ operands : List Token, operands ≠ [] ∧ (∀ operand ∈ operands, operand.IsOperand names) ∧
    ts = [Token.plus].intercalate (operands.map fun operand => [operand])

/-- The tokens of a request body: an object literal under `JSON.stringify`. -/
def bodyTokens (fields : List (String × List Token)) : List Token :=
  .openBody :: [Token.comma].intercalate (fields.map fun field => .text field.1 :: .colon :: field.2) ++
    [.closeBody]

/-- A request body with the given keys, whose values are sums. -/
def IsBody (names keys : List String) (ts : List Token) : Prop :=
  ∃ fields : List (String × List Token), fields.map Prod.fst = keys ∧
    (∀ field ∈ fields, IsSum names field.2) ∧ ts = bodyTokens fields

/-- Joined tokens are spelt by the joined spellings. -/
theorem flatMap_intercalate (separator : Token) (groups : List (List Token)) :
    ([separator].intercalate groups).flatMap Token.chars =
      separator.chars.intercalate (groups.map fun group => group.flatMap Token.chars) := by
  induction groups with
  | nil => rfl
  | cons group rest ih =>
    cases rest with
    | nil => simp
    | cons next rest =>
      rw [List.intercalate_cons_cons, List.flatMap_append, List.flatMap_append, ih]
      simp

/-- A joined token is the separator, or belongs to a group. -/
theorem mem_intercalate {separator token : Token} {groups : List (List Token)}
    (h : token ∈ [separator].intercalate groups) : token = separator ∨ ∃ group ∈ groups, token ∈ group := by
  induction groups with
  | nil => simp at h
  | cons group rest ih =>
    cases rest with
    | nil => exact .inr ⟨group, List.mem_cons_self, by simpa using h⟩
    | cons next rest =>
      rw [List.intercalate_cons_cons, List.mem_append, List.mem_append, List.mem_singleton] at h
      rcases h with (h | h) | h
      · exact .inr ⟨group, List.mem_cons_self, h⟩
      · exact .inl h
      · rcases ih h with h | ⟨other, hother, h⟩
        · exact .inl h
        · exact .inr ⟨other, List.mem_cons_of_mem _ hother, h⟩

/-- A token that stands between the opening and the closing of a body, or in no body. -/
structure Token.Inner (token : Token) : Prop where
  spelt : token.Spelt
  free : token.BraceFree
  not_open : token ≠ .openBody
  not_close : token ≠ .closeBody

/-- A separator is an inner token, and a sum of inner operands has inner tokens. -/
theorem inner_of_mem_intercalate {separator : Token} {groups : List (List Token)} (hseparator : separator.Inner)
    (hgroups : ∀ group ∈ groups, ∀ token ∈ group, token.Inner) :
    ∀ token ∈ [separator].intercalate groups, token.Inner := by
  intro token htoken
  rcases mem_intercalate htoken with rfl | ⟨group, hgroup, hin⟩
  · exact hseparator
  · exact hgroups group hgroup token hin

/-- A code of inner tokens is read back, and has no second pair of braces. -/
theorem tokens_of_inner {code : String} {ts : List Token} (hcode : code.toList = ts.flatMap Token.chars)
    (hinner : ∀ token ∈ ts, token.Inner) : tokens code = some ts ∧ NoPair code := by
  have hopen : Token.openBody ∉ ts := fun hmem => (hinner _ hmem).not_open rfl
  have hclose : Token.closeBody ∉ ts := fun hmem => (hinner _ hmem).not_close rfl
  have hspelt : ∀ token ∈ ts, token.Spelt := fun token hmem => (hinner token hmem).spelt
  refine ⟨tokens_eq hcode hspelt fun hmem => hopen (List.mem_of_mem_tail hmem), ?_⟩
  apply noPair hcode hspelt fun token hmem => (hinner token hmem).free
  · rw [List.count_eq_zero.mpr hopen]
    exact Nat.zero_le 1
  · rw [List.count_eq_zero.mpr hclose]
    exact Nat.zero_le 1

/-- A request body of inner tokens is read back, and has no second pair of braces. -/
theorem tokens_of_body {code : String} {fields : List (String × List Token)}
    (hcode : code.toList = (bodyTokens fields).flatMap Token.chars)
    (hkeys : ∀ field ∈ fields, BraceFree field.1.toList)
    (hvalues : ∀ field ∈ fields, ∀ token ∈ field.2, token.Inner) :
    tokens code = some (bodyTokens fields) ∧ NoPair code := by
  have hinner : ∀ token ∈ [Token.comma].intercalate
      (fields.map fun field => .text field.1 :: .colon :: field.2), token.Inner := by
    have hcomma : Token.comma.Inner := ⟨trivial, trivial, by decide, by decide⟩
    apply inner_of_mem_intercalate hcomma
    intro group hgroup token htoken
    obtain ⟨field, hfield, rfl⟩ := List.mem_map.mp hgroup
    rcases List.mem_cons.mp htoken with rfl | htoken
    · exact ⟨trivial, hkeys field hfield, by simp, by simp⟩
    rcases List.mem_cons.mp htoken with rfl | htoken
    · exact ⟨trivial, trivial, by decide, by decide⟩
    · exact hvalues field hfield token htoken
  have hall : ∀ token ∈ bodyTokens fields, token.Spelt ∧ token.BraceFree := by
    intro token htoken
    simp only [bodyTokens, List.cons_append, List.mem_cons, List.mem_append, List.not_mem_nil,
      or_false] at htoken
    rcases htoken with rfl | htoken | rfl
    · exact ⟨trivial, trivial⟩
    · exact ⟨(hinner token htoken).spelt, (hinner token htoken).free⟩
    · exact ⟨trivial, trivial⟩
  have hopen := List.count_eq_zero.mpr fun hmem => (hinner _ hmem).not_open rfl
  have hclose := List.count_eq_zero.mpr fun hmem => (hinner _ hmem).not_close rfl
  refine ⟨tokens_eq hcode (fun token hmem => (hall token hmem).1) ?_,
    noPair hcode (fun token hmem => (hall token hmem).1) (fun token hmem => (hall token hmem).2) ?_ ?_⟩
  · rw [bodyTokens, List.cons_append, List.tail_cons, List.mem_append, List.mem_singleton]
    rintro (hmem | hmem)
    · exact (hinner _ hmem).not_open rfl
    · cases hmem
  · rw [bodyTokens, List.cons_append, List.count_cons_self, List.count_append, hopen]
    decide
  · rw [bodyTokens, List.cons_append, List.count_cons_of_ne (by decide), List.count_append, hclose]
    decide

end FleetWorkflow.Recipes
