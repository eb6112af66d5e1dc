import FleetWorkflow.Web.JsonParse

/-!
# Expressions of JavaScript

The expressions that are built of string literals, names, calls with one argument, members and sums: their tokens, their
syntax and what they evaluate to in a realm. A point right before a digit starts a number, so that it reads no member. A
number is a token of its own, but no expression here has one, and none can follow a name or a member.
-/

namespace FleetWorkflow.Web

open Python

/-! ## Tokens -/

/-- A token; a string has the units that its literal stands for, and the text of a number is kept as it is. -/
inductive JsToken where
  | string (units : List ℕ)
  | name (chars : List Char)
  | number (chars : List Char)
  | dot
  | plus
  | opening
  | closing
deriving DecidableEq, Repr

/-- A character that starts a name. -/
def startsName (c : Char) : Bool := isAsciiLower c || isAsciiUpper c || c = '_' || c = '$'

/-- A character that continues a name. -/
def continuesName (c : Char) : Bool := startsName c || isAsciiDigit c

/-- One token at the start of a text, and the text after it; the literals are those that JSON has too. -/
def scanJsToken : List Char → Option (JsToken × List Char)
  | [] => none
  | c :: rest =>
    if c = '"' then (scanText rest).map fun r => (.string r.1, r.2)
    else if c = '(' then some (.opening, rest)
    else if c = ')' then some (.closing, rest)
    else if c = '+' then (if rest.head? = some '+' ∨ rest.head? = some '=' then none else some (.plus, rest))
    else if c = '.' then
      if (rest.head?.map isAsciiDigit) = some true then
        some (.number (c :: rest.takeWhile continuesName), rest.dropWhile continuesName)
      else some (.dot, rest)
    else if startsName c then some (.name (c :: rest.takeWhile continuesName), rest.dropWhile continuesName)
    else if isAsciiDigit c then some (.number (c :: rest.takeWhile continuesName), rest.dropWhile continuesName)
    else none

/-- The tokens of a text; each takes at least one character. -/
def scanJs : ℕ → List Char → Option (List JsToken)
  | _, [] => some []
  | 0, _ :: _ => none
  | fuel + 1, c :: rest =>
    if c = ' ' then scanJs fuel rest
    else do
      let (token, after) ← scanJsToken (c :: rest)
      let others ← scanJs fuel after
      return token :: others

/-! ## Syntax -/

/-- An expression. -/
inductive JsExpr where
  | string (units : List ℕ)
  | name (chars : List Char)
  | call (function argument : JsExpr)
  | member (object : JsExpr) (name : List Char)
  | plus (left right : JsExpr)
deriving DecidableEq, Repr

mutual

/-- A sum at the start of the tokens, and the tokens after it. -/
def parseSum : ℕ → List JsToken → Option (JsExpr × List JsToken)
  | 0, _ => none
  | fuel + 1, ts => do
    let (first, rest) ← parseOperand fuel ts
    parseSummands fuel first rest

/-- The further summands of a sum. -/
def parseSummands : ℕ → JsExpr → List JsToken → Option (JsExpr × List JsToken)
  | 0, _, _ => none
  | fuel + 1, left, ts =>
    match ts with
    | .plus :: rest => do
      let (right, after) ← parseOperand fuel rest
      parseSummands fuel (.plus left right) after
    | _ => some (left, ts)

/-- A summand: a literal, a name or a parenthesis, with its calls and members. -/
def parseOperand : ℕ → List JsToken → Option (JsExpr × List JsToken)
  | 0, _ => none
  | fuel + 1, ts =>
    match ts with
    | .string units :: rest => parseSuffixes fuel (.string units) rest
    | .name chars :: rest => parseSuffixes fuel (.name chars) rest
    | .opening :: rest => do
      let (inner, after) ← parseSum fuel rest
      match after with
      | .closing :: more => parseSuffixes fuel inner more
      | _ => none
    | _ => none

/-- The calls and the members of a summand. -/
def parseSuffixes : ℕ → JsExpr → List JsToken → Option (JsExpr × List JsToken)
  | 0, _, _ => none
  | fuel + 1, expr, ts =>
    match ts with
    | .dot :: .name chars :: rest => parseSuffixes fuel (.member expr chars) rest
    | .dot :: _ => none
    | .opening :: rest => do
      let (argument, after) ← parseSum fuel rest
      match after with
      | .closing :: more => parseSuffixes fuel (.call expr argument) more
      | _ => none
    | _ => some (expr, ts)

end

/-- The expression that all of the tokens are. -/
def parseJs (ts : List JsToken) : Option JsExpr :=
  match parseSum (ts.length + 8) ts with
  | some (expr, []) => some expr
  | _ => none

/-- The expression that a text is. -/
def readJs (code : List Char) : Option JsExpr := scanJs code.length code >>= parseJs

/-! ## Evaluation -/

/-- The values of a realm, and what it does with them; where there is no value, it throws. -/
structure Realm (V : Type) where
  string : List ℕ → V
  named : List Char → Option V
  call : V → V → Option V
  member : V → List Char → Option V
  add : V → V → Option V

/-- What an expression evaluates to: the parts from left to right, and then what is done with them. -/
def JsExpr.eval {V : Type} (realm : Realm V) : JsExpr → Option V
  | .string units => some (realm.string units)
  | .name chars => realm.named chars
  | .call function argument => do
    let f ← function.eval realm
    let x ← argument.eval realm
    realm.call f x
  | .member object chars => do
    let x ← object.eval realm
    realm.member x chars
  | .plus left right => do
    let x ← left.eval realm
    let y ← right.eval realm
    realm.add x y

example : readJs "$(\"q (a)\").item.json.rows + \"!\"".toList =
    some (.plus (.member (.member (.member (.call (.name "$".toList) (.string (utf16 "q (a)".toList))) "item".toList)
      "json".toList) "rows".toList) (.string [33])) := by
  decide +kernel

example : readJs "$(\"q (a)\").item.json.0a".toList = none := by
  decide +kernel

/-! ## Spelling tokens -/

/-- The texts that a token is written as; a plus has a blank on both sides. -/
inductive Spells : JsToken → List Char → Prop
  | string (value : String) : Spells (.string (utf16 value.toList)) (dumpsStr value).toList
  | name {c : Char} {rest : List Char} (hstarts : startsName c = true) (hrest : ∀ d ∈ rest, continuesName d = true) :
    Spells (.name (c :: rest)) (c :: rest)
  | number {c : Char} {rest : List Char} (hdigit : isAsciiDigit c = true) (hrest : ∀ d ∈ rest, continuesName d = true) :
    Spells (.number ('.' :: c :: rest)) ('.' :: c :: rest)
  | dot : Spells .dot ['.']
  | plus : Spells .plus [' ', '+', ' ']
  | opening : Spells .opening ['(']
  | closing : Spells .closing [')']

/-- What follows a token does not go on with it. -/
def JsToken.EndsBefore (after : List Char) : JsToken → Prop
  | .name _ | .number _ => ∀ c ∈ after.head?, continuesName c = false
  | .dot => ∀ c ∈ after.head?, isAsciiDigit c = false
  | _ => True

/-- Tokens are written one after another. -/
inductive SpellsAll : List JsToken → List Char → Prop
  | nil : SpellsAll [] []
  | cons {token : JsToken} {ts : List JsToken} {cs rest : List Char} (htoken : Spells token cs)
    (hends : token.EndsBefore rest) (hrest : SpellsAll ts rest) : SpellsAll (token :: ts) (cs ++ rest)

/-- A character that starts a name is none of the others. -/
theorem startsName_ne {c d : Char} (h : startsName c = true) (hd : startsName d = false) : c ≠ d := by
  rintro rfl
  rw [h] at hd
  cases hd

/-- A token without blanks around it is read back. -/
theorem scanJsToken_spells {token : JsToken} {cs rest : List Char} (h : Spells token cs) (hplus : token ≠ .plus)
    (hends : token.EndsBefore rest) :
    ∃ c more, cs = c :: more ∧ c ≠ ' ' ∧ scanJsToken (c :: (more ++ rest)) = some (token, rest) := by
  cases h with
  | string value =>
    refine ⟨'"', _, toList_dumpsStr value, by decide, ?_⟩
    rw [scanJsToken, if_pos rfl, List.append_assoc, List.singleton_append, scanText_escaped]
    rfl
  | @name c tail hstarts hrest =>
    have hne (d : Char) (hd : startsName d = false) : c ≠ d := startsName_ne hstarts hd
    refine ⟨c, tail, rfl, hne ' ' rfl, ?_⟩
    obtain ⟨htake, hdrop⟩ := takeWhile_run hrest hends
    rw [scanJsToken, if_neg (hne '"' rfl), if_neg (hne '(' rfl), if_neg (hne ')' rfl), if_neg (hne '+' rfl),
      if_neg (hne '.' rfl), if_pos hstarts, htake, hdrop]
  | @number c tail hdigit hrest =>
    refine ⟨'.', c :: tail, rfl, by decide, ?_⟩
    have hcontinues : ∀ d ∈ c :: tail, continuesName d = true :=
      List.forall_mem_cons.mpr ⟨by rw [continuesName, hdigit, Bool.or_true], hrest⟩
    obtain ⟨htake, hdrop⟩ := takeWhile_run hcontinues hends
    rw [scanJsToken, if_neg (by decide), if_neg (by decide), if_neg (by decide), if_neg (by decide), if_pos rfl,
      if_pos (by rw [List.cons_append, List.head?_cons, Option.map_some, hdigit]), htake, hdrop]
  | dot =>
    refine ⟨'.', [], rfl, by decide, ?_⟩
    have hdigit : ¬ rest.head?.map isAsciiDigit = some true := by
      intro h
      obtain ⟨c, hc, hdigit⟩ := Option.map_eq_some_iff.mp h
      rw [hends c hc] at hdigit
      cases hdigit
    rw [List.nil_append, scanJsToken, if_neg (by decide), if_neg (by decide), if_neg (by decide), if_neg (by decide),
      if_pos rfl, if_neg hdigit]
  | plus => exact absurd rfl hplus
  | opening => exact ⟨'(', [], rfl, by decide, rfl⟩
  | closing => exact ⟨')', [], rfl, by decide, rfl⟩

/-- Tokens that are written one after another are read back. -/
theorem scanJs_spellsAll {ts : List JsToken} {cs : List Char} (h : SpellsAll ts cs) {fuel : ℕ} (hfuel : cs.length ≤ fuel) :
    scanJs fuel cs = some ts := by
  induction h generalizing fuel with
  | nil => cases fuel <;> rfl
  | @cons token ts cs rest htoken hends hrest ih =>
    by_cases hplus : token = .plus
    · subst hplus
      cases htoken
      obtain ⟨fuel, rfl⟩ : ∃ n, fuel = n + 3 := ⟨fuel - 3, by simp at hfuel; omega⟩
      have hlater := @ih fuel (by simp at hfuel; omega)
      simp [scanJs, scanJsToken, hlater]
    · obtain ⟨c, more, rfl, hblank, hscan⟩ := scanJsToken_spells htoken hplus hends
      obtain ⟨fuel, rfl⟩ : ∃ n, fuel = n + 1 := ⟨fuel - 1, by simp at hfuel; omega⟩
      have hlater := @ih fuel (by simp at hfuel; omega)
      rw [List.cons_append, scanJs, if_neg hblank, hscan]
      simp [hlater]

/-- A text that is written with tokens is the expression that they are. -/
theorem readJs_of_spellsAll {ts : List JsToken} {cs : List Char} (h : SpellsAll ts cs) : readJs cs = parseJs ts := by
  rw [readJs, scanJs_spellsAll h (Nat.le_refl _), Option.bind_eq_bind, Option.bind_some]

/-- Tokens are written after others that end there. -/
theorem SpellsAll.append {ts ts' : List JsToken} {cs cs' : List Char} (h : SpellsAll ts cs) (h' : SpellsAll ts' cs')
    (hends : ∀ token ∈ ts.getLast?, token.EndsBefore cs') : SpellsAll (ts ++ ts') (cs ++ cs') := by
  induction h with
  | nil => exact h'
  | @cons token ts cs rest htoken hbefore hrest ih =>
    rw [List.append_assoc]
    cases hrest with
    | nil =>
      rw [List.nil_append]
      exact .cons htoken (hends token (by simp)) h'
    | @cons next ts more after hnext hnextEnds hafter =>
      have hlast := ih fun other hother => hends other (by simpa using hother)
      refine .cons htoken ?_ hlast
      obtain ⟨c, tail, rfl⟩ : ∃ c tail, more = c :: tail := by
        cases hnext with
        | string value => exact ⟨_, _, toList_dumpsStr value⟩
        | _ => exact ⟨_, _, rfl⟩
      cases token <;> exact hbefore

/-! ## Reading sums -/

/-- What follows a summand is no call and no member of it. -/
def EndsOperand (rest : List JsToken) : Prop := ∀ token ∈ rest.head?, token ≠ .dot ∧ token ≠ .opening

/-- The tokens are a summand. -/
def ReadsOperand (ts : List JsToken) (expr : JsExpr) : Prop :=
  ∀ fuel rest, ts.length + 4 ≤ fuel → EndsOperand rest → parseOperand fuel (ts ++ rest) = some (expr, rest)

/-- The tokens are a summand up to a number, which cannot go on with it. -/
def StopsAtNumber (ts : List JsToken) : Prop :=
  ∀ fuel rest, ts.length + 4 ≤ fuel → ∃ expr chars after, parseOperand fuel (ts ++ rest) = some (expr, .number chars :: after)

/-- Summands in front of each of which a plus stands. -/
def summands (operands : List (List JsToken × JsExpr)) : List JsToken := operands.flatMap fun operand => .plus :: operand.1

/-- Summands end a summand. -/
theorem endsOperand_summands (operands : List (List JsToken × JsExpr)) : EndsOperand (summands operands) := by
  intro token htoken
  cases operands with
  | nil => cases htoken
  | cons operand rest =>
    obtain rfl : JsToken.plus = token := by simpa [summands] using htoken
    exact ⟨by simp, by simp⟩

/-- Summands and another plus end a summand. -/
theorem endsOperand_plus (operands : List (List JsToken × JsExpr)) (rest : List JsToken) :
    EndsOperand (summands operands ++ .plus :: rest) := by
  intro token htoken
  cases operands with
  | nil =>
    obtain rfl : JsToken.plus = token := by simpa [summands] using htoken
    exact ⟨by simp, by simp⟩
  | cons operand others => exact endsOperand_summands (operand :: others) token htoken

/-- A text is a summand. -/
theorem readsOperand_string (units : List ℕ) : ReadsOperand [.string units] (.string units) := by
  intro fuel rest hfuel hrest
  obtain ⟨fuel, rfl⟩ : ∃ n, fuel = n + 2 := ⟨fuel - 2, by simp at hfuel; omega⟩
  rw [List.singleton_append, parseOperand, parseSuffixes.eq_def]
  match rest with
  | [] => rfl
  | token :: rest =>
    obtain ⟨hdot, hopening⟩ := hrest token rfl
    cases token <;> first | rfl | exact absurd rfl hdot | exact absurd rfl hopening

/-- The members of a summand. -/
theorem parseSuffixes_members (words : List (List Char)) (expr : JsExpr) {fuel : ℕ} {rest : List JsToken}
    (hfuel : words.length < fuel) :
    parseSuffixes fuel expr (words.flatMap (fun word => [.dot, .name word]) ++ rest) =
      parseSuffixes (fuel - words.length) (words.foldl .member expr) rest := by
  induction words generalizing expr fuel with
  | nil => rfl
  | cons word words ih =>
    obtain ⟨fuel, rfl⟩ : ∃ n, fuel = n + 1 := ⟨fuel - 1, by simp at hfuel; omega⟩
    rw [List.flatMap_cons, List.append_assoc, List.cons_append, List.cons_append, List.nil_append, parseSuffixes,
      ih _ (by simp at hfuel; omega), List.length_cons, Nat.add_sub_add_right, List.foldl_cons]

/-- A summand ends where no call and no member follows. -/
theorem parseSuffixes_ends {fuel : ℕ} (hfuel : 0 < fuel) (expr : JsExpr) {rest : List JsToken} (hrest : EndsOperand rest) :
    parseSuffixes fuel expr rest = some (expr, rest) := by
  obtain ⟨fuel, rfl⟩ : ∃ n, fuel = n + 1 := ⟨fuel - 1, by omega⟩
  rw [parseSuffixes.eq_def]
  match rest with
  | [] => rfl
  | token :: rest =>
    obtain ⟨hdot, hopening⟩ := hrest token rfl
    cases token <;> first | rfl | exact absurd rfl hdot | exact absurd rfl hopening

/-- Summands are summed up from the left. -/
theorem parseSummands_all {operands : List (List JsToken × JsExpr)} (h : ∀ operand ∈ operands, ReadsOperand operand.1 operand.2)
    {fuel : ℕ} (hfuel : (summands operands).length + 5 ≤ fuel) (left : JsExpr) :
    parseSummands fuel left (summands operands) =
      some (operands.foldl (fun sum operand => .plus sum operand.2) left, []) := by
  induction operands generalizing fuel left with
  | nil =>
    obtain ⟨fuel, rfl⟩ : ∃ n, fuel = n + 1 := ⟨fuel - 1, by omega⟩
    rfl
  | cons operand rest ih =>
    obtain ⟨fuel, rfl⟩ : ∃ n, fuel = n + 1 := ⟨fuel - 1, by omega⟩
    have hsplit : summands (operand :: rest) = .plus :: (operand.1 ++ summands rest) := rfl
    rw [hsplit, List.length_cons, List.length_append] at hfuel
    have hoperand := h operand List.mem_cons_self fuel (summands rest) (by omega) (endsOperand_summands rest)
    have hlater := @ih (fun other hother => h other (List.mem_cons_of_mem _ hother)) fuel (by omega) (.plus left operand.2)
    rw [hsplit, parseSummands, hoperand]
    exact hlater

/-- A sum is not read beyond a number in one of its summands. -/
theorem parseSummands_short {before : List (List JsToken × JsExpr)} (h : ∀ operand ∈ before, ReadsOperand operand.1 operand.2)
    {short : List JsToken} (hshort : StopsAtNumber short) (rest : List JsToken) {fuel : ℕ}
    (hfuel : (summands before).length + short.length + 6 ≤ fuel) (left : JsExpr) : ∃ expr chars after,
    parseSummands fuel left (summands before ++ .plus :: (short ++ rest)) = some (expr, .number chars :: after) := by
  induction before generalizing fuel left with
  | nil =>
    obtain ⟨fuel, rfl⟩ : ∃ n, fuel = n + 2 := ⟨fuel - 2, by omega⟩
    obtain ⟨expr, chars, after, hstops⟩ := hshort (fuel + 1) rest (by omega)
    refine ⟨.plus left expr, chars, after, ?_⟩
    show parseSummands (fuel + 2) left (.plus :: (short ++ rest)) = _
    rw [parseSummands, hstops]
    rfl
  | cons operand others ih =>
    obtain ⟨fuel, rfl⟩ : ∃ n, fuel = n + 1 := ⟨fuel - 1, by omega⟩
    have hsplit : summands (operand :: others) ++ .plus :: (short ++ rest) =
        .plus :: (operand.1 ++ (summands others ++ .plus :: (short ++ rest))) := by simp [summands]
    have hlength : (summands (operand :: others)).length = operand.1.length + (summands others).length + 1 := by
      simp [summands]
    have hoperand := h operand List.mem_cons_self fuel _ (by omega) (endsOperand_plus others (short ++ rest))
    obtain ⟨expr, chars, after, hlater⟩ := @ih (fun other hother => h other (List.mem_cons_of_mem _ hother)) fuel (by omega)
      (.plus left operand.2)
    refine ⟨expr, chars, after, ?_⟩
    rw [hsplit, parseSummands, hoperand]
    exact hlater

/-- The tokens of summands are their sum. -/
theorem parseJs_sum {first : List JsToken × JsExpr} {operands : List (List JsToken × JsExpr)}
    (hfirst : ReadsOperand first.1 first.2) (h : ∀ operand ∈ operands, ReadsOperand operand.1 operand.2) :
    parseJs (first.1 ++ summands operands) =
      some (operands.foldl (fun sum operand => .plus sum operand.2) first.2) := by
  have hsum : parseSum ((first.1 ++ summands operands).length + 8) (first.1 ++ summands operands) =
      some (operands.foldl (fun sum operand => .plus sum operand.2) first.2, []) := by
    rw [parseSum, hfirst _ _ (by simp only [List.length_append]; omega) (endsOperand_summands operands)]
    exact parseSummands_all h (by simp only [List.length_append]; omega) first.2
  rw [parseJs, hsum]

/-- Tokens with a number in the first summand are no expression. -/
theorem parseJs_first_short {short : List JsToken} (hshort : StopsAtNumber short) (rest : List JsToken) :
    parseJs (short ++ rest) = none := by
  have hsum : ∃ expr chars after, parseSum ((short ++ rest).length + 8) (short ++ rest) =
      some (expr, .number chars :: after) := by
    obtain ⟨expr, chars, after, hstops⟩ := hshort ((short ++ rest).length + 7) rest (by simp only [List.length_append]; omega)
    refine ⟨expr, chars, after, ?_⟩
    rw [parseSum, hstops]
    rfl
  obtain ⟨expr, chars, after, hsum⟩ := hsum
  rw [parseJs, hsum]

/-- Tokens with a number in a later summand are no expression. -/
theorem parseJs_later_short {first : List JsToken × JsExpr} {before : List (List JsToken × JsExpr)}
    (hfirst : ReadsOperand first.1 first.2) (h : ∀ operand ∈ before, ReadsOperand operand.1 operand.2)
    {short : List JsToken} (hshort : StopsAtNumber short) (rest : List JsToken) :
    parseJs (first.1 ++ (summands before ++ .plus :: (short ++ rest))) = none := by
  obtain ⟨expr, chars, after, hsummands⟩ := @parseSummands_short before h short hshort rest
    ((first.1 ++ (summands before ++ .plus :: (short ++ rest))).length + 7)
    (by simp only [List.length_append, List.length_cons]; omega) first.2
  have hsum : parseSum ((first.1 ++ (summands before ++ .plus :: (short ++ rest))).length + 8)
      (first.1 ++ (summands before ++ .plus :: (short ++ rest))) = some (expr, .number chars :: after) := by
    rw [parseSum, hfirst _ _ (by simp only [List.length_append]; omega) (endsOperand_plus before (short ++ rest))]
    exact hsummands
  rw [parseJs, hsum]

end FleetWorkflow.Web
