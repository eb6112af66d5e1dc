import FleetWorkflow.Core.Guardrails

/-!
# Delimiter tokens

What the pattern of delimiters matches: an opening bracket, a slash or none, white space and the tag
as a word. Neutralising takes the brackets of every match away and nothing else, so that no token is
left and a second pass changes nothing.
-/

namespace FleetWorkflow.Core

open Python

/-- The letters of the tag. -/
def tagLetters : List Char := ['u', 'n', 't', 'r', 'u', 's', 't', 'e', 'd', '_', 'c', 'o', 'n', 't', 'e', 'x', 't']

/-- A text starts with a delimiter token. -/
def StartsToken (isWord : Char → Bool) (cs : List Char) : Prop :=
  ∃ slash spaces word rest, cs = '<' :: (slash ++ (spaces ++ (word ++ rest))) ∧ (slash = [] ∨ slash = ['/']) ∧
    (∀ c ∈ spaces, isSpace c) ∧ List.Forall₂ (fun letter c => tagLetter letter c = true) tagLetters word ∧
    rest.head?.any isWord = false

/-- No delimiter token starts anywhere in a text. -/
def TokenFree (isWord : Char → Bool) (cs : List Char) : Prop := ∀ suffix, suffix <:+ cs → ¬ StartsToken isWord suffix

variable {unicode : Unicode} {cs : List Char}

/-- The last letter of the tag is part of a word. -/
theorem isWord_of_tagLetter_t {c : Char} (h : tagLetter 't' c = true) : unicode.isWord c = true := by
  simp only [tagLetter, Bool.or_eq_true, Bool.and_eq_true, decide_eq_true_eq, Char.reduceEq, false_and, or_false] at h
  rcases h with rfl | rfl
  · rw [Unicode.isWord, unicode.ascii _ (by decide)]
    rfl
  · rw [Unicode.isWord, unicode.ascii _ (by decide)]
    rfl

/-- The word of a tag ends with a character of a word. -/
theorem getLast?_tagWord {word : List Char} (h : List.Forall₂ (fun letter c => tagLetter letter c = true) tagLetters word) :
    word.getLast?.any unicode.isWord = true := by
  obtain ⟨init, last, rfl, hlast⟩ : ∃ init last, word = init ++ [last] ∧ tagLetter 't' last = true := by
    have hreverse := List.forall₂_reverse_iff.mpr h
    have hletters : tagLetters.reverse = 't' :: tagLetters.reverse.tail := by rfl
    rw [hletters] at hreverse
    cases hword : word.reverse with
    | nil =>
      rw [hword] at hreverse
      cases hreverse
    | cons last init =>
      rw [hword] at hreverse
      cases hreverse with
      | cons hlast _ => exact ⟨init.reverse, last, by rw [← List.reverse_reverse word, hword, List.reverse_cons], hlast⟩
  rw [List.getLast?_concat]
  exact isWord_of_tagLetter_t hlast

/-- The pattern of delimiters, part by part. -/
theorem tagTokenRe_eq : tagTokenRe = .seq (.one (· = '<')) (.seq (.maybe (· = '/')) (.seq (.chars isSpace 0 none)
    (.seq (.all ((tagLetters.map tagLetter).map .one)) (.seq .boundary (.seq (.chars (· ≠ '>') 0 none)
      (.maybe (· = '>'))))))) := rfl

/-- The word of a tag as a word of letters. -/
theorem forall₂_tagLetter {word : List Char} : List.Forall₂ (fun letter c => letter c = true) (tagLetters.map tagLetter) word ↔
    List.Forall₂ (fun letter c => tagLetter letter c = true) tagLetters word :=
  List.forall₂_map_left_iff

/-- The pattern of delimiters matches where a token starts, and what it matches is not empty. -/
theorem mem_ends_tagTokenRe {b : Option Char} {place : Place} (h : place ∈ tagTokenRe.ends unicode.isWord ⟨b, cs⟩) :
    StartsToken unicode.isWord cs ∧ ∃ matched, matched ≠ [] ∧ cs = matched ++ place.rest := by
  rw [tagTokenRe_eq] at h
  obtain ⟨mid, hopen, h⟩ := Re.mem_ends_seq.mp h
  obtain ⟨c, cs₁, rfl, hc, rfl⟩ := Re.mem_ends_one.mp hopen
  obtain rfl : c = '<' := by simpa using hc
  obtain ⟨mid, hslash, h⟩ := Re.mem_ends_seq.mp h
  obtain ⟨slash, b₂, cs₂, hoptional, rfl, rfl⟩ : ∃ slash b₂ cs₂, (slash = [] ∨ slash = ['/']) ∧ cs₁ = slash ++ cs₂ ∧
      mid = ⟨b₂, cs₂⟩ := by
    rcases Re.mem_ends_maybe.mp hslash with rfl | ⟨d, rest, rfl, hd, rfl⟩
    · exact ⟨[], _, cs₁, .inl rfl, rfl, rfl⟩
    · exact ⟨['/'], _, rest, .inr rfl, by simpa using hd, rfl⟩
  obtain ⟨mid, hspaces, h⟩ := Re.mem_ends_seq.mp h
  obtain ⟨spaces, cs₃, rfl, hblank, rfl⟩ := Re.mem_ends_many.mp hspaces
  obtain ⟨mid, hword, h⟩ := Re.mem_ends_seq.mp h
  obtain ⟨word, cs₄, rfl, hmapped, rfl⟩ := Re.mem_ends_word.mp hword
  have hletters := forall₂_tagLetter.mp hmapped
  obtain ⟨mid, hboundary, h⟩ := Re.mem_ends_seq.mp h
  obtain ⟨hbreak, rfl⟩ := Re.mem_ends_boundary.mp hboundary
  obtain ⟨mid, hattributes, h⟩ := Re.mem_ends_seq.mp h
  obtain ⟨attributes, cs₅, rfl, -, rfl⟩ := Re.mem_ends_many.mp hattributes
  constructor
  · refine ⟨slash, spaces, word, _, rfl, hoptional, hblank, hletters, ?_⟩
    rw [getLast?_tagWord hletters] at hbreak
    simpa using hbreak.symm
  · rcases Re.mem_ends_maybe.mp h with rfl | ⟨d, rest, rfl, -, rfl⟩
    · exact ⟨'<' :: (slash ++ (spaces ++ (word ++ attributes))), by simp, by simp⟩
    · exact ⟨'<' :: (slash ++ (spaces ++ (word ++ (attributes ++ [d])))), by simp, by simp⟩

/-- The pattern of delimiters matches wherever a token starts. -/
theorem ends_tagTokenRe_of_startsToken (b : Option Char) (h : StartsToken unicode.isWord cs) :
    ∃ place, place ∈ tagTokenRe.ends unicode.isWord ⟨b, cs⟩ := by
  obtain ⟨slash, spaces, word, rest, rfl, hslash, hspaces, hword, hrest⟩ := h
  rw [tagTokenRe_eq]
  refine ⟨⟨word.getLast?, rest⟩, Re.mem_ends_seq.mpr ⟨_, Re.mem_ends_one.mpr ⟨'<', _, rfl, rfl, rfl⟩, ?_⟩⟩
  have hmaybe : ∃ b₂, (⟨b₂, spaces ++ (word ++ rest)⟩ : Place) ∈
      (Re.maybe (· = '/')).ends unicode.isWord ⟨some '<', slash ++ (spaces ++ (word ++ rest))⟩ := by
    rcases hslash with rfl | rfl
    · exact ⟨_, Re.mem_ends_maybe.mpr (.inl rfl)⟩
    · exact ⟨_, Re.mem_ends_maybe.mpr (.inr ⟨'/', _, rfl, rfl, rfl⟩)⟩
  obtain ⟨b₂, hmaybe⟩ := hmaybe
  refine Re.mem_ends_seq.mpr ⟨_, hmaybe, Re.mem_ends_seq.mpr ⟨_, Re.mem_ends_many.mpr ⟨spaces, _, rfl, hspaces, rfl⟩, ?_⟩⟩
  refine Re.mem_ends_seq.mpr ⟨_, Re.mem_ends_word.mpr ⟨word, rest, rfl, forall₂_tagLetter.mpr hword, rfl⟩, ?_⟩
  refine Re.mem_ends_seq.mpr ⟨_, Re.mem_ends_boundary.mpr ⟨?_, rfl⟩, ?_⟩
  · rw [getLast?_tagWord hword, hrest]
    decide
  · exact Re.mem_ends_seq.mpr ⟨_, Re.mem_ends_many.mpr ⟨[], rest, rfl, by simp, rfl⟩, Re.mem_ends_maybe.mpr (.inl rfl)⟩

/-! ## Neutralising -/

/-- Where a token starts there is a match, which the search goes on after. -/
theorem piecesFrom_token (fuel : ℕ) (b : Option Char) {c : Char} {rest : List Char}
    (h : StartsToken unicode.isWord (c :: rest)) : ∃ matched b' rest', matched ≠ [] ∧ c :: rest = matched ++ rest' ∧
      tagTokenRe.piecesFrom unicode.isWord (fuel + 1) b (c :: rest) =
        .matched matched :: tagTokenRe.piecesFrom unicode.isWord fuel b' rest' := by
  obtain ⟨found, hfound⟩ := ends_tagTokenRe_of_startsToken b h
  cases hends : tagTokenRe.ends unicode.isWord ⟨b, c :: rest⟩ with
  | nil =>
    rw [hends] at hfound
    cases hfound
  | cons place places =>
    have hmem : place ∈ tagTokenRe.ends unicode.isWord ⟨b, c :: rest⟩ := by
      rw [hends]
      exact List.mem_cons_self
    obtain ⟨-, matched, hne, hsplit⟩ := mem_ends_tagTokenRe hmem
    have hlength : (c :: rest).length = matched.length + place.rest.length := by
      rw [hsplit, List.length_append]
    have hpos := List.length_pos_of_ne_nil hne
    refine ⟨matched, place.before, place.rest, hne, hsplit, ?_⟩
    rw [Re.piecesFrom, hends]
    dsimp only [List.head?_cons]
    rw [if_pos (by omega), hlength, Nat.add_sub_cancel, hsplit, List.take_left]

/-- Where no token starts the search goes on at the next character. -/
theorem piecesFrom_skip {fuel : ℕ} {b : Option Char} {c : Char} {rest : List Char}
    (h : ¬ StartsToken unicode.isWord (c :: rest)) : tagTokenRe.piecesFrom unicode.isWord (fuel + 1) b (c :: rest) =
      .skipped c :: tagTokenRe.piecesFrom unicode.isWord fuel (some c) rest := by
  have hends : tagTokenRe.ends unicode.isWord ⟨b, c :: rest⟩ = [] := by
    cases hends : tagTokenRe.ends unicode.isWord ⟨b, c :: rest⟩ with
    | nil => rfl
    | cons place places =>
      have hmem : place ∈ tagTokenRe.ends unicode.isWord ⟨b, c :: rest⟩ := by
        rw [hends]
        exact List.mem_cons_self
      exact absurd (mem_ends_tagTokenRe hmem).1 h
  rw [Re.piecesFrom, hends]
  rfl

theorem tokenFree_nil {isWord : Char → Bool} : TokenFree isWord [] := by
  intro suffix hsuffix
  rw [List.suffix_nil.mp hsuffix]
  rintro ⟨slash, spaces, word, rest, hsplit, -⟩
  cases hsplit

/-- A text has no token when its rest has none and none starts at its first character. -/
theorem TokenFree.cons {isWord : Char → Bool} {c : Char} (hstart : ¬ StartsToken isWord (c :: cs))
    (h : TokenFree isWord cs) : TokenFree isWord (c :: cs) := by
  intro suffix hsuffix
  rcases List.suffix_cons_iff.mp hsuffix with rfl | hrest
  · exact hstart
  · exact h suffix hrest

/-- Other characters than the bracket start no token. -/
theorem not_startsToken_cons {isWord : Char → Bool} {c : Char} (h : c ≠ '<') : ¬ StartsToken isWord (c :: cs) := by
  rintro ⟨slash, spaces, word, rest, hsplit, -⟩
  cases hsplit
  exact h rfl

/-- Characters other than the bracket before a text without tokens. -/
theorem TokenFree.append {isWord : Char → Bool} {front : List Char} (hfront : ∀ c ∈ front, c ≠ '<')
    (h : TokenFree isWord cs) : TokenFree isWord (front ++ cs) := by
  induction front with
  | nil => exact h
  | cons c front ih =>
    exact .cons (not_startsToken_cons (hfront c List.mem_cons_self)) (ih fun d hd => hfront d (List.mem_cons_of_mem _ hd))

theorem TokenFree.of_cons {isWord : Char → Bool} {c : Char} (h : TokenFree isWord (c :: cs)) : TokenFree isWord cs :=
  fun suffix hsuffix => h suffix (hsuffix.trans (List.suffix_cons c cs))

/-- Without a token the search matches nothing. -/
theorem piecesFrom_tokenFree (fuel : ℕ) (b : Option Char) (h : TokenFree unicode.isWord cs) :
    tagTokenRe.piecesFrom unicode.isWord fuel b cs = cs.map .skipped := by
  induction fuel generalizing b cs with
  | zero => cases cs <;> rfl
  | succ fuel ih =>
    cases cs with
    | nil => rfl
    | cons c rest => rw [piecesFrom_skip (h _ (List.suffix_refl _)), ih _ h.of_cons, List.map_cons]

/-- A token that starts somewhere is found. -/
theorem tokenFree_of_pieces {fuel : ℕ} {b : Option Char} (hfuel : cs.length ≤ fuel)
    (h : ∀ matched, .matched matched ∉ tagTokenRe.piecesFrom unicode.isWord fuel b cs) : TokenFree unicode.isWord cs := by
  induction cs generalizing fuel b with
  | nil => exact tokenFree_nil
  | cons c rest ih =>
    obtain ⟨fuel, rfl⟩ : ∃ n, fuel = n + 1 := ⟨fuel - 1, by simp at hfuel; omega⟩
    by_cases hstart : StartsToken unicode.isWord (c :: rest)
    · obtain ⟨matched, b', rest', -, -, hpieces⟩ := piecesFrom_token fuel b hstart
      rw [hpieces] at h
      exact absurd List.mem_cons_self (h matched)
    · rw [piecesFrom_skip hstart] at h
      exact .cons hstart (ih (by simpa using hfuel) fun matched hmem => h matched (List.mem_cons_of_mem _ hmem))

/-- A character of a neutralised text next to the one in its place before. -/
def Defanged (c d : Char) : Prop := d = c ∨ (c = '<' ∧ d = '‹') ∨ (c = '>' ∧ d = '›')

theorem defanged_defang (c : Char) : Defanged c (defang c) := by
  rw [defang]
  split
  · rename_i hc
    exact .inr (.inl ⟨hc, rfl⟩)
  · split
    · rename_i hc
      exact .inr (.inr ⟨hc, rfl⟩)
    · exact .inl rfl

theorem defang_ne (c : Char) : defang c ≠ '<' := by
  rw [defang]
  split
  · decide
  · split
    · decide
    · assumption

/-- A part of a neutralised text without the new brackets is as it was. -/
theorem eq_of_defanged {part : List Char} (h : List.Forall₂ Defanged cs part) (hpart : ∀ d ∈ part, d ≠ '‹' ∧ d ≠ '›') :
    cs = part := by
  induction h with
  | nil => rfl
  | cons hd _ ih =>
    rcases hd with rfl | ⟨-, rfl⟩ | ⟨-, rfl⟩
    · rw [ih fun d hd => hpart d (List.mem_cons_of_mem _ hd)]
    · exact absurd rfl (hpart _ List.mem_cons_self).1
    · exact absurd rfl (hpart _ List.mem_cons_self).2

/-- The part of a token up to the end of its word has no bracket but the first. -/
theorem no_bracket_of_token {slash spaces word : List Char} (hslash : slash = [] ∨ slash = ['/'])
    (hspaces : ∀ c ∈ spaces, isSpace c)
    (hword : List.Forall₂ (fun letter c => tagLetter letter c = true) tagLetters word) {d : Char}
    (hd : d ∈ slash ++ (spaces ++ word)) : d ∉ ['<', '>', '‹', '›'] := by
  have hletters : ∀ bracket ∈ ['<', '>', '‹', '›'], ∀ letter ∈ tagLetters, tagLetter letter bracket = false := by
    intro bracket hbracket
    have hnone : tagLetters.all (fun letter => !tagLetter letter bracket) = true :=
      List.all_eq_true.mp (by decide : ['<', '>', '‹', '›'].all fun bracket =>
        tagLetters.all fun letter => !tagLetter letter bracket) bracket hbracket
    exact forall_of_all hnone
  have hblank : ∀ bracket ∈ ['<', '>', '‹', '›'], isSpace bracket = false := forall_of_all (by decide)
  intro hbracket
  rcases List.mem_append.mp hd with hd | hd
  · rcases hslash with rfl | rfl
    · cases hd
    · rw [List.mem_singleton.mp hd] at hbracket
      exact absurd hbracket (by decide)
  · rcases List.mem_append.mp hd with hd | hd
    · have hspace := hspaces d hd
      rw [hblank d hbracket] at hspace
      cases hspace
    · obtain ⟨i, hi, rfl⟩ := List.getElem_of_mem hd
      have hlength := hword.length_eq
      have hletter := hword.get (by omega) hi
      rw [List.get_eq_getElem, List.get_eq_getElem, hletters _ hbracket _ (List.getElem_mem _)] at hletter
      cases hletter

/-- A token of a neutralised text is one of the text before. -/
theorem StartsToken.of_defanged {out : List Char} (hout : List.Forall₂ Defanged cs out)
    (h : StartsToken unicode.isWord out) : StartsToken unicode.isWord cs := by
  obtain ⟨slash, spaces, word, rest, rfl, hslash, hspaces, hword, hrest⟩ := h
  cases hout with
  | @cons c _ cs₁ _ hc hcs =>
  obtain rfl : c = '<' := by
    rcases hc with rfl | ⟨-, hd⟩ | ⟨-, hd⟩
    · rfl
    · exact absurd hd (by decide)
    · exact absurd hd (by decide)
  have hassoc : slash ++ (spaces ++ (word ++ rest)) = (slash ++ (spaces ++ word)) ++ rest := by simp
  rw [hassoc] at hcs
  have hpart := eq_of_defanged (List.forall₂_take_append cs₁ _ _ hcs) fun d hd => by
    have hnot := no_bracket_of_token hslash hspaces hword hd
    simp only [List.mem_cons, List.not_mem_nil, or_false, not_or] at hnot
    exact hnot.2.2
  have hafter := List.forall₂_drop_append cs₁ _ _ hcs
  refine ⟨slash, spaces, word, cs₁.drop (slash ++ (spaces ++ word)).length, ?_, hslash, hspaces, hword, ?_⟩
  · have hsplit := List.take_append_drop (slash ++ (spaces ++ word)).length cs₁
    rw [hpart] at hsplit
    simp only [List.append_assoc] at hsplit ⊢
    rw [hsplit]
  · generalize cs₁.drop (slash ++ (spaces ++ word)).length = tail at hafter
    cases hafter with
    | nil => rfl
    | @cons c d _ _ hc _ =>
      have hbracket : ∀ bracket ∈ ['<', '>'], unicode.isWord bracket = false := by
        intro bracket hmem
        simp only [List.mem_cons, List.not_mem_nil, or_false] at hmem
        rcases hmem with rfl | rfl
        · rw [Unicode.isWord, unicode.ascii _ (by decide)]
          rfl
        · rw [Unicode.isWord, unicode.ascii _ (by decide)]
          rfl
      rcases hc with rfl | ⟨rfl, -⟩ | ⟨rfl, -⟩
      · exact hrest
      · exact hbracket _ (by decide)
      · exact hbracket _ (by decide)

/-- Neutralising changes brackets only, and leaves no token. -/
theorem pieces_defanged (fuel : ℕ) (b : Option Char) (hfuel : cs.length ≤ fuel) :
    List.Forall₂ Defanged cs ((tagTokenRe.piecesFrom unicode.isWord fuel b cs).flatMap (Re.Piece.replaced (·.map defang))) ∧
      TokenFree unicode.isWord
        ((tagTokenRe.piecesFrom unicode.isWord fuel b cs).flatMap (Re.Piece.replaced (·.map defang))) := by
  induction fuel generalizing b cs with
  | zero =>
    obtain rfl := List.length_eq_zero_iff.mp (Nat.le_zero.mp hfuel)
    exact ⟨.nil, tokenFree_nil⟩
  | succ fuel ih =>
    cases cs with
    | nil => exact ⟨.nil, tokenFree_nil⟩
    | cons c rest =>
      by_cases hstart : StartsToken unicode.isWord (c :: rest)
      · obtain ⟨matched, b', rest', hne, hsplit, hpieces⟩ := piecesFrom_token fuel b hstart
        have hlength := congrArg List.length hsplit
        have hpos := List.length_pos_of_ne_nil hne
        rw [List.length_append] at hlength
        obtain ⟨hdefanged, hfree⟩ := @ih rest' b' (by omega)
        rw [hpieces, hsplit]
        refine ⟨List.rel_append ?_ hdefanged, hfree.append ?_⟩
        · apply List.forall₂_map_right_iff.mpr
          exact List.forall₂_same.mpr fun c _ => defanged_defang c
        · intro d hd
          obtain ⟨c, -, rfl⟩ := List.mem_map.mp hd
          exact defang_ne c
      · obtain ⟨hdefanged, hfree⟩ := @ih rest (some c) (by simpa using hfuel)
        rw [piecesFrom_skip hstart]
        have hsame : List.Forall₂ Defanged (c :: rest) (c :: (tagTokenRe.piecesFrom unicode.isWord fuel (some c) rest).flatMap
            (Re.Piece.replaced (·.map defang))) := .cons (.inl rfl) hdefanged
        exact ⟨hsame, .cons (fun hout => hstart (hout.of_defanged hsame)) hfree⟩

/-- A text contains a delimiter token: the pattern is found in it. -/
def ContainsToken (unicode : Unicode) (text : String) : Prop := tagTokenRe.findall unicode.isWord text.toList ≠ []

/-- A neutralised text has no token. -/
theorem tokenFree_neutraliseDelimiters (unicode : Unicode) (text : String) :
    TokenFree unicode.isWord (neutraliseDelimiters unicode text).toList := by
  rw [neutraliseDelimiters, String.toList_ofList]
  exact (pieces_defanged _ none (Nat.le_refl _)).2

/-- A text without tokens is neutralised to itself. -/
theorem neutraliseDelimiters_of_tokenFree {text : String} (h : TokenFree unicode.isWord text.toList) :
    neutraliseDelimiters unicode text = text := by
  have hsame : (text.toList.map Re.Piece.skipped).flatMap (Re.Piece.replaced (·.map defang)) = text.toList := by
    induction text.toList with
    | nil => rfl
    | cons c rest ih => rw [List.map_cons, List.flatMap_cons, ih]; rfl
  rw [neutraliseDelimiters, Re.sub, Re.pieces, piecesFrom_tokenFree _ _ h, hsame, String.ofList_toList]

/-- A text contains no token exactly when none starts anywhere in it. -/
theorem not_containsToken_iff {text : String} : ¬ ContainsToken unicode text ↔ TokenFree unicode.isWord text.toList := by
  rw [ContainsToken, not_not, Re.findall, Re.pieces]
  constructor
  · intro h
    apply tokenFree_of_pieces (Nat.le_refl _)
    intro matched hmem
    have hnone := List.filterMap_eq_nil_iff.mp h _ hmem
    cases hnone
  · intro h
    rw [piecesFrom_tokenFree _ _ h]
    simp

end FleetWorkflow.Core
