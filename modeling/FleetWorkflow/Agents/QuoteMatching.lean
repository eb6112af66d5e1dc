import Mathlib.Logic.Relation
import FleetWorkflow.Agents.ReviewAccounts
import FleetWorkflow.Rag.Packing

/-!
# Quotes that are retyped

A quote of a contract is accepted however it is spaced, and however its letters are cased or stripped of their diacritics the
Turkish way: what is compared has its letters folded and its whitespace collapsed, and both go along with taking a piece.
-/

namespace FleetWorkflow.Agents.LegalReview

open Python Rag

/-! ## Words joined by spaces -/

/-- Words with spaces between them. -/
def joinWords (words : List String) : List Char := (String.intercalate " " words).toList

/-- One word. -/
theorem joinWords_singleton (word : String) : joinWords [word] = word.toList := by simp [joinWords]

/-- A word before others. -/
theorem joinWords_cons_cons (word other : String) (words : List String) :
    joinWords (word :: other :: words) = word.toList ++ ' ' :: joinWords (other :: words) := by
  rw [joinWords, String.intercalate_cons_cons, String.toList_append, String.toList_append, joinWords, List.append_assoc]
  rfl

/-- The first word comes first. -/
theorem prefix_joinWords (word : String) (words : List String) : word.toList <+: joinWords (word :: words) := by
  cases words with
  | nil => rw [joinWords_singleton]
  | cons other words =>
    rw [joinWords_cons_cons]
    exact List.prefix_append _ _

/-- The other words come last. -/
theorem suffix_joinWords (word : String) (words : List String) : joinWords words <:+ joinWords (word :: words) := by
  cases words with
  | nil => exact List.nil_suffix
  | cons other words =>
    rw [joinWords_cons_cons, ← List.singleton_append (x := ' '), ← List.append_assoc]
    exact List.suffix_append _ _

/-- The same word before words that come first. -/
theorem joinWords_cons_left (word : String) {words more : List String} (hwords : ∀ word ∈ words, word ≠ "")
    (h : joinWords words <+: joinWords more) : joinWords (word :: words) <+: joinWords (word :: more) := by
  cases words with
  | nil =>
    rw [joinWords_singleton]
    exact prefix_joinWords word more
  | cons other words =>
    cases more with
    | nil =>
      have hempty : other.toList = [] := List.prefix_nil.mp ((prefix_joinWords other words).trans h)
      exact absurd (String.toList_eq_nil_iff.mp hempty) (hwords other List.mem_cons_self)
    | cons another more =>
      rw [joinWords_cons_cons, joinWords_cons_cons]
      exact (List.prefix_append_right_inj _).mpr ((List.cons_prefix_cons).mpr ⟨rfl, h⟩)

/-- Ends of a word before the same words. -/
theorem joinWords_cons_right {word other : String} (h : word.toList <:+ other.toList) (words : List String) :
    joinWords (word :: words) <:+ joinWords (other :: words) := by
  obtain ⟨start, hstart⟩ := h
  cases words with
  | nil =>
    rw [joinWords_singleton, joinWords_singleton]
    exact ⟨start, hstart⟩
  | cons another words =>
    rw [joinWords_cons_cons, joinWords_cons_cons, ← hstart, List.append_assoc]
    exact List.suffix_append _ _

/-- What has begun comes first. -/
theorem prefix_splitWordsFrom (begun cs : List Char) : begun.reverse <+: joinWords (splitWordsFrom begun cs) := by
  induction cs generalizing begun with
  | nil =>
    rw [splitWordsFrom]
    split
    · rename_i hnil
      rw [hnil]
      exact List.nil_prefix
    · rw [joinWords_singleton, String.toList_ofList]
  | cons c cs ih =>
    rw [splitWordsFrom]
    split
    · split
      · rename_i hnil
        rw [hnil]
        exact List.nil_prefix
      · have hfirst := prefix_joinWords (String.ofList begun.reverse) (splitWordsFrom [] cs)
        rwa [String.toList_ofList] at hfirst
    · have hlonger := ih (c :: begun)
      rw [List.reverse_cons] at hlonger
      exact (List.prefix_append _ _).trans hlonger

/-- The words of the start of a text come first. -/
theorem prefix_joinWords_append (begun cs rest : List Char) :
    joinWords (splitWordsFrom begun cs) <+: joinWords (splitWordsFrom begun (cs ++ rest)) := by
  induction cs generalizing begun with
  | nil =>
    have hbegun := prefix_splitWordsFrom begun rest
    rw [splitWordsFrom, List.nil_append]
    split
    · exact List.nil_prefix
    · rwa [joinWords_singleton, String.toList_ofList]
  | cons c cs ih =>
    rw [List.cons_append, splitWordsFrom, splitWordsFrom]
    split
    · split
      · exact ih []
      · exact joinWords_cons_left _ (fun word hword => (isWord_of_mem_splitWordsFrom (List.forall_mem_nil _) hword).1) (ih [])
    · exact ih (c :: begun)

/-- What has begun earlier only adds to the first word. -/
theorem joinWords_begun_suffix (begun earlier cs : List Char) :
    joinWords (splitWordsFrom begun cs) <:+ joinWords (splitWordsFrom (begun ++ earlier) cs) := by
  induction cs generalizing begun with
  | nil =>
    rw [splitWordsFrom, splitWordsFrom]
    split
    · exact List.nil_suffix
    · rename_i hne
      rw [if_neg (fun hnil => hne (List.append_eq_nil_iff.mp hnil).1)]
      apply joinWords_cons_right
      rw [String.toList_ofList, String.toList_ofList, List.reverse_append]
      exact List.suffix_append _ _
  | cons c cs ih =>
    rw [splitWordsFrom, splitWordsFrom]
    split
    · split
      · split
        · exact List.suffix_rfl
        · exact suffix_joinWords _ _
      · rename_i hne
        rw [if_neg (fun hnil => hne (List.append_eq_nil_iff.mp hnil).1)]
        apply joinWords_cons_right
        rw [String.toList_ofList, String.toList_ofList, List.reverse_append]
        exact List.suffix_append _ _
    · exact ih (c :: begun)

/-- The words of the end of a text come last. -/
theorem suffix_joinWords_append (begun cs rest : List Char) :
    joinWords (splitWordsFrom [] rest) <:+ joinWords (splitWordsFrom begun (cs ++ rest)) := by
  induction cs generalizing begun with
  | nil => exact joinWords_begun_suffix [] begun rest
  | cons c cs ih =>
    rw [List.cons_append, splitWordsFrom]
    split
    · split
      · exact ih []
      · exact (ih []).trans (suffix_joinWords _ _)
    · exact ih (c :: begun)

/-- The words of a piece are a piece of the words. -/
theorem joinWords_infix (before cs after : List Char) :
    joinWords (splitWordsFrom [] cs) <:+: joinWords (splitWordsFrom [] (before ++ cs ++ after)) := by
  have hend := suffix_joinWords_append [] before (cs ++ after)
  rw [← List.append_assoc] at hend
  exact (prefix_joinWords_append [] cs after).isInfix.trans hend.isInfix

/-! ## Folded letters -/

/-- The characters of a text, folded the Turkish way and then by the database. -/
def foldedChars (cs : List Char) : List Char := casefoldChars (cs.map foldTurkish)

/-- Folding goes part by part. -/
theorem foldedChars_append (cs ds : List Char) : foldedChars (cs ++ ds) = foldedChars cs ++ foldedChars ds := by
  simp [foldedChars, casefoldChars]

/-- The Turkish fold keeps what is space and what is not. -/
theorem isSpace_foldTurkish (c : Char) : isSpace (foldTurkish c) = isSpace c := by
  unfold foldTurkish
  split
  all_goals first | decide | rfl

/-- Space is folded to itself. -/
theorem foldedChars_space {cs : List Char} (h : ∀ c ∈ cs, isSpace c = true) : foldedChars cs = cs := by
  have hfold : ∀ c, isSpace c = true → foldTurkish c = c := by
    intro c
    unfold foldTurkish
    split
    all_goals first | decide | exact fun _ => rfl
  induction cs with
  | nil => rfl
  | cons c cs ih =>
    obtain ⟨hc, hcs⟩ := List.forall_mem_cons.mp h
    rw [← List.singleton_append, foldedChars_append, ih hcs, foldedChars, List.map_singleton, hfold c hc, casefoldChars,
      List.flatMap_singleton, casefoldChar_space hc]

/-- A character that is no space is folded to some that are none. -/
theorem foldedChars_word {c : Char} (h : isSpace c = false) :
    foldedChars [c] ≠ [] ∧ ∀ d ∈ foldedChars [c], isSpace d = false := by
  rw [foldedChars, List.map_singleton, casefoldChars, List.flatMap_singleton]
  exact casefoldChar_word ((isSpace_foldTurkish c).trans h)

/-- The code points of the letters that the Turkish fold changes. -/
def changedCodes : List ℕ := [0x131, 0x130, 0x49, 0x15F, 0x15E, 0x11F, 0x11E, 0xFC, 0xDC, 0xF6, 0xD6, 0xE7, 0xC7]

/-- The Turkish fold leaves all other characters as they are. -/
theorem foldTurkish_eq_self {c : Char} : foldTurkish c = c ↔ changedCodes.contains c.toNat = false := by
  constructor
  · intro hself
    by_contra hmem
    have hall : (changedCodes.all fun n => foldTurkish (Char.ofNat n) ≠ Char.ofNat n) = true := by decide
    have hchanged := List.all_eq_true.mp hall c.toNat (by simpa using hmem)
    rw [Char.ofNat_toNat, hself] at hchanged
    simp at hchanged
  · unfold foldTurkish
    split
    all_goals first | decide | exact fun _ => rfl

/-- What the Turkish fold leaves as it is has a folded form that it leaves as it is. -/
theorem foldTurkish_of_mem {c : Char} (hc : foldTurkish c = c) : ∀ d ∈ casefoldChar c, foldTurkish d = d := by
  have hself := foldTurkish_eq_self.mp hc
  -- Most characters are beyond the changed ones, which is tested first.
  have hall := @casefoldChar_of_all
    (fun n text => (text.all fun d => 0x15F < d.toNat || !changedCodes.contains d.toNat) || changedCodes.contains n)
    (by decide +kernel) c (by rw [List.all_cons, hself, Bool.not_false, Bool.or_true, List.all_nil]; rfl)
  rw [hself, Bool.or_false, List.all_eq_true] at hall
  intro d hd
  rw [foldTurkish_eq_self]
  by_contra hmem
  have hsmall : ∀ n ∈ changedCodes, ¬ 0x15F < n := by decide
  have hbeyond := hall d hd
  rw [Bool.not_eq_false] at hmem
  simp only [hmem, Bool.not_true, Bool.or_false, decide_eq_true_eq] at hbeyond
  exact hsmall _ (List.contains_iff_mem.mp hmem) hbeyond

/-- Apart from the dotted capital, the Turkish fold may come after that of the database. -/
theorem casefoldChar_foldTurkish {c : Char} (hc : c ≠ 'İ') :
    casefoldChar (foldTurkish c) = (casefoldChar c).map foldTurkish := by
  by_cases hself : foldTurkish c = c
  · rw [hself, List.map_congr_left (foldTurkish_of_mem hself), List.map_id']
  · revert hc hself
    unfold foldTurkish
    split
    all_goals first | decide | exact fun _ hself => absurd rfl hself

/-- Texts that the database does not tell apart are not told apart, when they have no dotted capital. -/
theorem foldedChars_eq {cs : List Char} (h : 'İ' ∉ cs) : foldedChars cs = (casefoldChars cs).map foldTurkish := by
  induction cs with
  | nil => rfl
  | cons c cs ih =>
    rw [List.mem_cons, not_or] at h
    have hfirst := casefoldChar_foldTurkish (Ne.symm h.1)
    rw [foldedChars, casefoldChars] at ih
    rw [foldedChars, casefoldChars, List.map_cons, List.flatMap_cons, hfirst, ih h.2, ← List.map_append]
    rfl

/-! ## The compared form -/

/-- Only the empty text has an empty folded form. -/
theorem casefoldChars_eq_nil {cs : List Char} : casefoldChars cs = [] ↔ cs = [] := by
  have hne (c : Char) : casefoldChar c ≠ [] := by
    cases hspace : isSpace c with
    | true => simp [casefoldChar_space hspace]
    | false => exact (casefoldChar_word hspace).1
  cases cs with
  | nil => simp [casefoldChars]
  | cons c cs => simp [casefoldChars, hne c]

/-- The words of a folded text are the folded words of the text. -/
theorem splitWordsFrom_casefoldChars (begun cs : List Char) :
    splitWordsFrom (casefoldChars begun.reverse).reverse (casefoldChars cs) = (splitWordsFrom begun cs).map casefold := by
  have hbegun (xs : List Char) : (casefoldChars xs.reverse).reverse = [] ↔ xs = [] := by
    rw [List.reverse_eq_nil_iff, casefoldChars_eq_nil, List.reverse_eq_nil_iff]
  induction cs generalizing begun with
  | nil =>
    have hempty : casefoldChars [] = [] := rfl
    rw [hempty, splitWordsFrom, splitWordsFrom]
    by_cases hnil : begun = []
    · rw [if_pos hnil, if_pos ((hbegun begun).mpr hnil), List.map_nil]
    · rw [if_neg hnil, if_neg (fun h => hnil ((hbegun begun).mp h)), List.reverse_reverse, List.map_singleton, casefold,
        String.toList_ofList]
  | cons c cs ih =>
    have hcons : casefoldChars (c :: cs) = casefoldChar c ++ casefoldChars cs := List.flatMap_cons
    rw [hcons, splitWordsFrom.eq_2 begun]
    cases hspace : isSpace c with
    | true =>
      have hstart := ih []
      rw [List.reverse_nil, casefoldChars, List.flatMap_nil, List.reverse_nil] at hstart
      rw [casefoldChar_space hspace, List.singleton_append, splitWordsFrom, if_pos hspace, if_pos rfl]
      by_cases hnil : begun = []
      · rw [if_pos hnil, if_pos ((hbegun begun).mpr hnil)]
        exact hstart
      · rw [if_neg hnil, if_neg (fun h => hnil ((hbegun begun).mp h)), List.reverse_reverse, List.map_cons, casefold,
          String.toList_ofList]
        exact congrArg _ hstart
    | false =>
      have hlonger := ih (c :: begun)
      rw [List.reverse_cons, casefoldChars, List.flatMap_append, List.flatMap_singleton, List.reverse_append] at hlonger
      rw [splitWordsFrom_append (casefoldChar_word hspace).2, if_neg Bool.false_ne_true]
      exact hlonger

/-- Folded words with spaces between them. -/
theorem casefold_intercalate (words : List String) :
    casefold (String.intercalate " " words) = String.ofList (joinWords (words.map casefold)) := by
  have hjoin : casefoldChars (joinWords words) = joinWords (words.map casefold) := by
    induction words with
    | nil => rfl
    | cons word words ih =>
      cases words with
      | nil => rw [List.map_singleton, joinWords_singleton, joinWords_singleton, casefold, String.toList_ofList]
      | cons other words =>
        rw [List.map_cons, List.map_cons, joinWords_cons_cons, joinWords_cons_cons, ← List.map_cons, ← ih, casefold,
          String.toList_ofList, casefoldChars, casefoldChars, List.flatMap_append, List.flatMap_cons,
          casefoldChar_space (c := ' ') (by decide)]
        rfl
  rw [casefold, ← hjoin, joinWords]

/-- The compared form of a text: its folded characters with their whitespace collapsed. -/
theorem normalizeForMatch_eq (text : String) :
    normalizeForMatch text = String.ofList (joinWords (splitWordsFrom [] (foldedChars text.toList))) := by
  have hwords := splitWordsFrom_casefoldChars [] (text.toList.map foldTurkish)
  have hempty : (casefoldChars [].reverse).reverse = [] := rfl
  rw [hempty] at hwords
  rw [normalizeForMatch, casefold_intercalate, splitWords, String.toList_ofList, foldedChars, hwords]

/-! ## Retyping -/

/-- The letters of Turkish that the database does not pair, or pairs otherwise, in lower and in upper case. -/
def turkishCases : List (Char × Char) :=
  [('ı', 'I'), ('i', 'İ'), ('ş', 'Ş'), ('ğ', 'Ğ'), ('ü', 'Ü'), ('ö', 'Ö'), ('ç', 'Ç')]

/-- The letters of Turkish with a diacritic, and without it. -/
def turkishDiacritics : List (Char × Char) :=
  [('ı', 'i'), ('İ', 'I'), ('ş', 's'), ('Ş', 'S'), ('ğ', 'g'), ('Ğ', 'G'), ('ü', 'u'), ('Ü', 'U'), ('ö', 'o'), ('Ö', 'O'),
    ('ç', 'c'), ('Ç', 'C')]

/-- What is typed in the place of a part of a text: letters that the database folds alike, without the dotted capital,
the other case of a Turkish letter, a letter without its diacritic, or other whitespace. -/
inductive Replaces : List Char → List Char → Prop where
  | recased {cs ds : List Char} (hcs : 'İ' ∉ cs) (hds : 'İ' ∉ ds) (h : casefoldChars cs = casefoldChars ds) : Replaces cs ds
  | lowered {c d : Char} (h : (d, c) ∈ turkishCases) : Replaces [c] [d]
  | raised {c d : Char} (h : (c, d) ∈ turkishCases) : Replaces [c] [d]
  | plain {c d : Char} (h : (c, d) ∈ turkishDiacritics) : Replaces [c] [d]
  | spaced {cs ds : List Char} (hcs : cs ≠ []) (hds : ds ≠ []) (hspace : ∀ c ∈ cs ++ ds, isSpace c = true) : Replaces cs ds

/-- One change of a text, anywhere in it. -/
inductive Retypes : List Char → List Char → Prop where
  | change (before after : List Char) {cs ds : List Char} (h : Replaces cs ds) :
      Retypes (before ++ cs ++ after) (before ++ ds ++ after)

/-- Turkish letters that are paired are folded alike. -/
theorem foldedChars_turkish {c d : Char} (h : (c, d) ∈ turkishCases ++ turkishDiacritics) : foldedChars [c] = foldedChars [d] := by
  have hall : ((turkishCases ++ turkishDiacritics).all fun pair => foldedChars [pair.1] = foldedChars [pair.2]) = true := by
    decide
  simpa using List.all_eq_true.mp hall _ h

/-- A change leaves the words of the folded text as they are. -/
theorem Retypes.splitWordsFrom_eq {cs ds : List Char} (h : Retypes cs ds) :
    splitWordsFrom [] (foldedChars cs) = splitWordsFrom [] (foldedChars ds) := by
  obtain ⟨before, after, h⟩ := h
  have hsame {xs ys : List Char} (heq : foldedChars xs = foldedChars ys) :
      splitWordsFrom [] (foldedChars (before ++ xs ++ after)) = splitWordsFrom [] (foldedChars (before ++ ys ++ after)) := by
    simp only [foldedChars_append, heq]
  cases h with
  | recased hcs hds heq => exact hsame (by rw [foldedChars_eq hcs, foldedChars_eq hds, heq])
  | lowered hpair => exact hsame (foldedChars_turkish (List.mem_append_left _ hpair)).symm
  | raised hpair => exact hsame (foldedChars_turkish (List.mem_append_left _ hpair))
  | plain hpair => exact hsame (foldedChars_turkish (List.mem_append_right _ hpair))
  | spaced hxs hys hspace =>
    have hxspace : ∀ c ∈ _, isSpace c = true := fun c hc => hspace c (List.mem_append_left _ hc)
    have hyspace : ∀ c ∈ _, isSpace c = true := fun c hc => hspace c (List.mem_append_right _ hc)
    simp only [foldedChars_append]
    rw [foldedChars_space hxspace, foldedChars_space hyspace, splitWordsFrom_separated hxs hxspace,
      splitWordsFrom_separated hys hyspace]

/-- Any number of changes does. -/
theorem splitWordsFrom_of_retypes {cs ds : List Char} (h : Relation.ReflTransGen Retypes cs ds) :
    splitWordsFrom [] (foldedChars cs) = splitWordsFrom [] (foldedChars ds) := by
  induction h with
  | refl => rfl
  | tail _ hlast ih => exact ih.trans hlast.splitWordsFrom_eq

/-- A piece that is not blank has a word. -/
theorem joinWords_ne_nil {cs : List Char} (h : ∃ c ∈ cs, isSpace c = false) :
    joinWords (splitWordsFrom [] (foldedChars cs)) ≠ [] := by
  obtain ⟨c, hc, hspace⟩ := h
  obtain ⟨before, after, rfl⟩ := List.append_of_mem hc
  obtain ⟨hne, hword⟩ := foldedChars_word hspace
  have hletter : joinWords (splitWordsFrom [] (foldedChars [c])) = foldedChars [c] := by
    have hsplit := splitWordsFrom_append hword [] []
    rw [List.append_nil, List.append_nil] at hsplit
    rw [hsplit, splitWordsFrom, if_neg (by simpa using hne), joinWords_singleton, String.toList_ofList, List.reverse_reverse]
  have hpiece := joinWords_infix (foldedChars before) (foldedChars [c]) (foldedChars after)
  rw [hletter, ← foldedChars_append, ← foldedChars_append, List.append_assoc, List.singleton_append] at hpiece
  intro hnil
  rw [hnil] at hpiece
  exact hne (List.infix_nil.mp hpiece)

/-- A text whose stripped form is empty has no word. -/
theorem joinWords_of_strip {text : String} (h : strip text = "") : joinWords (splitWordsFrom [] (foldedChars text.toList)) = [] := by
  obtain ⟨front, back, hparts, hfront, hback⟩ := exists_stripped text.toList
  have hstripped : stripChars text.toList = [] := by simpa [strip] using h
  have hspace : ∀ c ∈ text.toList, isSpace c = true := by
    intro c hc
    rw [hparts, hstripped, List.append_nil] at hc
    exact (List.mem_append.mp hc).elim (hfront c) (hback c)
  have hwords := splitWordsFrom_spaces hspace []
  rw [List.append_nil] at hwords
  rw [foldedChars_space hspace, hwords]
  rfl

end FleetWorkflow.Agents.LegalReview
