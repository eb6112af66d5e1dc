import FleetWorkflow.Agents.DealerOnboarding
import FleetWorkflow.Rag.Words

/-!
# Company names

How trade names are folded before they are compared, and what this makes of the legal forms that follow a name. A legal
form is dropped when it is left a word of its own. Dots are deleted and not replaced, so that two abbreviations with no
blank between them are read as one word, which is not in the list and stays.
-/

namespace FleetWorkflow.Agents.DealerOnboarding

open Python Rag

/-- The words that only say what kind of company it is. -/
def legalFormTokens : List String :=
  ["as", "a s", "anonim", "sirketi", "sirket", "ltd", "limited", "sti", "ticaret", "tic", "sanayi", "san", "ve", "co",
    "inc"]

/-- The translation of the Turkish letters. -/
def trFold (c : Char) : Char :=
  if c = 'ı' || c = 'İ' then 'i'
  else if c = 'ş' || c = 'Ş' then 's'
  else if c = 'ğ' || c = 'Ğ' then 'g'
  else if c = 'ü' || c = 'Ü' then 'u'
  else if c = 'ö' || c = 'Ö' then 'o'
  else if c = 'ç' || c = 'Ç' then 'c'
  else c

/-- What the folding asks of the character database. -/
structure Unicodedata where
  normalizeNfkd : String → String
  combining : Char → Bool

/-- The class that the names are reduced to. -/
def isNameChar (c : Char) : Bool := isAsciiLower c || isAsciiDigit c || isSpace c

/-- Every other character is replaced by a blank. -/
def blankOther (c : Char) : Char := if isNameChar c then c else ' '

/-- A word that tells companies apart. -/
def isDistinctive (word : String) : Bool := 1 < word.length && !legalFormTokens.contains word

section Folding

variable (py : Builtins) (database : Unicodedata)

/-- The folded text, before it is split. -/
def foldName (name : String) : String :=
  let lowered := py.lower (String.ofList (name.toList.map trFold))
  let bare := (database.normalizeNfkd lowered).toList.filter fun c => !database.combining c
  String.ofList ((bare.filter fun c => c ≠ '.').map blankOther)

/-- `normalize_company_name`. -/
def normalizeCompanyName (name : String) : String :=
  String.intercalate " " ((splitWords (foldName py database name)).filter isDistinctive)

end Folding

/-- What is known of lowering and of the compatibility decomposition: neither reaches across a blank, and on the ASCII
characters the one lowers the letters and the other changes nothing. -/
structure KnowsAscii (py : Builtins) (database : Unicodedata) : Prop where
  lower_blank : ∀ x y, py.lower (x ++ " " ++ y) = py.lower x ++ " " ++ py.lower y
  nfkd_blank : ∀ x y, database.normalizeNfkd (x ++ " " ++ y) = database.normalizeNfkd x ++ " " ++ database.normalizeNfkd y
  lower_ascii : ∀ text : String, (∀ c ∈ text.toList, c.toNat < 128) →
    py.lower text = String.ofList (text.toList.map Char.toLower)
  nfkd_ascii : ∀ text : String, (∀ c ∈ text.toList, c.toNat < 128) → database.normalizeNfkd text = text
  combining_ascii : ∀ c : Char, c.toNat < 128 → database.combining c = false

/-! ## Legal forms -/

/-- The letters of an abbreviation, folded and without the dots. -/
def foldedForm (text : String) : String :=
  String.ofList ((text.toList.map fun c => (trFold c).toLower).filter fun c => c ≠ '.')

/-- An abbreviation of a legal form, in any case and with any dots, and the blanks before it. -/
structure LegalForm where
  blanks : ℕ
  text : String
  isLegalForm : foldedForm text ∈ legalFormTokens

/-- The abbreviations as they are written one after the other. -/
def writtenOut (forms : List LegalForm) : String :=
  String.ofList (forms.flatMap fun form => List.replicate form.blanks ' ' ++ form.text.toList)

example : writtenOut [⟨0, "LTD.", by decide⟩, ⟨1, "ŞTİ.", by decide⟩] = "LTD. ŞTİ." := by decide

/-- No abbreviation follows another without a blank. -/
def Spaced (forms : List LegalForm) : Prop := ∀ form ∈ forms.tail, 0 < form.blanks

/-! ## Words that are dropped -/

/-- No word of a text tells companies apart. -/
def Plain (cs : List Char) : Prop := ∀ word ∈ splitWordsFrom [] cs, isDistinctive word = false

instance (cs : List Char) : Decidable (Plain cs) := inferInstanceAs (Decidable (∀ _ ∈ _, _))

/-- A blank separates the words. -/
theorem plain_blank (cs rest : List Char) : Plain (cs ++ ' ' :: rest) ↔ Plain cs ∧ Plain rest := by
  rw [Plain, splitWordsFrom_space (by decide), List.forall_mem_append]
  rfl

/-- Blanks have no words. -/
theorem plain_blanks (n : ℕ) (cs : List Char) : Plain (List.replicate n ' ' ++ cs) ↔ Plain cs := by
  have hspace : ∀ c ∈ List.replicate n ' ', isSpace c = true := by
    intro c hc
    rw [List.eq_of_mem_replicate hc]
    decide
  rw [Plain, splitWordsFrom_spaces hspace]
  rfl

/-- Every token is dropped. -/
theorem plain_token {token : String} (h : token ∈ legalFormTokens) : Plain token.toList := by
  have hall : ∀ token ∈ legalFormTokens, Plain token.toList := by decide
  exact hall token h

/-- The last words of the tokens. -/
def lastWords : List String := "s" :: legalFormTokens.erase "a s"

/-- The tokens that are one word each. -/
def oneWords : List String := legalFormTokens.erase "a s"

/-- No two tokens that are run together begin another one. -/
theorem joined_not_token : (lastWords.all fun word => oneWords.all fun other => legalFormTokens.all fun token =>
    !(word ++ other).toList.isPrefixOf token.toList) = true := by decide

/-- Two tokens that are run together leave a word. -/
theorem not_plain_joined {word token : String} (hword : word ∈ lastWords) (htoken : token ∈ legalFormTokens)
    (rest : List Char) : ¬ Plain (word.toList ++ (token.toList ++ rest)) := by
  intro hplain
  by_cases hspaced : token = "a s"
  · -- the two stray letters: the first of them ends the word
    have hcut : word.toList ++ (token.toList ++ rest) = (word.toList ++ ['a']) ++ ' ' :: ('s' :: rest) := by
      simp [hspaced]
    rw [hcut, plain_blank] at hplain
    have hall : ∀ word ∈ lastWords, ¬ Plain (word.toList ++ ['a']) := by decide
    exact hall word hword hplain.1
  · have hother : token ∈ oneWords := (List.mem_erase_of_ne hspaced).mpr htoken
    have hspaces : (lastWords.all fun word => word.toList.all fun c => !isSpace c) = true := by decide
    have hletters : ∀ word ∈ lastWords, ∀ c ∈ word.toList, isSpace c = false := by
      intro word hword
      exact forall_of_all (List.all_eq_true.mp hspaces word hword)
    have hothers : ∀ other ∈ oneWords, other ∈ lastWords := by decide
    have hnonempty : ∀ word ∈ lastWords, word.toList ≠ [] := by decide
    have hsplit := splitWordsFrom_append (hletters word hword) [] (token.toList ++ rest)
    rw [splitWordsFrom_append (hletters token (hothers token hother))] at hsplit
    have hbegun : token.toList.reverse ++ (word.toList.reverse ++ []) ≠ [] := by
      simpa using fun _ => hnonempty word hword
    obtain ⟨found, hfound, hbegins⟩ := exists_head_splitWordsFrom hbegun rest
    have hdropped := hplain found (hsplit ▸ hfound)
    simp only [List.append_nil, List.reverse_append, List.reverse_reverse] at hbegins
    simp only [isDistinctive, Bool.and_eq_false_iff, decide_eq_false_iff_not, Bool.not_eq_false',
      List.contains_iff_mem] at hdropped
    rcases hdropped with hshort | hlisted
    · -- the word is longer than one letter
      have hlength := hbegins.length_le
      have hfirst := List.length_pos_of_ne_nil (hnonempty word hword)
      have hsecond := List.length_pos_of_ne_nil (hnonempty token (hothers token hother))
      rw [List.length_append, String.length_toList] at hlength
      simp only [String.length_toList] at *
      omega
    · have hnone := List.all_eq_true.mp (List.all_eq_true.mp (List.all_eq_true.mp joined_not_token word hword) token
        hother) found hlisted
      rw [String.toList_append, List.isPrefixOf_iff_prefix.mpr hbegins] at hnone
      cases hnone

/-- The folded letters of abbreviations one after the other. -/
def foldedForms (forms : List LegalForm) : List Char :=
  forms.flatMap fun form => List.replicate form.blanks ' ' ++ (foldedForm form.text).toList

/-- What follows a token is dropped with it if it is spaced, and only then. -/
theorem plain_after {token : String} (htoken : token ∈ legalFormTokens) (forms : List LegalForm) :
    Plain (token.toList ++ foldedForms forms) ↔ ∀ form ∈ forms, 0 < form.blanks := by
  induction forms generalizing token with
  | nil => simp [foldedForms, plain_token htoken]
  | cons form forms ih =>
    have hcons : foldedForms (form :: forms) =
        List.replicate form.blanks ' ' ++ ((foldedForm form.text).toList ++ foldedForms forms) := by
      simp [foldedForms]
    rw [hcons, List.forall_mem_cons, ← ih form.isLegalForm]
    cases hblanks : form.blanks with
    | zero =>
      simp only [List.replicate_zero, List.nil_append, Nat.lt_irrefl, false_and, iff_false]
      intro hplain
      by_cases hspaced : token = "a s"
      · have hcut : token.toList ++ ((foldedForm form.text).toList ++ foldedForms forms) =
            ['a'] ++ ' ' :: ("s".toList ++ ((foldedForm form.text).toList ++ foldedForms forms)) := by
          simp [hspaced]
        rw [hcut, plain_blank] at hplain
        exact not_plain_joined (by decide) form.isLegalForm _ hplain.2
      · have hlast : token ∈ lastWords := List.mem_cons_of_mem "s" ((List.mem_erase_of_ne hspaced).mpr htoken)
        exact not_plain_joined hlast form.isLegalForm _ hplain
    | succ n =>
      rw [List.replicate_succ, List.cons_append, plain_blank, plain_blanks]
      simp [plain_token htoken]

/-- Abbreviations are dropped if and only if they are spaced. -/
theorem plain_foldedForms (forms : List LegalForm) : Plain (foldedForms forms) ↔ Spaced forms := by
  cases forms with
  | nil => simp [foldedForms, Spaced, Plain, splitWordsFrom]
  | cons form forms =>
    have hcons : foldedForms (form :: forms) =
        List.replicate form.blanks ' ' ++ ((foldedForm form.text).toList ++ foldedForms forms) := by
      simp [foldedForms]
    rw [hcons, plain_blanks, plain_after form.isLegalForm]
    rfl

/-! ## Folding -/

/-- A letter that is lowered to an ASCII character is one. -/
theorem ascii_of_toLower {c : Char} (h : c.toLower.toNat < 128) : c.toNat < 128 := by
  delta Char.toLower at h
  split at h
  · rename_i hupper
    have hbound : c.toNat ≤ 'Z'.toNat := hupper.2
    have hz : 'Z'.toNat = 90 := rfl
    omega
  · exact h

/-- An ASCII letter is lowered to one. -/
theorem toLower_ascii {c : Char} (h : c.toNat < 128) : c.toLower.toNat < 128 := by
  have hall : ∀ n < 128, (Char.ofNat n).toLower.toNat < 128 := by decide
  simpa using hall c.toNat h

/-- The translation leaves ASCII characters alone. -/
theorem trFold_ascii {c : Char} (h : c.toNat < 128) : trFold c = c := by
  have hne : ∀ d : Char, 128 ≤ d.toNat → c ≠ d := by
    rintro d hd rfl
    omega
  simp [trFold, hne 'ı' (by decide), hne 'İ' (by decide), hne 'ş' (by decide), hne 'Ş' (by decide),
    hne 'ğ' (by decide), hne 'Ğ' (by decide), hne 'ü' (by decide), hne 'Ü' (by decide), hne 'ö' (by decide),
    hne 'Ö' (by decide), hne 'ç' (by decide), hne 'Ç' (by decide)]

/-- The folded letters of abbreviations are ASCII letters and blanks. -/
theorem ascii_of_mem_foldedForms {forms : List LegalForm} {c : Char} (hc : c ∈ foldedForms forms) :
    c.toNat < 128 ∧ blankOther c = c := by
  have hall : (legalFormTokens.all fun token => token.toList.all fun c => c.toNat < 128 && blankOther c = c) = true := by
    decide
  have htokens : ∀ token ∈ legalFormTokens, ∀ c ∈ token.toList, c.toNat < 128 ∧ blankOther c = c := by
    intro token htoken c hc
    simpa using List.all_eq_true.mp (List.all_eq_true.mp hall token htoken) c hc
  obtain ⟨form, -, hletter⟩ := List.mem_flatMap.mp hc
  rcases List.mem_append.mp hletter with hblank | hletter
  · rw [List.eq_of_mem_replicate hblank]
    decide
  · exact htokens _ form.isLegalForm _ hletter

/-- The letters that names are reduced to. -/
theorem isNameChar_of_mem_foldName {py : Builtins} {database : Unicodedata} {name : String} {c : Char}
    (hc : c ∈ (foldName py database name).toList) : isNameChar c = true := by
  rw [foldName, String.toList_ofList] at hc
  obtain ⟨d, -, rfl⟩ := List.mem_map.mp hc
  rw [blankOther]
  split
  · assumption
  · decide

/-- Names that are folded already are made of these. -/
def IsFolded (c : Char) : Prop := c = ' ' ∨ isAsciiLower c = true ∨ isAsciiDigit c = true

/-- Folding leaves them alone. -/
theorem IsFolded.fixed {c : Char} (h : IsFolded c) :
    c.toNat < 128 ∧ c.toLower = c ∧ c ≠ '.' ∧ blankOther c = c := by
  have hbound : c.toNat < 128 := by
    rcases h with rfl | h | h
    · decide
    · have hletter : c.toNat ≤ 'z'.toNat := (of_decide_eq_true (Bool.and_eq_true_iff.mp h).2 : c ≤ 'z')
      have hz : 'z'.toNat = 122 := rfl
      omega
    · have hdigit : c.toNat ≤ '9'.toNat := (of_decide_eq_true (Bool.and_eq_true_iff.mp h).2 : c ≤ '9')
      have hnine : '9'.toNat = 57 := rfl
      omega
  have hall : ∀ n < 128, (Char.ofNat n = ' ' ∨ isAsciiLower (Char.ofNat n) = true ∨
      isAsciiDigit (Char.ofNat n) = true) → (Char.ofNat n).toLower = Char.ofNat n ∧ Char.ofNat n ≠ '.' ∧
      blankOther (Char.ofNat n) = Char.ofNat n := by decide
  have hfixed := hall c.toNat hbound
  rw [Char.ofNat_toNat] at hfixed
  exact ⟨hbound, hfixed h⟩

/-- The words by which companies are told apart. -/
def distinctiveWords (py : Builtins) (database : Unicodedata) (name : String) : List String :=
  (splitWords (foldName py database name)).filter isDistinctive

variable {py : Builtins} {database : Unicodedata}

/-- They are words. -/
theorem isWord_of_mem_distinctiveWords {name word : String} (h : word ∈ distinctiveWords py database name) :
    IsWord word := isWord_of_mem (List.mem_of_mem_filter h)

/-- The folded name tells which words it was made of. -/
theorem splitWords_normalizeCompanyName (name : String) :
    splitWords (normalizeCompanyName py database name) = distinctiveWords py database name :=
  splitWords_join fun _ h => isWord_of_mem_distinctiveWords h

/-- A folded name is made of lower-case letters, digits and blanks. -/
theorem isFolded_of_mem {name : String} {c : Char} (hc : c ∈ (normalizeCompanyName py database name).toList) :
    IsFolded c := by
  have hword : ∀ word ∈ distinctiveWords py database name, ∀ c ∈ word.toList, IsFolded c := by
    intro word hword c hc
    have hname := (mem_of_mem_splitWordsFrom (List.mem_of_mem_filter hword) c hc).resolve_left List.not_mem_nil
    have hclass := isNameChar_of_mem_foldName hname
    rw [isNameChar, (isWord_of_mem_distinctiveWords hword).2 c hc, Bool.or_false, Bool.or_eq_true] at hclass
    exact Or.inr hclass
  have hjoin : ∀ words : List String, (∀ word ∈ words, ∀ c ∈ word.toList, IsFolded c) →
      ∀ c ∈ (String.intercalate " " words).toList, IsFolded c := by
    intro words hwords
    induction words with
    | nil => simp
    | cons word words ih =>
      obtain ⟨hhead, htail⟩ := List.forall_mem_cons.mp hwords
      cases words with
      | nil => simpa using hhead
      | cons other words =>
        rw [String.intercalate_cons_cons, String.toList_append, String.toList_append, List.forall_mem_append,
          List.forall_mem_append]
        exact ⟨⟨hhead, by simp [IsFolded]⟩, ih htail⟩
  exact hjoin _ hword c hc

section Laws

variable (known : KnowsAscii py database)

include known

/-- Folding does not reach across a blank. -/
theorem foldName_blank (x y : String) :
    foldName py database (x ++ " " ++ y) = foldName py database x ++ " " ++ foldName py database y := by
  have htranslate : String.ofList ((x ++ " " ++ y).toList.map trFold) =
      String.ofList (x.toList.map trFold) ++ " " ++ String.ofList (y.toList.map trFold) := by
    simp [String.ext_iff, trFold]
  have hblank : database.combining ' ' = false := known.combining_ascii ' ' (by decide)
  rw [foldName, htranslate, known.lower_blank, known.nfkd_blank]
  simp [foldName, String.ext_iff, hblank, blankOther, isNameChar, isSpace]

/-- What is ASCII after the translation is folded letter by letter. -/
theorem foldName_ascii {text : String} (h : ∀ c ∈ text.toList, (trFold c).toNat < 128) :
    foldName py database text = String.ofList ((foldedForm text).toList.map blankOther) := by
  have hascii : ∀ c ∈ (String.ofList (text.toList.map trFold)).toList, c.toNat < 128 := by simpa using h
  have hlower : ∀ c ∈ (text.toList.map trFold).map Char.toLower, c.toNat < 128 := by
    simp only [List.mem_map, forall_exists_index, and_imp, forall_apply_eq_imp_iff₂]
    exact fun c hc => toLower_ascii (h c hc)
  have hkept : ((text.toList.map trFold).map Char.toLower).filter (fun c => !database.combining c) =
      (text.toList.map trFold).map Char.toLower := by
    apply List.filter_eq_self.mpr
    intro c hc
    simp [known.combining_ascii c (hlower c hc)]
  rw [foldName, known.lower_ascii _ hascii, String.toList_ofList, known.nfkd_ascii _ (by simpa using hlower)]
  simp only [String.toList_ofList, hkept]
  simp [foldedForm, List.map_map, Function.comp_def]

/-- Abbreviations are folded to what they stand for. -/
theorem foldName_writtenOut (forms : List LegalForm) :
    foldName py database (writtenOut forms) = String.ofList (foldedForms forms) := by
  have hfolded : (foldedForm (writtenOut forms)).toList = foldedForms forms := by
    simp [foldedForm, foldedForms, writtenOut, List.map_flatMap, List.filter_flatMap, trFold]
  have hascii : ∀ c ∈ (writtenOut forms).toList, (trFold c).toNat < 128 := by
    intro c hc
    apply ascii_of_toLower
    by_cases hdot : (trFold c).toLower = '.'
    · rw [hdot]
      decide
    · have hmem : (trFold c).toLower ∈ foldedForms forms := by
        rw [← hfolded, foldedForm, String.toList_ofList]
        exact List.mem_filter.mpr ⟨List.mem_map_of_mem hc, by simpa using hdot⟩
      exact (ascii_of_mem_foldedForms hmem).1
  rw [foldName_ascii known hascii, hfolded,
    List.map_congr_left fun c hc => (ascii_of_mem_foldedForms hc).2, List.map_id']

/-- A folded name is folded to itself. -/
theorem foldName_normalizeCompanyName (name : String) :
    foldName py database (normalizeCompanyName py database name) = normalizeCompanyName py database name := by
  have hfixed : ∀ c ∈ (normalizeCompanyName py database name).toList, _ := fun c hc => (isFolded_of_mem hc).fixed
  have htranslate : ∀ c ∈ (normalizeCompanyName py database name).toList, trFold c = c :=
    fun c hc => trFold_ascii (hfixed c hc).1
  have hform : foldedForm (normalizeCompanyName py database name) = normalizeCompanyName py database name := by
    rw [foldedForm, List.map_congr_left fun c hc => (congrArg Char.toLower (htranslate c hc)).trans (hfixed c hc).2.1,
      List.map_id', List.filter_eq_self.mpr fun c hc => by simpa using (hfixed c hc).2.2.1, String.ofList_toList]
  have hascii : ∀ c ∈ (normalizeCompanyName py database name).toList, (trFold c).toNat < 128 := by
    intro c hc
    rw [htranslate c hc]
    exact (hfixed c hc).1
  rw [foldName_ascii known hascii, hform, List.map_congr_left fun c hc => (hfixed c hc).2.2.2, List.map_id',
    String.ofList_toList]

/-- The words of a name and those of the abbreviations after it. -/
theorem distinctiveWords_blank (x y : String) :
    distinctiveWords py database (x ++ " " ++ y) =
      distinctiveWords py database x ++ distinctiveWords py database y := by
  have hsplit : splitWords (foldName py database x ++ " " ++ foldName py database y) =
      splitWords (foldName py database x) ++ splitWords (foldName py database y) := by
    rw [splitWords, String.toList_append, String.toList_append,
      splitWordsFrom_separated (by decide) (List.all_eq_true.mp (by decide))]
    rfl
  rw [distinctiveWords, foldName_blank known, hsplit, List.filter_append]
  rfl

/-- Abbreviations have no words by which companies are told apart if and only if they are spaced. -/
theorem distinctiveWords_writtenOut (forms : List LegalForm) :
    distinctiveWords py database (writtenOut forms) = [] ↔ Spaced forms := by
  rw [distinctiveWords, foldName_writtenOut known, List.filter_eq_nil_iff, ← plain_foldedForms, Plain, splitWords,
    String.toList_ofList]
  simp only [Bool.not_eq_true]

/-- Spaced abbreviations after a name change nothing. -/
theorem normalizeCompanyName_spaced (name : String) {forms : List LegalForm} (hspaced : Spaced forms) :
    normalizeCompanyName py database (name ++ " " ++ writtenOut forms) = normalizeCompanyName py database name := by
  have hwords := distinctiveWords_blank known name (writtenOut forms)
  rw [(distinctiveWords_writtenOut known forms).mpr hspaced, List.append_nil] at hwords
  exact congrArg (String.intercalate " ") hwords

/-- Abbreviations after a name change nothing if and only if each of them is written apart from the one before it, and a
folded name is folded to itself. -/
theorem legalForms_ignored_iff :
    (∀ (name : String) (forms : List LegalForm),
      normalizeCompanyName py database (name ++ " " ++ writtenOut forms) = normalizeCompanyName py database name ↔
        Spaced forms) ∧
    ∀ name : String, normalizeCompanyName py database (normalizeCompanyName py database name) =
      normalizeCompanyName py database name := by
  constructor
  · intro name forms
    constructor
    · intro h
      rw [← distinctiveWords_writtenOut known]
      have hwords := congrArg splitWords h
      rw [splitWords_normalizeCompanyName, splitWords_normalizeCompanyName, distinctiveWords_blank known] at hwords
      exact List.append_right_eq_self.mp hwords
    · exact normalizeCompanyName_spaced known name
  · intro name
    have hwords : distinctiveWords py database (normalizeCompanyName py database name) =
        distinctiveWords py database name := by
      rw [distinctiveWords, foldName_normalizeCompanyName known, splitWords_normalizeCompanyName]
      exact List.filter_eq_self.mpr fun _ h => (List.mem_filter.mp h).2
    exact congrArg (String.intercalate " ") hwords

/-- The cross-check finds the name on a certificate that only adds spaced legal forms to be that of the application. -/
theorem namesDiffer_legalForms {reading : Reading}
    (hreading : reading.normalizeCompanyName = normalizeCompanyName py database) (name : String)
    {forms : List LegalForm} (hspaced : Spaced forms) :
    namesDiffer reading (.str (name ++ " " ++ writtenOut forms)) (some name) = .ok false := by
  have hsame : reading.normalizeCompanyName (name ++ " " ++ writtenOut forms) = reading.normalizeCompanyName name := by
    rw [hreading, normalizeCompanyName_spaced known name hspaced]
  rw [namesDiffer]
  split
  · rfl
  · simp [hsame]

end Laws

/-! ## Two abbreviations that are run together -/

/-- Lowering and decomposition on ASCII characters. -/
def asciiLowering : Builtins where
  repr _ := ""
  lower text := String.ofList (text.toList.map Char.toLower)
  float _ := .error ⟨.valueError, ""⟩
  int _ := .error ⟨.valueError, ""⟩

/-- Texts that are decomposed already. -/
def decomposed : Unicodedata := ⟨id, fun _ => false⟩

theorem decomposed_knowsAscii : KnowsAscii asciiLowering decomposed where
  lower_blank x y := by simp [asciiLowering, String.ext_iff]
  nfkd_blank _ _ := rfl
  lower_ascii _ _ := rfl
  nfkd_ascii _ _ := rfl
  combining_ascii _ _ := rfl

/-- The limited company. -/
def ltdSti (blanks : ℕ) : List LegalForm := [⟨0, "LTD.", by decide⟩, ⟨blanks, "ŞTİ.", by decide⟩]

theorem legalForms_ignored_iff_spaced :
    normalizeCompanyName asciiLowering decomposed ("Yılmaz" ++ " " ++ writtenOut (ltdSti 1)) =
      normalizeCompanyName asciiLowering decomposed "Yılmaz" :=
  ((legalForms_ignored_iff decomposed_knowsAscii).1 "Yılmaz" (ltdSti 1)).mpr
    (List.forall_mem_singleton.mpr Nat.one_pos)

/-- The two words are read as one, which is kept. -/
theorem runTogether_not_ignored :
    ¬ ∀ (name : String) (forms : List LegalForm),
      normalizeCompanyName asciiLowering decomposed (name ++ " " ++ writtenOut forms) =
        normalizeCompanyName asciiLowering decomposed name := by
  intro h
  have hwritten : writtenOut (ltdSti 0) = "LTD.ŞTİ." := by decide
  have hkept : normalizeCompanyName asciiLowering decomposed "Yılmaz LTD.ŞTİ." = "yilmaz ltdsti" := by decide
  have hbare : normalizeCompanyName asciiLowering decomposed "Yılmaz" = "yilmaz" := by decide
  have hsame := h "Yılmaz" (ltdSti 0)
  have htext : "Yılmaz" ++ " " ++ "LTD.ŞTİ." = "Yılmaz LTD.ŞTİ." := by decide
  rw [hwritten, htext, hkept, hbare] at hsame
  exact absurd hsame (by decide)

end FleetWorkflow.Agents.DealerOnboarding
