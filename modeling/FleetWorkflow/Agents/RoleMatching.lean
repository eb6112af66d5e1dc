import FleetWorkflow.Agents.ReviewAccounts
import FleetWorkflow.Python.Binary64
import FleetWorkflow.Python.Normalization

/-!
# Role matching

How a profile is scored against the criteria of a role. Both are folded before they are compared: lower case, decomposed,
and without nonspacing marks. This makes one letter of three of the four Turkish ones, since a dotless capital is lowered to
a dotted letter; the dotless small letter stays apart, and a criterion that is written with it is not found where it stands
in capitals.
-/

namespace FleetWorkflow.Agents.HrAgent

open Python
open LegalReview (occursIn occursIn_iff)

/-! ## The code -/

/-- `CvProfile`. -/
structure CvProfile where
  fullName : String
  email : String
  phone : String
  education : List String
  experience : List String
  skills : List String

/-- `MatchResult`. -/
structure MatchResult where
  score : FloatValue
  matchedCriteria : List String
  missingCriteria : List String
  reasoning : String

/-- The text of a profile that the criteria are looked for in, before it is folded. -/
def CvProfile.candidateText (profile : CvProfile) : String :=
  String.intercalate " " profile.skills ++ " " ++ String.intercalate " " profile.experience ++ " " ++
    String.intercalate " " profile.education

/-- What the score is explained by. -/
def reasoningOf (criteria matched missing : List String) : String :=
  if matched ≠ [] ∧ missing ≠ [] then
    "Matches " ++ String.intercalate ", " matched ++ "; missing " ++ String.intercalate ", " missing ++ "."
  else if matched ≠ [] then "Matches all required criteria: " ++ String.intercalate ", " matched ++ "."
  else "Matches none of the required criteria: " ++ String.intercalate ", " criteria ++ "."

section Code

variable (db : CharacterDatabase) (profile : CvProfile) (criteria : List String)

/-- `_fold(text)`. -/
def fold (text : String) : String := String.ofList (db.bare (db.nfd (db.lower text.toList)))

/-- `matched`. -/
def matchedOf : List String := criteria.filter fun c => occursIn (fold db c) (fold db profile.candidateText)

/-- `missing`. -/
def missingOf : List String := criteria.filter fun c => !(matchedOf db profile criteria).contains c

/-- `score_role_match(profile, criteria=criteria)`. -/
def scoreRoleMatch : MatchResult :=
  if criteria = [] then ⟨.finite 0, [], [], "no criteria provided"⟩
  else
    { score := roundDouble ((matchedOf db profile criteria).length / criteria.length)
      matchedCriteria := matchedOf db profile criteria
      missingCriteria := missingOf db profile criteria
      reasoning := reasoningOf criteria (matchedOf db profile criteria) (missingOf db profile criteria) }

end Code

/-! ## Turkish letters -/

/-- The combining dot above. -/
def dotAbove : Char := Char.ofNat 0x307

/-- The small letters whose entries matter here, and the blank. -/
def plainCharacters : List Char := ['i', 'ı', 'σ', 'ς', ' ']

/-- A character database with the entries of the Turkish letters, the sigmas and the blank. -/
structure LetterDatabase extends CharacterDatabase where
  lower_capital : lowerMapping 'I' = ['i']
  lower_dotted : lowerMapping 'İ' = ['i', dotAbove]
  lower_plain : ∀ c ∈ plainCharacters, lowerMapping c = [c]
  plain : ∀ c ∈ plainCharacters, decomposition c = [c] ∧ combiningClass c = 0 ∧ isNonspacing c = false
  dot : decomposition dotAbove = [dotAbove] ∧ combiningClass dotAbove ≠ 0 ∧ isNonspacing dotAbove = true
  /-- Nothing else has a dotless letter or a final sigma in its lower case. -/
  origin : ∀ c, ∀ d ∈ (lowerMapping c).flatMap decomposition, d = 'ı' ∨ d = 'ς' → c = d

/-- Turkish lower case of a letter, where it is one; of a sigma there is only one. -/
def turkishLower (db : CharacterDatabase) (c : Char) : List Char :=
  if c = 'I' then ['ı'] else if c = 'İ' then ['i'] else if c = 'Σ' then ['σ'] else db.lowerMapping c

/-- The letter without its diacritic, which for the dotless letter is the dotted one. -/
def plainLetter (c : Char) : Char := if c = 'ı' then 'i' else if c = 'ς' then 'σ' else c

/-- The letters of a text, whatever their case and their diacritics. -/
def letters (db : CharacterDatabase) (cs : List Char) : List Char :=
  (db.bare (db.nfd (cs.flatMap (turkishLower db)))).map plainLetter

/-- A criterion occurs in a text up to Turkish letter case and diacritics. -/
def Occurs (db : CharacterDatabase) (criterion text : String) : Prop :=
  letters db criterion.toList <:+: letters db text.toList

/-- The entries of a profile that a criterion may occur in. -/
def CvProfile.entries (profile : CvProfile) : List String := profile.skills ++ profile.experience ++ profile.education

/-- The fraction of the criteria that are among the matched ones. -/
def matchedFraction (criteria matched : List String) : ℚ := (criteria.countP fun c => c ∈ matched) / criteria.length

/-- What scoring a profile has to do. -/
structure MatchesFaithfully (db : CharacterDatabase) (profile : CvProfile) (criteria : List String) (result : MatchResult) :
    Prop where
  partition : (result.matchedCriteria ++ result.missingCriteria).Perm criteria
  disjoint : ∀ c ∈ result.matchedCriteria, c ∉ result.missingCriteria
  score : result.score = roundDouble (matchedFraction criteria result.matchedCriteria)
  range : ∃ x, result.score = .finite x ∧ 0 ≤ x ∧ x ≤ 1
  finds : ∀ c ∈ criteria, ∀ entry ∈ profile.entries, Occurs db c entry → c ∈ result.matchedCriteria

/-- The letters that are one without diacritics and that the code tells apart. -/
def clashes : List (Char × Char) := [('ı', 'i'), ('i', 'ı'), ('ς', 'σ'), ('σ', 'ς')]

/-- A place of a folded text that has the letters of a criterion. -/
def PlaceOf (db : CharacterDatabase) (criterion text : String) (place : List Char) : Prop :=
  place <:+: (fold db text).toList ∧ place.map plainLetter = letters db criterion.toList

/-- Somewhere in a place, a dotless letter stands against a dotted one or a final sigma against another one. -/
def Clashing (db : CharacterDatabase) (criterion : String) (place : List Char) : Prop :=
  ∃ pair ∈ (fold db criterion).toList.zip place, pair ∈ clashes

/-- A criterion occurs in an entry of a profile, and clashes with every place of the profile that has its letters. -/
def OccursClashing (db : CharacterDatabase) (criterion : String) (profile : CvProfile) : Prop :=
  (∃ entry ∈ profile.entries, Occurs db criterion entry) ∧
    ∀ place, PlaceOf db criterion profile.candidateText place → Clashing db criterion place

/-! ## The letters of a text -/

section Letters

variable (db : LetterDatabase)

/-- The letters that are one have one class and are no marks. -/
theorem plainLetter_tables (c : Char) :
    db.combiningClass (plainLetter c) = db.combiningClass c ∧ db.isNonspacing (plainLetter c) = db.isNonspacing c := by
  have hplain {c d : Char} (hc : c ∈ plainCharacters) (hd : d ∈ plainCharacters) :
      db.combiningClass d = db.combiningClass c ∧ db.isNonspacing d = db.isNonspacing c := by
    rw [(db.plain c hc).2.1, (db.plain c hc).2.2, (db.plain d hd).2.1, (db.plain d hd).2.2]
    exact ⟨rfl, rfl⟩
  rw [plainLetter]
  split
  · rename_i hc
    subst hc
    exact hplain (by decide) (by decide)
  · split
    · rename_i hc
      subst hc
      exact hplain (by decide) (by decide)
    · exact ⟨rfl, rfl⟩

/-- The letters of a normal form are those of the decomposed letters without dots above, put in order. -/
theorem bare_nfd_map (cs : List Char) : (db.bare (db.nfd cs)).map plainLetter =
    db.bare (db.canonicalOrder (((cs.flatMap db.decomposition).map plainLetter).filter fun d => d ≠ dotAbove)) := by
  have hmarks (ds : List Char) : (db.bare ds).map plainLetter = db.bare (ds.map plainLetter) := by
    rw [CharacterDatabase.bare, CharacterDatabase.bare, List.filter_map]
    congr 2
    funext c
    simp only [Function.comp_apply, (plainLetter_tables db c).2]
  have hdots (ds : List Char) : db.bare (ds.filter fun d => d ≠ dotAbove) = db.bare ds := by
    rw [CharacterDatabase.bare, CharacterDatabase.bare, List.filter_filter]
    apply List.filter_congr
    intro d _
    by_cases hd : d = dotAbove
    · subst hd
      simp [db.dot.2.2]
    · simp [hd]
  rw [CharacterDatabase.canonicalOrder_filter, hdots, CharacterDatabase.canonicalOrder_map, hmarks, CharacterDatabase.nfd]
  · intro c
    exact (plainLetter_tables db c).1
  · intro c hc
    have hdot : c = dotAbove := by simpa using hc
    rw [hdot]
    exact db.dot.2.1

/-- The Turkish lower case of a letter and the other one differ in a dot above and in the letters that are one. -/
theorem letters_lowerAt (before : List Char) (c : Char) (after : List Char) :
    (((db.lowerAt before c after).flatMap db.decomposition).map plainLetter).filter (fun d => d ≠ dotAbove) =
      (((turkishLower db.toCharacterDatabase c).flatMap db.decomposition).map plainLetter).filter
        (fun d => d ≠ dotAbove) := by
  have hplain (d : Char) (h : d ∈ plainCharacters) : db.decomposition d = [d] := (db.plain d h).1
  have hdotted := hplain 'i' (by decide)
  have hdotless := hplain 'ı' (by decide)
  have hsigma := hplain 'σ' (by decide)
  have hfinal := hplain 'ς' (by decide)
  rw [CharacterDatabase.lowerAt, turkishLower]
  split
  · rename_i hc
    subst hc
    rw [CharacterDatabase.lowerSigma]
    split <;> simp +decide [hsigma, hfinal]
  · split
    · rename_i hc
      subst hc
      simp +decide [db.lower_capital, hdotted, hdotless]
    · split
      · rename_i hc
        subst hc
        simp +decide [db.lower_dotted, hdotted, db.dot.1]
      · rfl

/-- Lower case keeps the letters wherever the text stands. -/
theorem letters_lowerFrom (before cs : List Char) :
    (((db.lowerFrom before cs).flatMap db.decomposition).map plainLetter).filter (fun d => d ≠ dotAbove) =
      (((cs.flatMap (turkishLower db.toCharacterDatabase)).flatMap db.decomposition).map plainLetter).filter
        (fun d => d ≠ dotAbove) := by
  induction cs generalizing before with
  | nil => rfl
  | cons c cs ih =>
    rw [CharacterDatabase.lowerFrom, List.flatMap_cons]
    simp only [List.flatMap_append, List.map_append, List.filter_append]
    rw [ih, letters_lowerAt]

/-- The letters of a text are those of its folded form. -/
theorem letters_eq (text : String) :
    letters db.toCharacterDatabase text.toList = (fold db.toCharacterDatabase text).toList.map plainLetter := by
  rw [letters, fold, String.toList_ofList, bare_nfd_map, bare_nfd_map, CharacterDatabase.lower, letters_lowerFrom]

/-- The four Turkish letters of this kind. -/
def iLetters : List Char := ['I', 'ı', 'İ', 'i']

/-- Any of them may be written for any other one. -/
theorem letters_retyped {c d : Char} (hc : c ∈ iLetters) (hd : d ∈ iLetters) (before after : List Char) :
    letters db.toCharacterDatabase (before ++ c :: after) = letters db.toCharacterDatabase (before ++ d :: after) := by
  have hdotted : db.decomposition 'i' = ['i'] := (db.plain 'i' (by decide)).1
  have hdotless : db.decomposition 'ı' = ['ı'] := (db.plain 'ı' (by decide)).1
  have hone : ∀ e ∈ iLetters,
      ((turkishLower db.toCharacterDatabase e).flatMap db.decomposition).map plainLetter = ['i'] := by
    simp [iLetters, turkishLower, hdotted, hdotless, db.lower_plain 'i' (by decide), db.lower_plain 'ı' (by decide),
      plainLetter]
  rw [letters, letters, bare_nfd_map, bare_nfd_map]
  simp only [List.flatMap_append, List.flatMap_cons, List.map_append, hone c hc, hone d hd]

/-- The letters of texts with a blank between them. -/
theorem letters_blank (cs ds : List Char) : letters db.toCharacterDatabase (cs ++ ' ' :: ds) =
    letters db.toCharacterDatabase cs ++ ' ' :: letters db.toCharacterDatabase ds := by
  have hlower : turkishLower db.toCharacterDatabase ' ' = [' '] := db.lower_plain ' ' (by decide)
  obtain ⟨hself, hclass, hmark⟩ := db.plain ' ' (by decide)
  have hblank : plainLetter ' ' = ' ' := by decide
  rw [letters, List.flatMap_append, List.flatMap_cons, hlower, CharacterDatabase.nfd, List.flatMap_append,
    List.singleton_append, List.flatMap_cons, hself, List.singleton_append, CharacterDatabase.canonicalOrder_starter hclass,
    CharacterDatabase.bare, List.filter_append, List.filter_cons_of_pos (by simp [hmark]), List.map_append, List.map_cons,
    hblank]
  rfl

/-- The letters of a text are among those of the texts that it is joined with. -/
theorem letters_intercalate {text : String} {texts : List String} (h : text ∈ texts) :
    letters db.toCharacterDatabase text.toList <:+: letters db.toCharacterDatabase (String.intercalate " " texts).toList := by
  induction texts with
  | nil => cases h
  | cons first rest ih =>
    cases rest with
    | nil =>
      rw [List.mem_singleton.mp h, String.intercalate_singleton]
    | cons second rest =>
      have hblank : (" " : String).toList = [' '] := rfl
      rw [String.intercalate_cons_cons, String.toList_append, String.toList_append, hblank, List.append_assoc,
        List.singleton_append, letters_blank]
      rcases List.mem_cons.mp h with rfl | hrest
      · exact (List.prefix_append _ _).isInfix
      · exact (ih hrest).trans ((List.suffix_cons _ _).trans (List.suffix_append _ _)).isInfix

/-- The letters of an entry are among those of the text of the profile. -/
theorem letters_entry {profile : CvProfile} {entry : String} (h : entry ∈ profile.entries) :
    letters db.toCharacterDatabase entry.toList <:+: letters db.toCharacterDatabase profile.candidateText.toList := by
  have hblank : (" " : String).toList = [' '] := rfl
  rw [CvProfile.candidateText]
  simp only [String.toList_append, hblank, List.append_assoc, List.cons_append, List.nil_append, letters_blank db]
  rw [CvProfile.entries, List.mem_append, List.mem_append] at h
  rcases h with (h | h) | h
  · exact (letters_intercalate db h).trans (List.prefix_append _ _).isInfix
  · apply (letters_intercalate db h).trans
    exact (List.prefix_append _ _).isInfix.trans ((List.suffix_cons _ _).trans (List.suffix_append _ _)).isInfix
  · apply (letters_intercalate db h).trans
    exact ((List.suffix_cons _ _).trans (List.suffix_append _ _)).isInfix.trans
      ((List.suffix_cons _ _).trans (List.suffix_append _ _)).isInfix

end Letters

/-! ## Scoring -/

section Scoring

variable {db : CharacterDatabase} {profile : CvProfile} {criteria : List String} {criterion text : String}

/-- A criterion is matched when it is in the list and its folded form is found. -/
theorem mem_matchedOf : criterion ∈ matchedOf db profile criteria ↔
    criterion ∈ criteria ∧ (fold db criterion).toList <:+: (fold db profile.candidateText).toList := by
  rw [matchedOf, List.mem_filter, occursIn_iff]

/-- The missing criteria are those that are not found. -/
theorem missingOf_eq : missingOf db profile criteria =
    criteria.filter fun c => !occursIn (fold db c) (fold db profile.candidateText) := by
  have hfound (c : String) (hc : c ∈ criteria) :
      (matchedOf db profile criteria).contains c = occursIn (fold db c) (fold db profile.candidateText) := by
    rw [Bool.eq_iff_iff, List.contains_iff_mem, mem_matchedOf, occursIn_iff]
    exact and_iff_right hc
  rw [missingOf]
  apply List.filter_congr
  intro c hc
  rw [hfound c hc]

/-- The matched criteria are as many as the criteria that are among them. -/
theorem countP_matchedOf : criteria.countP (fun c => c ∈ matchedOf db profile criteria) =
    (matchedOf db profile criteria).length := by
  rw [matchedOf, ← List.countP_eq_length_filter]
  apply List.countP_congr
  intro c hc
  simp [hc]

/-- A fraction of a list is rounded to a number between zero and one. -/
theorem roundDouble_fraction {m n : ℕ} (h : m ≤ n) : ∃ x, roundDouble (m / n) = .finite x ∧ 0 ≤ x ∧ x ≤ 1 := by
  have hone : onGrid 1 = 1 := onGrid_of_onGrid ⟨1, 0, by norm_num, by norm_num, by norm_num⟩
  have hfraction : (m / n : ℚ) ≤ 1 := div_le_one_of_le₀ (by exact_mod_cast h) (by positivity)
  have hnonneg : 0 ≤ onGrid (m / n : ℚ) := onGrid_nonneg (by positivity)
  have hle : onGrid (m / n : ℚ) ≤ 1 := by
    rcases (by positivity : (0 : ℚ) ≤ m / n).eq_or_lt with hzero | hpos
    · exact (onGrid_nonpos hzero.ge).trans zero_le_one
    · exact (onGrid_mono hpos hfraction).trans hone.le
  have hlimit : ¬doubleLimit ≤ |onGrid (m / n : ℚ)| := by
    rw [abs_of_nonneg hnonneg, not_le]
    exact hle.trans_lt one_lt_doubleLimit
  exact ⟨onGrid (m / n), if_neg hlimit, hnonneg, hle⟩

/-- The matched criteria of a result. -/
theorem matchedCriteria_scoreRoleMatch :
    (scoreRoleMatch db profile criteria).matchedCriteria = matchedOf db profile criteria := by
  rw [scoreRoleMatch]
  split
  · rename_i hnil
    rw [hnil]
    rfl
  · rfl

/-- The missing criteria of a result. -/
theorem missingCriteria_scoreRoleMatch :
    (scoreRoleMatch db profile criteria).missingCriteria = missingOf db profile criteria := by
  rw [scoreRoleMatch]
  split
  · rename_i hnil
    rw [hnil]
    rfl
  · rfl

/-- The score of a result; the empty list has the score zero. -/
theorem score_scoreRoleMatch : (scoreRoleMatch db profile criteria).score =
    roundDouble ((matchedOf db profile criteria).length / criteria.length) := by
  rw [scoreRoleMatch]
  split
  · rename_i hnil
    have hzero : IsDouble 0 := ⟨⟨0, 0, by decide, by decide, by simp⟩, by simpa using zero_lt_one.trans one_lt_doubleLimit⟩
    rw [hnil, List.length_nil, Nat.cast_zero, div_zero, roundDouble_of_isDouble hzero]
  · rfl

/-- A result is faithful when its matches are. -/
theorem matchesFaithfully_of_finds
    (h : ∀ c ∈ criteria, ∀ entry ∈ profile.entries, Occurs db c entry → c ∈ matchedOf db profile criteria) :
    MatchesFaithfully db profile criteria (scoreRoleMatch db profile criteria) := by
  have hlength : (matchedOf db profile criteria).length ≤ criteria.length := List.length_filter_le _ _
  constructor
  · rw [matchedCriteria_scoreRoleMatch, missingCriteria_scoreRoleMatch, missingOf_eq]
    exact List.filter_append_perm _ _
  · rw [matchedCriteria_scoreRoleMatch, missingCriteria_scoreRoleMatch]
    intro c hmatched hmissing
    have hnot := (List.mem_filter.mp hmissing).2
    rw [List.contains_iff_mem.mpr hmatched] at hnot
    cases hnot
  · rw [score_scoreRoleMatch, matchedCriteria_scoreRoleMatch, matchedFraction, countP_matchedOf]
  · rw [score_scoreRoleMatch]
    exact roundDouble_fraction hlength
  · rw [matchedCriteria_scoreRoleMatch]
    exact h

end Scoring

/-! ## Clashes -/

section Clashes

variable {db : LetterDatabase} {profile : CvProfile} {criteria : List String} {criterion text : String}

/-- No letter clashes with itself. -/
theorem notMem_clashes (c : Char) : (c, c) ∉ clashes := by
  have hall : ∀ pair ∈ clashes, pair.1 ≠ pair.2 := by decide
  intro h
  exact hall _ h rfl

/-- What a letter is without its diacritic. -/
theorem plainLetter_cases (c : Char) : c = 'ı' ∧ plainLetter c = 'i' ∨ c = 'ς' ∧ plainLetter c = 'σ' ∨ plainLetter c = c := by
  rw [plainLetter]
  split
  · rename_i hc
    exact .inl ⟨hc, rfl⟩
  · split
    · rename_i hc
      exact .inr (.inl ⟨hc, rfl⟩)
    · exact .inr (.inr rfl)

/-- Letters that are one and do not clash are the same. -/
theorem eq_of_plainLetter {c d : Char} (h : plainLetter c = plainLetter d) (hclash : (c, d) ∉ clashes) : c = d := by
  rcases plainLetter_cases c with ⟨rfl, hc⟩ | ⟨rfl, hc⟩ | hc <;> rcases plainLetter_cases d with ⟨rfl, hd⟩ | ⟨rfl, hd⟩ | hd
  all_goals first | rfl | exact absurd h (by decide) | skip
  · rw [← hd, ← h] at hclash
    exact absurd (by decide) hclash
  · rw [← hd, ← h] at hclash
    exact absurd (by decide) hclash
  · rw [← hc, h] at hclash
    exact absurd (by decide) hclash
  · rw [← hc, h] at hclash
    exact absurd (by decide) hclash
  · rw [← hc, h, hd]

/-- Texts with the same letters and no clash are the same. -/
theorem eq_of_map_plainLetter {cs ds : List Char} (h : cs.map plainLetter = ds.map plainLetter)
    (hclash : ∀ pair ∈ cs.zip ds, pair ∉ clashes) : cs = ds := by
  induction cs generalizing ds with
  | nil => exact (List.map_eq_nil_iff.mp h.symm).symm
  | cons c cs ih =>
    cases ds with
    | nil => cases h
    | cons d ds =>
      rw [List.map_cons, List.map_cons, List.cons.injEq] at h
      rw [List.zip_cons_cons, List.forall_mem_cons] at hclash
      rw [eq_of_plainLetter h.1 hclash.1, ih h.2 hclash.2]

/-- A criterion that occurs in an entry has a place in the profile. -/
theorem exists_placeOf {entry : String} (hentry : entry ∈ profile.entries)
    (h : Occurs db.toCharacterDatabase criterion entry) :
    ∃ place, PlaceOf db.toCharacterDatabase criterion profile.candidateText place := by
  have hletters := h.trans (letters_entry db hentry)
  rw [letters_eq db profile.candidateText] at hletters
  obtain ⟨before, after, hparts⟩ := hletters
  obtain ⟨front, back, hfold, hfront, -⟩ := List.map_eq_append_iff.mp hparts.symm
  obtain ⟨start, place, rfl, -, hplace⟩ := List.map_eq_append_iff.mp hfront
  exact ⟨place, ⟨start, back, hfold.symm⟩, hplace⟩

/-- The code finds a criterion exactly when some place has its letters without a clash. -/
theorem infix_fold_iff : (fold db.toCharacterDatabase criterion).toList <:+: (fold db.toCharacterDatabase text).toList ↔
    ∃ place, PlaceOf db.toCharacterDatabase criterion text place ∧ ¬Clashing db.toCharacterDatabase criterion place := by
  constructor
  · intro h
    refine ⟨_, ⟨h, (letters_eq db criterion).symm⟩, ?_⟩
    rintro ⟨⟨c, d⟩, hpair, hclash⟩
    have hself := List.zip_map' (l := (fold db.toCharacterDatabase criterion).toList) (f := id) (g := id)
    rw [List.map_id] at hself
    rw [hself, List.mem_map] at hpair
    obtain ⟨e, -, he⟩ := hpair
    cases he
    exact notMem_clashes _ hclash
  · rintro ⟨place, ⟨hplace, hletters⟩, hclash⟩
    rw [letters_eq] at hletters
    rwa [eq_of_map_plainLetter hletters.symm fun pair hpair hmem => hclash ⟨pair, hpair, hmem⟩]

/-- A result is faithful exactly when no criterion occurs only where it clashes. -/
theorem matchesFaithfully_iff (db : LetterDatabase) (profile : CvProfile) (criteria : List String) :
    MatchesFaithfully db.toCharacterDatabase profile criteria (scoreRoleMatch db.toCharacterDatabase profile criteria) ↔
      ∀ criterion ∈ criteria, ¬OccursClashing db.toCharacterDatabase criterion profile := by
  constructor
  · rintro h criterion hcriterion ⟨⟨entry, hentry, hoccurs⟩, hclash⟩
    have hmatched := h.finds criterion hcriterion entry hentry hoccurs
    rw [matchedCriteria_scoreRoleMatch, mem_matchedOf, infix_fold_iff] at hmatched
    obtain ⟨-, place, hplace, hnot⟩ := hmatched
    exact hnot (hclash place hplace)
  · intro h
    apply matchesFaithfully_of_finds
    intro criterion hcriterion entry hentry hoccurs
    rw [mem_matchedOf, infix_fold_iff]
    refine ⟨hcriterion, ?_⟩
    by_contra hnone
    apply h criterion hcriterion
    refine ⟨⟨entry, hentry, hoccurs⟩, ?_⟩
    intro place hplace
    by_contra hclash
    exact hnone ⟨place, hplace, hclash⟩

/-- The letters that lower case or its absence sets apart: the dotless one and the sigmas but for the small one. -/
def apartLetters : List Char := ['ı', 'ς', 'Σ']

/-- A folded text has a dotless letter or a final sigma only if the text has one of the letters that are set apart. -/
theorem notMem_fold (h : ∀ c ∈ apartLetters, c ∉ text.toList) :
    'ı' ∉ (fold db.toCharacterDatabase text).toList ∧ 'ς' ∉ (fold db.toCharacterDatabase text).toList := by
  have hlower (before cs : List Char) (hsigma : 'Σ' ∉ cs) :
      ∀ d ∈ (db.lowerFrom before cs).flatMap db.decomposition, d = 'ı' ∨ d = 'ς' → d ∈ cs := by
    induction cs generalizing before with
    | nil => simp [CharacterDatabase.lowerFrom]
    | cons c cs ih =>
      rw [List.mem_cons, not_or] at hsigma
      rw [CharacterDatabase.lowerFrom, CharacterDatabase.lowerAt, if_neg (Ne.symm hsigma.1), List.flatMap_append]
      intro d hd hapart
      rcases List.mem_append.mp hd with hd | hd
      · rw [db.origin c d hd hapart]
        exact List.mem_cons_self
      · exact List.mem_cons_of_mem _ (ih _ hsigma.2 d hd hapart)
  have hfold (d : Char) (hd : d ∈ (fold db.toCharacterDatabase text).toList) : d = 'ı' ∨ d = 'ς' → d ∈ text.toList := by
    rw [fold, String.toList_ofList, CharacterDatabase.bare, List.mem_filter, CharacterDatabase.nfd,
      CharacterDatabase.canonicalOrder, List.mem_insertionSort] at hd
    exact hlower [] _ (h 'Σ' (by decide)) d hd.1
  exact ⟨fun hd => h 'ı' (by decide) (hfold _ hd (.inl rfl)), fun hd => h 'ς' (by decide) (hfold _ hd (.inr rfl))⟩

/-- A clash has a dotless letter or a final sigma on one of its sides. -/
theorem not_clashing {place : List Char} (hplace : place <:+: (fold db.toCharacterDatabase text).toList)
    (hcriterion : ∀ c ∈ apartLetters, c ∉ criterion.toList) (htext : ∀ c ∈ apartLetters, c ∉ text.toList) :
    ¬Clashing db.toCharacterDatabase criterion place := by
  rintro ⟨⟨c, d⟩, hpair, hclash⟩
  obtain ⟨hc, hd⟩ := List.of_mem_zip hpair
  have hd := hplace.subset hd
  have hleft := @notMem_fold db _ hcriterion
  have hright := @notMem_fold db _ htext
  rw [clashes] at hclash
  simp only [List.mem_cons, Prod.mk.injEq, List.not_mem_nil, or_false] at hclash
  rcases hclash with ⟨rfl, rfl⟩ | ⟨rfl, rfl⟩ | ⟨rfl, rfl⟩ | ⟨rfl, rfl⟩
  · exact hleft.1 hc
  · exact hright.1 hd
  · exact hleft.2 hc
  · exact hright.2 hd

/-- A character of joined texts is a blank or one of a text. -/
theorem mem_joined {c : Char} {texts : List String} (h : c ∈ (String.intercalate " " texts).toList) :
    c = ' ' ∨ ∃ text ∈ texts, c ∈ text.toList := by
  induction texts with
  | nil => simp at h
  | cons first rest ih =>
    cases rest with
    | nil =>
      rw [String.intercalate_singleton] at h
      exact .inr ⟨first, List.mem_cons_self, h⟩
    | cons second rest =>
      rw [String.intercalate_cons_cons, String.toList_append, String.toList_append, List.mem_append, List.mem_append] at h
      rcases h with (h | h) | h
      · exact .inr ⟨first, List.mem_cons_self, h⟩
      · exact .inl (List.mem_singleton.mp h)
      · rcases ih h with h | ⟨text, htext, h⟩
        · exact .inl h
        · exact .inr ⟨text, List.mem_cons_of_mem _ htext, h⟩

/-- A character of the text of a profile is a blank or one of an entry. -/
theorem mem_candidateText {c : Char} (h : c ∈ profile.candidateText.toList) :
    c = ' ' ∨ ∃ entry ∈ profile.entries, c ∈ entry.toList := by
  rw [CvProfile.entries]
  rw [CvProfile.candidateText] at h
  simp only [String.toList_append, List.mem_append] at h
  rcases h with (((h | h) | h) | h) | h
  · rcases mem_joined h with h | ⟨text, htext, h⟩
    · exact .inl h
    · exact .inr ⟨text, by simp [htext], h⟩
  · exact .inl (List.mem_singleton.mp h)
  · rcases mem_joined h with h | ⟨text, htext, h⟩
    · exact .inl h
    · exact .inr ⟨text, by simp [htext], h⟩
  · exact .inl (List.mem_singleton.mp h)
  · rcases mem_joined h with h | ⟨text, htext, h⟩
    · exact .inl h
    · exact .inr ⟨text, by simp [htext], h⟩

/-- Where no text has a dotless letter, a final sigma or a capital one, every criterion that occurs is matched. -/
theorem matchesFaithfully_of_plain (h : ∀ text ∈ criteria ++ profile.entries, ∀ c ∈ apartLetters, c ∉ text.toList) :
    MatchesFaithfully db.toCharacterDatabase profile criteria (scoreRoleMatch db.toCharacterDatabase profile criteria) := by
  have htext : ∀ c ∈ apartLetters, c ∉ profile.candidateText.toList := by
    intro c hc hmem
    rcases mem_candidateText hmem with rfl | ⟨entry, hentry, hmem⟩
    · exact absurd hc (by decide)
    · exact h entry (List.mem_append_right _ hentry) c hc hmem
  apply matchesFaithfully_of_finds
  intro criterion hcriterion entry hentry hoccurs
  obtain ⟨place, hplace⟩ := exists_placeOf hentry hoccurs
  rw [mem_matchedOf, infix_fold_iff]
  exact ⟨hcriterion, place, hplace, not_clashing hplace.1 (h criterion (List.mem_append_left _ hcriterion)) htext⟩

/-- A criterion with a dotless letter is missed wherever it stands in capitals: in a profile without one. -/
theorem missed_of_dotless (hcriterion : criterion ∈ criteria)
    (hdotless : 'ı' ∈ (fold db.toCharacterDatabase criterion).toList)
    (htext : 'ı' ∉ (fold db.toCharacterDatabase profile.candidateText).toList) :
    criterion ∈ (scoreRoleMatch db.toCharacterDatabase profile criteria).missingCriteria := by
  rw [missingCriteria_scoreRoleMatch, missingOf, List.mem_filter]
  refine ⟨hcriterion, ?_⟩
  rw [Bool.not_eq_true', Bool.eq_false_iff, ne_eq, List.contains_iff_mem, mem_matchedOf]
  rintro ⟨-, hfound⟩
  exact htext (hfound.subset hdotless)

end Clashes

/-! ## A criterion in capitals -/

/-- The small Turkish letters with a diacritic, their capitals, and what they are decomposed to. -/
def markedLetters : List (Char × Char × Char × Char × Char) :=
  [('ç', 'Ç', 'c', 'C', Char.ofNat 0x327), ('ş', 'Ş', 's', 'S', Char.ofNat 0x327), ('ğ', 'Ğ', 'g', 'G', Char.ofNat 0x306),
    ('ö', 'Ö', 'o', 'O', Char.ofNat 0x308), ('ü', 'Ü', 'u', 'U', Char.ofNat 0x308)]

/-- The lower case of English and Turkish letters. -/
def turkishLowerMapping (c : Char) : List Char :=
  if c = 'İ' then ['i', dotAbove]
  else match markedLetters.find? fun entry => entry.2.1 = c with
    | some entry => [entry.1]
    | none => [c.toLower]

/-- The decomposition of Turkish letters. -/
def turkishDecomposition (c : Char) : List Char :=
  if c = 'İ' then ['I', dotAbove]
  else match markedLetters.find? fun entry => entry.1 = c || entry.2.1 = c with
    | some (small, _, base, capitalBase, mark) => [if small = c then base else capitalBase, mark]
    | none => [c]

/-- The class of the marks of Turkish letters. -/
def turkishClass (c : Char) : ℕ := if c.toNat ∈ [0x306, 0x307, 0x308] then 230 else if c.toNat = 0x327 then 202 else 0

/-- A dotless letter and a final sigma are not in the lower case of another character. -/
theorem eq_of_mem_turkishLowerMapping {c d : Char} (h : d ∈ turkishLowerMapping c) (hd : d = 'ı' ∨ d = 'ς') : c = d := by
  have hsmall : ∀ entry ∈ markedLetters, entry.1 ≠ 'ı' ∧ entry.1 ≠ 'ς' := by decide
  rw [turkishLowerMapping] at h
  split at h
  · rcases hd with rfl | rfl <;> exact absurd h (by decide)
  · split at h
    · rename_i entry hentry
      have hboth := hsmall entry (List.mem_of_find?_eq_some hentry)
      rcases hd with rfl | rfl
      · exact absurd (List.mem_singleton.mp h).symm hboth.1
      · exact absurd (List.mem_singleton.mp h).symm hboth.2
    · rw [List.mem_singleton] at h
      by_cases hcode : c.toNat ≤ 'Z'.toNat
      · have hall : ∀ n ≤ 'Z'.toNat, (Char.ofNat n).toLower ≠ 'ı' ∧ (Char.ofNat n).toLower ≠ 'ς' := by decide
        have hlower := hall c.toNat hcode
        rw [Char.ofNat_toNat, ← h] at hlower
        exact absurd hd (not_or.mpr hlower)
      · delta Char.toLower at h
        rw [dif_neg fun hcapital => hcode hcapital.2] at h
        exact h.symm

/-- Nor are they in its decomposition. -/
theorem eq_of_mem_turkishDecomposition {c d : Char} (h : d ∈ turkishDecomposition c) (hd : d = 'ı' ∨ d = 'ς') : c = d := by
  have hparts : (markedLetters.all fun entry =>
      [entry.2.2.1, entry.2.2.2.1, entry.2.2.2.2].all fun part => !(part = 'ı' || part = 'ς')) = true := by decide
  rw [turkishDecomposition] at h
  split at h
  · rcases hd with rfl | rfl <;> exact absurd h (by decide)
  · split at h
    · rename_i small capital base capitalBase mark hentry
      have hpart : d ∈ [base, capitalBase, mark] := by
        rw [List.mem_cons, List.mem_singleton] at h
        rcases h with rfl | rfl
        · split <;> simp
        · simp
      have hneither := List.all_eq_true.mp (List.all_eq_true.mp hparts _ (List.mem_of_find?_eq_some hentry)) d hpart
      rw [Bool.not_eq_true', Bool.or_eq_false_iff, decide_eq_false_iff_not, decide_eq_false_iff_not] at hneither
      exact absurd hd (not_or.mpr hneither)
    · exact (List.mem_singleton.mp h).symm

/-- The entries of English and Turkish letters. -/
def turkishDatabase : LetterDatabase where
  lowerMapping := turkishLowerMapping
  isCased c := c.isAlpha || c = 'ı' || turkishDecomposition c ≠ [c]
  isCaseIgnorable c := turkishClass c ≠ 0
  decomposition := turkishDecomposition
  combiningClass := turkishClass
  isNonspacing c := turkishClass c ≠ 0
  lower_capital := by decide
  lower_dotted := by decide
  lower_plain := by
    have hall : (plainCharacters.all fun c => turkishLowerMapping c = [c]) = true := by decide
    intro c hc
    simpa using List.all_eq_true.mp hall c hc
  plain := by
    have hall : (plainCharacters.all fun c => turkishDecomposition c = [c] && turkishClass c = 0) = true := by decide
    intro c hc
    simpa using List.all_eq_true.mp hall c hc
  dot := by decide
  origin := by
    intro c d hd hapart
    obtain ⟨e, he, hd⟩ := List.mem_flatMap.mp hd
    have hsame : e = d := eq_of_mem_turkishDecomposition hd hapart
    rw [hsame] at he
    exact eq_of_mem_turkishLowerMapping he hapart

example : fold turkishDatabase.toCharacterDatabase "Makine Öğrenmesi İSTANBUL" = "makine ogrenmesi istanbul" := by decide +kernel

/-- The profile of someone whose skill is written in capitals. -/
def capitalProfile : CvProfile where
  fullName := "Ayse Yilmaz"
  email := "ayse@example.com"
  phone := "+90 555 111 2233"
  education := []
  experience := []
  skills := ["ISITMA"]

/-- The skill is not found by its name in small letters. -/
theorem capitals_missed : ¬MatchesFaithfully turkishDatabase.toCharacterDatabase capitalProfile ["ısıtma"]
    (scoreRoleMatch turkishDatabase.toCharacterDatabase capitalProfile ["ısıtma"]) := by
  intro h
  have hoccurs : letters turkishDatabase.toCharacterDatabase "ısıtma".toList <:+:
      letters turkishDatabase.toCharacterDatabase "ISITMA".toList := by decide
  have hmatched := h.finds "ısıtma" List.mem_cons_self "ISITMA" List.mem_cons_self hoccurs
  rw [matchedCriteria_scoreRoleMatch] at hmatched
  exact absurd hmatched (by decide)

end FleetWorkflow.Agents.HrAgent
