import FleetWorkflow.Flow.Hyphenation
import FleetWorkflow.Recipes.Schema
import FleetWorkflow.Web.JsValue

/-!
# Slugs

The builder turns what is typed as a name into a slug: lower case, Turkish letters without their marks, one hyphen for
every run of anything else, no hyphen at either end, and at most 64 characters. The cut comes last. Where it falls right
behind a hyphen, the slug ends with that hyphen, which neither the builder nor the API takes, and which goes when the
slug is typed again.
-/

namespace FleetWorkflow.Web

open Python Flow Recipes

/-! ## The slug of a text -/

/-- `toLowerCase` on code units; it leaves the lower-case letters of ASCII, its digits and its hyphen alone. -/
structure CaseMapping where
  toLowerCase : List ℕ → List ℕ
  toLowerCase_slug : ∀ units, (∀ u ∈ units, (97 ≤ u ∧ u ≤ 122) ∨ (48 ≤ u ∧ u ≤ 57) ∨ u = 45) → toLowerCase units = units

/-- The class `[a-z0-9]`. -/
def isSlugUnit (u : ℕ) : Bool := (97 ≤ u && u ≤ 122) || (48 ≤ u && u ≤ 57)

/-- The hyphen. -/
def hyphen : ℕ := 45

/-- The six replacements of Turkish letters. -/
def foldTurkish (u : ℕ) : ℕ :=
  if u = 0x131 || u = 0x130 then 105
  else if u = 0x15F then 115
  else if u = 0x11F then 103
  else if u = 0xFC then 117
  else if u = 0xF6 then 111
  else if u = 0xE7 then 99
  else u

/-- The code units of a typed text before anything is replaced by a hyphen. -/
def foldedUnits (mapping : CaseMapping) (value : List ℕ) : List ℕ := (mapping.toLowerCase value).map foldTurkish

/-- `slugify(value)`. -/
def slugify (mapping : CaseMapping) (value : List ℕ) : List ℕ :=
  (trimSeparator hyphen (collapse isSlugUnit hyphen false (foldedUnits mapping value))).take 64

/-- `RECIPE_NAME_RE.test(name)`. -/
def matchesRecipeName (name : List ℕ) : Bool :=
  3 ≤ name.length && name.length ≤ 64 && name.head?.any isSlugUnit && name.getLast?.any isSlugUnit &&
    name.all fun u => isSlugUnit u || u = hyphen

/-- A slug is a name to the builder and to the API. -/
def IsName (slug : List ℕ) : Prop :=
  matchesRecipeName slug = true ∧ ∃ text : String, utf16 text.toList = slug ∧ matchRecipeName text = true

/-- What the builder wants of a typed text: its slug is the slug of itself, and a name if it is long enough. -/
def SlugIsSound (mapping : CaseMapping) (value : List ℕ) : Prop :=
  slugify mapping (slugify mapping value) = slugify mapping value ∧
    (3 ≤ (slugify mapping value).length → IsName (slugify mapping value))

/-- The words of a typed text. -/
def slugWords (mapping : CaseMapping) (value : List ℕ) : List (List ℕ) := words isSlugUnit (foldedUnits mapping value)

/-- The first words of a text, but not all of them, take 63 characters with single hyphens between them. -/
def CutBehindHyphen (mapping : CaseMapping) (value : List ℕ) : Prop :=
  ∃ before after, slugWords mapping value = before ++ after ∧ before ≠ [] ∧ after ≠ [] ∧
    (joined hyphen before).length = 63

variable {mapping : CaseMapping} {value : List ℕ} {ws : List (List ℕ)}

/-- A slug is the words of the text, joined and cut. -/
theorem slugify_eq : slugify mapping value = (joined hyphen (slugWords mapping value)).take 64 := by
  rw [slugify, trimSeparator_collapse (by decide)]
  rfl

/-- The characters of slugs are left alone. -/
theorem foldedUnits_slug {units : List ℕ} (h : ∀ u ∈ units, isSlugUnit u = true ∨ u = hyphen) :
    foldedUnits mapping units = units := by
  have hrange : ∀ u ∈ units, (97 ≤ u ∧ u ≤ 122) ∨ (48 ≤ u ∧ u ≤ 57) ∨ u = 45 := by
    intro u hu
    have hclass := h u hu
    simp only [isSlugUnit, hyphen, Bool.or_eq_true, Bool.and_eq_true, decide_eq_true_eq] at hclass
    omega
  have hfold : ∀ u ∈ units, foldTurkish u = id u := by
    intro u hu
    have hu := hrange u hu
    simp only [foldTurkish, Bool.or_eq_true, decide_eq_true_eq, id]
    split_ifs <;> omega
  rw [foldedUnits, mapping.toLowerCase_slug units hrange, List.map_congr_left hfold, List.map_id]

/-- The slug of joined words, with or without a hyphen behind them, is the words that fit. -/
theorem slugify_joined (hws : ∀ word ∈ ws, IsPlain isSlugUnit word) {tail : List ℕ} (htail : tail = [] ∨ tail = [hyphen]) :
    slugify mapping (joined hyphen ws ++ tail) = (joined hyphen ws).take 64 := by
  have hfolded : foldedUnits mapping (joined hyphen ws ++ tail) = joined hyphen ws ++ tail := by
    apply foldedUnits_slug
    intro u hu
    rcases List.mem_append.mp hu with hu | hu
    · exact mem_joined hws hu
    · rcases htail with rfl | rfl
      · cases hu
      · exact .inr (List.mem_singleton.mp hu)
  rw [slugify_eq, slugWords, hfolded, words_joined (by decide) hws htail]

/-- The character of a unit of a slug. -/
theorem ofNat_slugUnit {u : ℕ} (h : isSlugUnit u = true ∨ u = hyphen) :
    utf16Char (Char.ofNat u) = [u] ∧ (isAsciiLower (Char.ofNat u) || isAsciiDigit (Char.ofNat u)) = isSlugUnit u ∧
      (Char.ofNat u = '-' ↔ u = hyphen) := by
  have hall : ∀ u < 128, isSlugUnit u = true ∨ u = hyphen →
      utf16Char (Char.ofNat u) = [u] ∧ (isAsciiLower (Char.ofNat u) || isAsciiDigit (Char.ofNat u)) = isSlugUnit u ∧
        (Char.ofNat u = '-' ↔ u = hyphen) := by decide
  apply hall u _ h
  simp only [isSlugUnit, hyphen, Bool.or_eq_true, Bool.and_eq_true, decide_eq_true_eq] at h
  omega

/-- Joined words that are neither too short nor too long are a name. -/
theorem isName_joined (hws : ∀ word ∈ ws, IsPlain isSlugUnit word) (hmin : 3 ≤ (joined hyphen ws).length)
    (hmax : (joined hyphen ws).length ≤ 64) : IsName (joined hyphen ws) := by
  have hne : ws ≠ [] := by
    intro hnil
    rw [hnil, joined_nil] at hmin
    exact absurd hmin (by decide)
  obtain ⟨first, rest, hhead, hfirst⟩ := @joined_head _ _ hyphen _ hws hne
  obtain ⟨front, last, hlast, hlastGood⟩ := @joined_getLast _ _ hyphen _ hws hne
  have hclass : ∀ u ∈ joined hyphen ws, isSlugUnit u = true ∨ u = hyphen := fun u hu => mem_joined hws hu
  constructor
  · have hheadClass : (joined hyphen ws).head?.any isSlugUnit = true := by
      rw [hhead]
      simpa using hfirst
    have hlastClass : (joined hyphen ws).getLast?.any isSlugUnit = true := by
      rw [hlast]
      simpa using hlastGood
    have hall : (joined hyphen ws).all (fun u => isSlugUnit u || u = hyphen) = true := by
      rw [List.all_eq_true]
      intro u hu
      simpa using hclass u hu
    simp [matchesRecipeName, hmin, hmax, hheadClass, hlastClass, hall]
  · have hunits : ((joined hyphen ws).map Char.ofNat).flatMap utf16Char = joined hyphen ws := by
      rw [List.flatMap_map, List.flatMap_congr fun u hu => (ofNat_slugUnit (hclass u hu)).1, List.flatMap_singleton']
    refine ⟨String.ofList ((joined hyphen ws).map Char.ofNat), by rw [String.toList_ofList]; exact hunits, ?_⟩
    have hheadClass : ((joined hyphen ws).map Char.ofNat).head?.any (fun c => isAsciiLower c || isAsciiDigit c) = true := by
      rw [hhead]
      simpa using (ofNat_slugUnit (.inl hfirst)).2.1.trans hfirst
    have hlastChar := (ofNat_slugUnit (.inl hlastGood)).2.1.trans hlastGood
    have hlastClass : ((joined hyphen ws).map Char.ofNat).getLast?.any (fun c => isAsciiLower c || isAsciiDigit c) = true := by
      rw [hlast]
      simpa using hlastChar
    have hend : dropFinalNewline ((joined hyphen ws).map Char.ofNat) = (joined hyphen ws).map Char.ofNat := by
      rw [dropFinalNewline, if_neg]
      rw [hlast, List.map_append, List.map_singleton, List.getLast?_concat, Option.some_inj]
      intro hnewline
      rw [hnewline] at hlastChar
      exact absurd hlastChar (by decide)
    have hall : ((joined hyphen ws).map Char.ofNat).all
        (fun c => (isAsciiLower c || isAsciiDigit c) || c = '-') = true := by
      rw [List.all_eq_true]
      intro c hc
      obtain ⟨u, hu, rfl⟩ := List.mem_map.mp hc
      have hunit := ofNat_slugUnit (hclass u hu)
      rw [hunit.2.1, Bool.or_eq_true, decide_eq_true_eq, hunit.2.2]
      exact hclass u hu
    simp only [matchRecipeName, String.toList_ofList, hend, hheadClass, hlastClass, hall, List.length_map, hmin, hmax,
      decide_true, Bool.and_self]

/-- Where the cut is not behind a hyphen, the slug is joined words. -/
theorem exists_joined (hcut : ¬CutBehindHyphen mapping value) :
    ∃ ws, (∀ word ∈ ws, IsPlain isSlugUnit word) ∧ slugify mapping value = joined hyphen ws := by
  have hwords : ∀ word ∈ slugWords mapping value, IsPlain isSlugUnit word := fun word hword => isPlain_of_mem_words hword
  rcases @take_joined _ _ hyphen _ hwords 64 with hjoined | ⟨before, after, hsplit, hbefore, hafter, hlength⟩
  · obtain ⟨ws, hws, hjoined⟩ := hjoined
    exact ⟨ws, hws, slugify_eq.trans hjoined⟩
  · exact absurd ⟨before, after, hsplit, hbefore, hafter, by omega⟩ hcut

/-- Where it is, the slug has a hyphen behind the words, and the slug of the slug does not. -/
theorem slugify_slugify_ne (hcut : CutBehindHyphen mapping value) :
    slugify mapping (slugify mapping value) ≠ slugify mapping value := by
  obtain ⟨before, after, hsplit, hbefore, hafter, hlength⟩ := hcut
  have hwords : ∀ word ∈ before, IsPlain isSlugUnit word := by
    intro word hword
    have hmem : word ∈ slugWords mapping value := by
      rw [hsplit]
      exact List.mem_append_left _ hword
    exact isPlain_of_mem_words hmem
  have hslug : slugify mapping value = joined hyphen before ++ [hyphen] := by
    rw [slugify_eq, hsplit, joined_append hbefore hafter, List.append_cons]
    exact List.take_left' (by simp [hlength])
  intro heq
  have hlengths := congrArg List.length heq
  rw [hslug, slugify_joined hwords (.inr rfl), List.length_take, List.length_append, hlength] at hlengths
  exact absurd hlengths (by decide)

/-- A typed text has a sound slug exactly when the cut at 64 characters is not right behind a hyphen. -/
theorem slugIsSound_iff (mapping : CaseMapping) (value : List ℕ) :
    SlugIsSound mapping value ↔ ¬CutBehindHyphen mapping value := by
  constructor
  · intro hsound hcut
    exact slugify_slugify_ne hcut hsound.1
  · intro hcut
    obtain ⟨ws, hws, hslug⟩ := exists_joined hcut
    have hmax : (joined hyphen ws).length ≤ 64 := by
      rw [← hslug, slugify_eq, List.length_take]
      exact Nat.min_le_left _ _
    have hself : slugify mapping (joined hyphen ws) = joined hyphen ws := by
      have htake := @slugify_joined mapping _ hws [] (.inl rfl)
      rwa [List.append_nil, List.take_of_length_le hmax] at htake
    rw [SlugIsSound, hslug]
    exact ⟨hself, fun hmin => isName_joined hws hmin hmax⟩

/-- The lower case of ASCII. -/
def asciiLowerCase : CaseMapping where
  toLowerCase units := units.map fun u => if 65 ≤ u && u ≤ 90 then u + 32 else u
  toLowerCase_slug units h := by
    have hself : ∀ u ∈ units, (if 65 ≤ u && u ≤ 90 then u + 32 else u) = id u := by
      intro u hu
      have hrange := h u hu
      rw [if_neg (by simp; omega), id]
    rw [List.map_congr_left hself, List.map_id]

/-- The slug of 63 letters, a space and another letter ends with a hyphen. -/
theorem longName_unsound : ¬SlugIsSound asciiLowerCase (List.replicate 63 97 ++ [32, 98]) := by
  intro h
  exact absurd h.1 (by decide)

/-- Turkish letters lose their marks, and other runs become one hyphen. -/
example : slugify asciiLowerCase (utf16 " Haftalık  rapor! ".toList) = utf16 "haftalik-rapor".toList := by decide +kernel

end FleetWorkflow.Web
