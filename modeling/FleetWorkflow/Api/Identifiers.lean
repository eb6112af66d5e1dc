import Mathlib.Data.List.TakeDrop
import Mathlib.Data.List.TakeWhile
import FleetWorkflow.Agents.Tools
import FleetWorkflow.Python.Text
import FleetWorkflow.Recipes.Schema

/-!
# Identifiers

The texts that become webhook paths, node names and mail headers: names of recipes, identifiers of steps and addresses
of recipients. Each validator accepts its language, and besides it every word of the language with a line break behind
it, since the pattern ends with an anchor that does not insist on the end of the text.
-/

namespace FleetWorkflow.Api

open Python Recipes Agents

/-- A lower-case letter or a digit. -/
def isAlnum (c : Char) : Bool := isAsciiLower c || isAsciiDigit c

/-- A kebab-case slug of 3 to 64 characters. -/
structure IsSlug (word : List Char) : Prop where
  least : 3 ≤ word.length
  most : word.length ≤ 64
  characters : ∀ c ∈ word, isAlnum c = true ∨ c = '-'
  first : ∀ c ∈ word.head?, isAlnum c = true
  last : ∀ c ∈ word.getLast?, isAlnum c = true

/-- An identifier of 1 to 64 lower-case letters, digits and underscores. -/
structure IsStepId (word : List Char) : Prop where
  least : 1 ≤ word.length
  most : word.length ≤ 64
  characters : ∀ c ∈ word, isAlnum c = true ∨ c = '_'

/-- An address with one `@`, a local part, no whitespace, and a domain of a list. -/
def IsAddress (allowedDomains : List String) (word : List Char) : Prop :=
  (∀ c ∈ word, isSpace c = false) ∧ ∃ localPart domain, word = localPart ++ '@' :: domain ∧ '@' ∉ localPart ∧
    '@' ∉ domain ∧ localPart ≠ [] ∧ String.ofList domain ∈ allowedDomains

/-- A text is a word with a line break behind it. -/
def IsBroken (isWord : List Char → Prop) (cs : List Char) : Prop := ∃ word, isWord word ∧ cs = word ++ ['\n']

/-! ## Names and identifiers -/

/-- The pattern of names, up to its end anchor. -/
theorem validName_iff {value : String} : validName value = .ok () ↔ IsSlug (dropFinalNewline value.toList) := by
  have hmatch : matchRecipeName value = true ↔ IsSlug (dropFinalNewline value.toList) := by
    have hend : ∀ c? : Option Char, c?.any isAlnum = true ↔ c?.isSome = true ∧ ∀ c ∈ c?, isAlnum c = true := by
      intro c?
      cases c? <;> simp
    simp only [matchRecipeName, Bool.and_eq_true, decide_eq_true_eq, List.all_eq_true]
    constructor
    · intro h
      obtain ⟨⟨⟨⟨hleast, hmost⟩, hfirst⟩, hlast⟩, hcharacters⟩ := h
      exact ⟨hleast, hmost, fun c hc => by simpa [isAlnum] using hcharacters c hc, ((hend _).mp hfirst).2,
        ((hend _).mp hlast).2⟩
    · intro h
      have hne : dropFinalNewline value.toList ≠ [] := fun hnil => by
        have hleast := h.least
        rw [hnil] at hleast
        exact absurd hleast (by decide)
      refine ⟨⟨⟨⟨h.least, h.most⟩, (hend _).mpr ⟨by simpa using hne, h.first⟩⟩,
        (hend _).mpr ⟨by simpa using hne, h.last⟩⟩, fun c hc => by simpa [isAlnum] using h.characters c hc⟩
  rw [validName, ← hmatch]
  split
  · rename_i h
    exact iff_of_true rfl h
  · rename_i h
    exact iff_of_false (fun hok => by cases hok) h

/-- The pattern of identifiers, up to its end anchor. -/
theorem validId_iff {value : String} : validId value = .ok () ↔ IsStepId (dropFinalNewline value.toList) := by
  have hmatch : matchStepId value = true ↔ IsStepId (dropFinalNewline value.toList) := by
    simp only [matchStepId, Bool.and_eq_true, decide_eq_true_eq, List.all_eq_true, isStepChar]
    constructor
    · intro h
      exact ⟨h.1.1, h.1.2, fun c hc => by simpa [isAlnum] using h.2 c hc⟩
    · intro h
      exact ⟨⟨h.least, h.most⟩, fun c hc => by simpa [isAlnum] using h.characters c hc⟩
  rw [validId, ← hmatch]
  split
  · rename_i h
    exact iff_of_true rfl h
  · rename_i h
    exact iff_of_false (fun hok => by cases hok) h

/-- A slug has no newline. -/
theorem IsSlug.newline_notMem {word : List Char} (h : IsSlug word) : '\n' ∉ word := by
  intro hmem
  exact absurd (h.characters _ hmem) (by decide)

/-- An identifier has no newline. -/
theorem IsStepId.newline_notMem {word : List Char} (h : IsStepId word) : '\n' ∉ word := by
  intro hmem
  exact absurd (h.characters _ hmem) (by decide)

/-! ## Recipients -/

/-- The class of the parts of an address. -/
def isPart (c : Char) : Bool := c ≠ '@' && !isSpace c

/-- An address of the list with a domain that is not empty. -/
def HasDomain (allowedDomains : List String) (word : List Char) : Prop :=
  ∃ localPart domain, word = localPart ++ '@' :: domain ∧ (∀ c ∈ localPart, isPart c = true) ∧
    (∀ c ∈ domain, isPart c = true) ∧ localPart ≠ [] ∧ domain ≠ [] ∧ String.ofList domain ∈ allowedDomains

/-- An address that stops behind its `@`. -/
def LacksDomain (allowedDomains : List String) (word : List Char) : Prop :=
  IsAddress allowedDomains word ∧ word.getLast? = some '@'

/-- The characters of a part are neither `@` nor whitespace. -/
theorem forall_isPart {cs : List Char} : (∀ c ∈ cs, isPart c = true) ↔ '@' ∉ cs ∧ ∀ c ∈ cs, isSpace c = false := by
  simp only [isPart, Bool.and_eq_true, decide_eq_true_eq, Bool.not_eq_true']
  constructor
  · intro h
    exact ⟨fun hat => (h _ hat).1 rfl, fun c hc => (h c hc).2⟩
  · intro h c hc
    exact ⟨fun heq => h.1 (heq ▸ hc), h.2 c hc⟩

/-- An address has a domain, or it stops behind its `@`. -/
theorem isAddress_iff {allowedDomains : List String} {word : List Char} :
    IsAddress allowedDomains word ↔ HasDomain allowedDomains word ∨ LacksDomain allowedDomains word := by
  constructor
  · intro h
    obtain ⟨hspace, localPart, domain, rfl, hlocal, hdomain, hne, hallowed⟩ := id h
    by_cases hnil : domain = []
    · rw [hnil] at h ⊢
      exact .inr ⟨h, List.getLast?_concat⟩
    · exact .inl ⟨localPart, domain, rfl, forall_isPart.mpr ⟨hlocal, fun c hc => hspace c (by simp [hc])⟩,
        forall_isPart.mpr ⟨hdomain, fun c hc => hspace c (by simp [hc])⟩, hne, hnil, hallowed⟩
  · intro h
    rcases h with ⟨localPart, domain, rfl, hlocal, hdomain, hne, -, hallowed⟩ | h
    · rw [forall_isPart] at hlocal hdomain
      refine ⟨fun c hc => ?_, localPart, domain, rfl, hlocal.1, hdomain.1, hne, hallowed⟩
      rcases List.mem_append.mp hc with hc | hc
      · exact hlocal.2 c hc
      · rcases List.mem_cons.mp hc with rfl | hc
        · rfl
        · exact hdomain.2 c hc
    · exact h.1

/-- The two kinds of addresses are apart. -/
theorem HasDomain.not_lacksDomain {allowedDomains : List String} {word : List Char} (h : HasDomain allowedDomains word) :
    ¬ LacksDomain allowedDomains word := by
  obtain ⟨localPart, domain, rfl, -, hdomain, -, hne, -⟩ := h
  intro hlacks
  have hlast := hlacks.2
  rw [List.getLast?_append_of_ne_nil _ (List.cons_ne_nil _ _), List.getLast?_cons_of_ne_nil hne] at hlast
  exact absurd (hdomain _ (List.mem_of_getLast? hlast)) (by decide)

/-- No address has a newline. -/
theorem HasDomain.newline_notMem {allowedDomains : List String} {word : List Char} (h : HasDomain allowedDomains word) :
    '\n' ∉ word := by
  intro hmem
  exact absurd ((isAddress_iff.mpr (.inl h)).1 _ hmem) (by decide)

/-- The domain is what stands after the first character that is no part. -/
theorem recipientDomain_eq (value : String) : recipientDomain value =
    match (value.toList.takeWhile isPart, value.toList.dropWhile isPart) with
    | ([], _) => none
    | (_, '@' :: rest) =>
      if dropFinalNewline rest ≠ [] && (dropFinalNewline rest).all isPart then some (String.ofList (dropFinalNewline rest))
      else none
    | _ => none := by
  rw [← List.span_eq_takeWhile_dropWhile]
  rfl

/-- The domain of an address is what stands behind the first `@`, up to a final newline. -/
theorem recipientDomain_eq_some {value domain : String} : recipientDomain value = some domain ↔
    ∃ localPart rest, value.toList = localPart ++ '@' :: rest ∧ (∀ c ∈ localPart, isPart c = true) ∧ localPart ≠ [] ∧
      dropFinalNewline rest ≠ [] ∧ (∀ c ∈ dropFinalNewline rest, isPart c = true) ∧
      String.ofList (dropFinalNewline rest) = domain := by
  rw [recipientDomain_eq]
  constructor
  · intro h
    split at h
    · cases h
    · rename_i first before rest hne hcut
      obtain ⟨hbefore, hrest⟩ := Prod.mk.inj hcut
      split at h
      · rename_i hdomain
        rw [Bool.and_eq_true, decide_eq_true_eq, List.all_eq_true] at hdomain
        refine ⟨value.toList.takeWhile isPart, rest, ?_, fun c hc => List.mem_takeWhile_imp hc, ?_, hdomain.1,
          hdomain.2, Option.some.inj h⟩
        · rw [← hrest, List.takeWhile_append_dropWhile]
        · rw [hbefore]
          exact hne
      · cases h
    · cases h
  · intro h
    obtain ⟨localPart, rest, hvalue, hlocal, hne, hdomainNe, hdomain, rfl⟩ := h
    obtain ⟨c, more, hcons⟩ := List.exists_cons_of_ne_nil hne
    have htake : value.toList.takeWhile isPart = c :: more := by
      rw [hvalue, List.takeWhile_append_of_pos hlocal, ← hcons]
      exact List.append_nil localPart
    have hdrop : value.toList.dropWhile isPart = '@' :: rest := by
      rw [hvalue, List.dropWhile_append_of_pos hlocal]
      rfl
    rw [htake, hdrop]
    exact if_pos (by rw [Bool.and_eq_true, decide_eq_true_eq, List.all_eq_true]; exact ⟨hdomainNe, hdomain⟩)

/-- The pattern of addresses, up to its end anchor. -/
theorem isAllowedRecipient_iff {value : String} {allowedDomains : List String} :
    isAllowedRecipient value allowedDomains = true ↔ HasDomain allowedDomains (dropFinalNewline value.toList) := by
  have hallowed : isAllowedRecipient value allowedDomains = true ↔
      ∃ domain, recipientDomain value = some domain ∧ domain ∈ allowedDomains := by
    rw [isAllowedRecipient]
    cases recipientDomain value <;> simp
  rw [hallowed]
  constructor
  · intro h
    obtain ⟨domain, hdomain, hmem⟩ := h
    obtain ⟨localPart, rest, hvalue, hlocal, hne, hdomainNe, hparts, rfl⟩ := recipientDomain_eq_some.mp hdomain
    rw [hvalue, dropFinalNewline_append_cons (by decide)]
    exact ⟨localPart, _, rfl, hlocal, hparts, hne, hdomainNe, hmem⟩
  · intro h
    obtain ⟨localPart, domain, hcut, hlocal, hdomain, hlocalNe, hdomainNe, hmem⟩ := h
    obtain ⟨rest, hvalue, rfl⟩ : ∃ rest, value.toList = localPart ++ '@' :: rest ∧ dropFinalNewline rest = domain := by
      have hnewline : '\n' ∉ domain := fun hmem => absurd (hdomain _ hmem) (by decide)
      rcases eq_or_eq_append_dropFinalNewline value.toList with heq | heq
      · exact ⟨domain, heq.trans hcut, dropFinalNewline_of_notMem hnewline⟩
      · refine ⟨domain ++ ['\n'], ?_, dropFinalNewline_append_newline domain⟩
        rw [heq, hcut, List.append_assoc, List.cons_append]
    exact ⟨_, recipientDomain_eq_some.mpr ⟨localPart, rest, hvalue, hlocal, hlocalNe, hdomainNe, hdomain, rfl⟩, hmem⟩

/-! ## Agreement -/

/-- Each validator agrees with its language on a text exactly when the text is no word of the language with a line
break behind it; for addresses the empty domain is an exception as well, if the list has it. -/
theorem validators_agree_iff (value : String) (allowedDomains : List String) :
    ((validName value = .ok () ↔ IsSlug value.toList) ↔ ¬ IsBroken IsSlug value.toList) ∧
      ((validId value = .ok () ↔ IsStepId value.toList) ↔ ¬ IsBroken IsStepId value.toList) ∧
      ((isAllowedRecipient value allowedDomains = true ↔ IsAddress allowedDomains value.toList) ↔
        ¬ IsBroken (HasDomain allowedDomains) value.toList ∧ ¬ LacksDomain allowedDomains value.toList) := by
  rw [validName_iff, validId_iff, isAllowedRecipient_iff]
  refine ⟨accepted_dropFinalNewline_agrees fun _ => IsSlug.newline_notMem,
    accepted_dropFinalNewline_agrees fun _ => IsStepId.newline_notMem, ?_⟩
  rw [isAddress_iff, accepted_dropFinalNewline_iff fun _ => HasDomain.newline_notMem]
  have hbroken : HasDomain allowedDomains value.toList → ¬ IsBroken (HasDomain allowedDomains) value.toList := by
    intro hdomain hbroken
    obtain ⟨word, -, heq⟩ := hbroken
    exact hdomain.newline_notMem (heq ▸ List.mem_append_right _ (List.mem_singleton_self _))
  have hlacks : IsBroken (HasDomain allowedDomains) value.toList → ¬ LacksDomain allowedDomains value.toList := by
    intro hbroken hlacks
    obtain ⟨word, -, heq⟩ := hbroken
    have hlast := hlacks.2
    rw [heq, List.getLast?_concat] at hlast
    cases hlast
  have hapart := @HasDomain.not_lacksDomain allowedDomains value.toList
  change (HasDomain allowedDomains value.toList ∨ IsBroken (HasDomain allowedDomains) value.toList ↔ _) ↔ _
  tauto

/-- A name, an identifier and an address with a line break behind them are accepted, and none is in its language. -/
theorem lineBreak_accepted : (validName "weekly-report\n" = .ok () ∧ ¬ IsSlug "weekly-report\n".toList) ∧
    (validId "query_1\n" = .ok () ∧ ¬ IsStepId "query_1\n".toList) ∧
    (isAllowedRecipient "user@fleet.local\n" allowedEmailDomains = true ∧
      ¬ IsAddress allowedEmailDomains "user@fleet.local\n".toList) := by
  refine ⟨⟨by rfl, fun h => h.newline_notMem (by decide)⟩, ⟨by rfl, fun h => h.newline_notMem (by decide)⟩, by decide,
    fun h => ?_⟩
  exact absurd (h.1 '\n' (by decide)) (by decide)

end FleetWorkflow.Api
