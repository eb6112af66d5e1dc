import FleetWorkflow.Core.Scrubbing
import FleetWorkflow.Python.Tracking

/-!
# Identifiers in surroundings

The characters of one identifier are followed through the four passes of a scrub. Account numbers and identity numbers are masked
in every surrounding that does not touch them with a character of a word. Telephone numbers and addresses are not: the prefix with
a plus sign has no edge before it, an earlier pass takes the end of a number with blanks into an address, a number before takes the
first digits of one that starts with a zero, and an address before takes the name of one.
-/

namespace FleetWorkflow.Core

open Python

section Tracked

variable (unicode : Unicode)

/-- The passes over a text whose characters are marked. -/
def trackEmail : List (Char × Bool) → List (Char × Bool) :=
  (emailRe unicode).subBy Prod.fst unicode.isWord fun _ => withMark false ['[', 'E', 'M', 'A', 'I', 'L', ']']

def trackIban : List (Char × Bool) → List (Char × Bool) :=
  trIbanRe.subBy Prod.fst unicode.isWord fun _ => withMark false ['[', 'T', 'R', '_', 'I', 'B', 'A', 'N', ']']

def trackPhone : List (Char × Bool) → List (Char × Bool) :=
  trPhoneRe.subBy Prod.fst unicode.isWord fun _ => withMark false ['[', 'T', 'R', '_', 'P', 'H', 'O', 'N', 'E', ']']

def trackTckn : List (Char × Bool) → List (Char × Bool) :=
  tcknCandidateRe.subBy Prod.fst unicode.isWord fun m =>
    if tcknChecksumValid (m.map Prod.fst) then withMark false ['[', 'T', 'R', '_', 'T', 'C', 'K', 'N', ']'] else m

/-- The scrub of a text whose characters are marked. -/
def trackScrub (xs : List (Char × Bool)) : List (Char × Bool) :=
  trackTckn unicode (trackPhone unicode (trackIban unicode (trackEmail unicode xs)))

/-- The scrub of marked characters is the scrub of the characters. -/
theorem map_trackScrub (xs : List (Char × Bool)) :
    (trackScrub unicode xs).map Prod.fst = (scrub unicode (String.ofList (xs.map Prod.fst))).text.toList := by
  rw [scrub_text, String.toList_ofList, String.toList_ofList, trackScrub, trackTckn, map_subBy, trackPhone, map_subBy, trackIban,
    map_subBy, trackEmail, map_subBy]
  · rfl
  · exact fun _ => map_fst_withMark _ _
  · exact fun _ => map_fst_withMark _ _
  · exact fun _ => map_fst_withMark _ _
  · intro m
    split
    · exact map_fst_withMark _ _
    · rfl

/-- A text with the characters of an identifier marked. -/
def inText (before identifier after : List Char) : List (Char × Bool) :=
  withMark false before ++ (withMark true identifier ++ withMark false after)

/-- A surrounding that does not touch what it surrounds with a character of a word. -/
def Surrounds (before after : List Char) : Prop :=
  before.getLast?.any unicode.isWord = false ∧ after.head?.any unicode.isWord = false

/-- In a surrounding, every character of an identifier is masked. -/
def MaskedIn (before identifier after : List Char) : Prop := Gone (trackScrub unicode (inText before identifier after))

/-- In every surrounding that does not touch it, an identifier is masked in full. -/
def MaskedEverywhere (identifier : List Char) : Prop :=
  ∀ before after, Surrounds unicode before after → MaskedIn unicode before identifier after

end Tracked

section Passes

variable {unicode : Unicode} (hdigits : unicode.KnowsDigits) {xs : List (Char × Bool)}

/-- The masks have brackets. -/
theorem bracketed {inner : List Char} : Bracketed unicode.isWord ('[' :: (inner ++ [']'])) where
  opening := @isWord_ascii unicode '[' (by decide) (by decide) (by decide)
  closing := by
    rw [← List.cons_append, List.getLast?_concat]
    exact @isWord_ascii unicode ']' (by decide) (by decide) (by decide)
  nonempty := List.cons_ne_nil _ _

/-- The passes replace the words of their languages. -/
theorem tracks_email : Tracks unicode.isWord (IsEmail unicode) ('[' :: (['E', 'M', 'A', 'I', 'L'] ++ [']'])) none xs
    (trackEmail unicode xs) := pass_subBy spells_email xs

theorem tracks_iban : Tracks unicode.isWord IsIban ('[' :: (['T', 'R', '_', 'I', 'B', 'A', 'N'] ++ [']'])) none xs
    (trackIban unicode xs) := pass_subBy spells_iban xs

theorem tracks_phone : Tracks unicode.isWord IsPhone ('[' :: (['T', 'R', '_', 'P', 'H', 'O', 'N', 'E'] ++ [']'])) none xs
    (trackPhone unicode xs) := pass_subBy spells_phone xs

include hdigits in
theorem tracks_tckn : Tracks unicode.isWord IsTckn ('[' :: (['T', 'R', '_', 'T', 'C', 'K', 'N'] ++ [']'])) none xs
    (trackTckn unicode xs) :=
  Pass.spared (digits_spared hdigits) (pass_subBy spells_tckn xs)

/-- A pass takes an identifier away or leaves it where it is. -/
theorem remains_step {core : List Char → Prop} {part inner : List Char} {out : List (Char × Bool)}
    (hspares : Spares unicode.isWord core part) (hne : part ≠ [])
    (h : Gone xs ∨ Remains unicode.isWord part none xs) (hpass : Tracks unicode.isWord core ('[' :: (inner ++ [']'])) none xs out) :
    Gone out ∨ Remains unicode.isWord part none out := by
  rcases h with hgone | hremains
  · exact .inl (hgone.pass hpass)
  · exact (hremains.pass bracketed hspares hne hpass).imp id And.left

/-- The pass of its own language takes an identifier away. -/
theorem gone_step {core : List Char → Prop} {part inner : List Char} {out : List (Char × Bool)}
    (hspares : Spares unicode.isWord core part) (hne : part ≠ [])
    (hstands : ∀ b after, b.any unicode.isWord = false → after.head?.any unicode.isWord = false →
      Stands unicode.isWord core b part after)
    (h : Gone xs ∨ Remains unicode.isWord part none xs) (hpass : Tracks unicode.isWord core ('[' :: (inner ++ [']'])) none xs out) :
    Gone out := by
  rcases h with hgone | hremains
  · exact hgone.pass hpass
  · rcases hremains.pass bracketed hspares hne hpass with hgone | ⟨-, b, after, hb, hafter, hnot⟩
    · exact hgone
    · exact absurd (hstands b after hb hafter) hnot

/-- An identifier remains in a surrounding before the passes. -/
theorem remains_inText {before identifier after : List Char} (h : Surrounds unicode before after) :
    Remains unicode.isWord identifier none (inText before identifier after) where
  split := ⟨withMark false before, withMark false after, rfl, gone_withMark before, gone_withMark after,
    by rw [map_fst_withMark, Option.or_none]; exact h.1, by rw [map_fst_withMark]; exact h.2⟩

/-- Between characters outside of words, what begins and ends with characters of words stands. -/
theorem stands_of_word {isWord : Char → Bool} {core : List Char → Prop} {m after : List Char} {b : Option Char} (hm : core m)
    (hhead : m.head?.any isWord = true) (hlast : m.getLast?.any isWord = true) (hb : b.any isWord = false)
    (hafter : after.head?.any isWord = false) : Stands isWord core b m after :=
  ⟨hm, by rw [Edge, hb, hhead]; exact Bool.false_ne_true, by rw [Edge, hlast, hafter]; exact Bool.true_eq_false_eq_False⟩

/-- The last of some characters has what all have. -/
theorem any_getLast? {p : Char → Bool} {m : List Char} (hne : m ≠ []) (h : ∀ c ∈ m, p c = true) : m.getLast?.any p = true := by
  rw [List.getLast?_eq_some_getLast hne]
  exact h _ (List.getLast_mem hne)

/-- The first of some characters has what all have. -/
theorem any_head? {p : Char → Bool} {m : List Char} (hne : m ≠ []) (h : ∀ c ∈ m, p c = true) : m.head?.any p = true := by
  rw [List.head?_eq_some_head hne]
  exact h _ (List.head_mem hne)

/-! ## Identifiers that are one word -/

/-- A language has nothing to do with the inside of a word. -/
theorem spares_of_word {isWord : Char → Bool} {core : List Char → Prop} (hnonempty : ¬ core []) {part : List Char}
    (hword : ∀ c ∈ part, isWord c = true) : Spares isWord core part where
  covers b before m rest after hsplit hlt _ _ hstands := by
    left
    by_contra hshort
    -- the word would end inside the part, where there is no edge
    rcases List.append_eq_append_iff.mp hsplit with ⟨covered, rfl, hpart⟩ | ⟨more, rfl, -⟩
    · rw [List.length_append] at hlt hshort
      rcases List.append_eq_append_iff.mp hpart with ⟨more, rfl, -⟩ | ⟨left, rfl, rfl⟩
      · rw [List.length_append] at hshort
        omega
      · cases left with
        | nil => simp at hshort
        | cons d left =>
          have hne : covered ≠ [] := List.length_pos_iff.mp (by omega)
          refine absurd ?_ hstands.1.2.2
          rw [List.getLast?_append, getLast?_or_of_ne_nil hne, any_getLast? hne fun c hc => hword c (List.mem_append_left _ hc)]
          exact (hword d (List.mem_append_right _ List.mem_cons_self)).symm
    · rw [List.length_append] at hlt
      omega
  inside b u v m rest after hpart hu hv _ _ hsplit hstands := by
    cases v with
    | nil => exact absurd rfl hv
    | cons d v =>
      cases m with
      | nil => exact absurd hstands.1 hnonempty
      | cons e m =>
        have hde : d = e := (List.cons.inj hsplit).1
        refine absurd ?_ hstands.2.1
        rw [any_getLast? hu fun c hc => hword c (hpart ▸ List.mem_append_left _ hc), ← hde]
        exact (hword d (hpart ▸ List.mem_append_right _ List.mem_cons_self)).symm

/-- No identifier is empty. -/
theorem Identifies.ne_nil {core : List Char → Prop} (h : Identifies core) : ¬ core [] := by
  intro hnil
  obtain ⟨-, -, c, hc, -⟩ := h [] hnil
  exact List.not_mem_nil hc

include hdigits in
/-- The characters of an account number are of one word. -/
theorem isWord_of_iban {m : List Char} (hm : IsIban m) : ∀ c ∈ m, unicode.isWord c = true := by
  obtain ⟨digits, rfl, hdecimal, -⟩ := hm
  have hletter (c : Char) (hascii : c.toNat < 128) (hupper : (isAsciiDigit c || isAsciiLower c || isAsciiUpper c) = true) :
      unicode.isWord c = true := by
    rw [Unicode.isWord, unicode.ascii c hascii, hupper, Bool.true_or]
  intro c hc
  rcases List.mem_cons.mp hc with rfl | hc
  · exact hletter 'T' (by decide) (by decide)
  · rcases List.mem_cons.mp hc with rfl | hc
    · exact hletter 'R' (by decide) (by decide)
    · exact isWord_of_isDecimal hdigits (hdecimal c hc)

include hdigits in
/-- An account number is masked in every surrounding. -/
theorem masked_iban {m : List Char} (hm : IsIban m) : MaskedEverywhere unicode m := by
  intro before after hsurrounds
  have hword := isWord_of_iban hdigits hm
  have hne : m ≠ [] := fun hnil => identifies_iban.ne_nil (hnil ▸ hm)
  have hemail := remains_step (spares_of_word identifies_email.ne_nil hword) hne (.inr (remains_inText hsurrounds)) tracks_email
  have hiban := gone_step (spares_of_word identifies_iban.ne_nil hword) hne
    (fun b after hb hafter => stands_of_word hm (any_head? hne hword) (any_getLast? hne hword) hb hafter) hemail tracks_iban
  exact (hiban.pass tracks_phone).pass (tracks_tckn hdigits)

include hdigits in
/-- An identity number is masked in every surrounding. -/
theorem masked_tckn {m : List Char} (hm : IsTckn m) : MaskedEverywhere unicode m := by
  intro before after hsurrounds
  have hword : ∀ c ∈ m, unicode.isWord c = true := fun c hc => isWord_of_isDecimal hdigits (hm.1.1 c hc)
  have hne : m ≠ [] := fun hnil => identifies_tckn.ne_nil (hnil ▸ hm)
  have hemail := remains_step (spares_of_word identifies_email.ne_nil hword) hne (.inr (remains_inText hsurrounds)) tracks_email
  have hiban := remains_step (spares_of_word identifies_iban.ne_nil hword) hne hemail tracks_iban
  have hphone := remains_step (spares_of_word identifies_phone.ne_nil hword) hne hiban tracks_phone
  exact gone_step (spares_of_word identifies_tckn.ne_nil hword) hne
    (fun b after hb hafter => stands_of_word hm (any_head? hne hword) (any_getLast? hne hword) hb hafter) hphone (tracks_tckn hdigits)

end Passes

/-! ## Telephone numbers -/

section Phones

variable {m u v : List Char} {x : Char}

/-- A character that is no digit comes after digits. -/
theorem split_digits {n : ℕ} {digits rest : List Char} (hdigits : IsDigits n digits) (hx : isDecimal x = false)
    (h : digits ++ rest = u ++ x :: v) : ∃ u', u = digits ++ u' ∧ rest = u' ++ x :: v := by
  rcases List.append_eq_append_iff.mp h with ⟨u', hu, hrest⟩ | ⟨more, hmore, hrest⟩
  · exact ⟨u', hu, hrest⟩
  · cases more with
    | nil => exact ⟨[], by simpa using hmore.symm, by simpa using hrest.symm⟩
    | cons d more =>
      have hd := hdigits.1 d (hmore ▸ List.mem_append_right _ List.mem_cons_self)
      rw [(List.cons.inj hrest).1, hd] at hx
      exact absurd hx.symm Bool.false_ne_true

/-- A character that separates digits. -/
def isSeparator (c : Char) : Bool := isSpace c || c = '.' || c = '-'

/-- A character that is no digit is a separator, or comes after it. -/
theorem split_separator {s rest : List Char} (hs : IsSeparator s) (h : s ++ rest = u ++ x :: v) :
    (isSeparator x = true ∧ v = rest) ∨ ∃ u', rest = u' ++ x :: v := by
  rcases hs with rfl | ⟨c, rfl, hc⟩
  · exact .inr ⟨u, h⟩
  · cases u with
    | nil =>
      obtain ⟨rfl, rfl⟩ := List.cons.inj h
      exact .inl ⟨hc, rfl⟩
    | cons d u => exact .inr ⟨u, (List.cons.inj h).2⟩

/-- In a telephone number, a character that is no digit is the plus sign at the beginning, or a separator after which seven, four
or two digits come. -/
theorem IsPhone.split (hm : IsPhone m) (hx : isDecimal x = false) (h : m = u ++ x :: v) :
    (u = [] ∧ x = '+' ∧ v.head? = some '9') ∨ (isSeparator x = true ∧ v.head?.any isDecimal = true ∧
      (v.countP isDecimal = 7 ∨ v.countP isDecimal = 4 ∨ v.countP isDecimal = 2)) := by
  obtain ⟨start, area, s₁, first, s₂, second, s₃, third, rfl, hstart, harea, hs₁, hfirst, hs₂, hsecond, hs₃, hthird⟩ := hm
  -- after the start, the separators are gone through one by one
  have hfirstDigit {n : ℕ} {group rest : List Char} (hgroup : IsDigits (n + 1) group) :
      (group ++ rest).head?.any isDecimal = true := by
    have hne : group ≠ [] := by
      rintro rfl
      exact absurd hgroup.2.symm (Nat.succ_ne_zero n)
    rw [List.head?_append_of_ne_nil _ hne]
    exact any_head? hne hgroup.1
  have hgroups {w : List Char} (hw : '5' :: (area ++ (s₁ ++ (first ++ (s₂ ++ (second ++ (s₃ ++ third)))))) = w ++ x :: v) :
      isSeparator x = true ∧ v.head?.any isDecimal = true ∧
        (v.countP isDecimal = 7 ∨ v.countP isDecimal = 4 ∨ v.countP isDecimal = 2) := by
    have hfive : IsDigits 3 ('5' :: area) :=
      ⟨List.forall_mem_cons.mpr ⟨by decide, harea.1⟩, by rw [List.length_cons, harea.2]⟩
    obtain ⟨u₁, -, h₁⟩ := split_digits hfive hx hw
    rcases split_separator hs₁ h₁ with ⟨hseparator, rfl⟩ | ⟨u₂, h₂⟩
    · refine ⟨hseparator, hfirstDigit hfirst, .inl ?_⟩
      simp only [List.countP_append, hfirst.countP, hs₂.countP, hsecond.countP, hs₃.countP, hthird.countP]
    · obtain ⟨u₃, -, h₃⟩ := split_digits hfirst hx h₂
      rcases split_separator hs₂ h₃ with ⟨hseparator, rfl⟩ | ⟨u₄, h₄⟩
      · refine ⟨hseparator, hfirstDigit hsecond, .inr (.inl ?_)⟩
        simp only [List.countP_append, hsecond.countP, hs₃.countP, hthird.countP]
      · obtain ⟨u₅, -, h₅⟩ := split_digits hsecond hx h₄
        rcases split_separator hs₃ h₅ with ⟨hseparator, rfl⟩ | ⟨u₆, h₆⟩
        · refine ⟨hseparator, ?_, .inr (.inr hthird.countP)⟩
          have := @hfirstDigit 1 v [] hthird
          rwa [List.append_nil] at this
        · obtain ⟨u₇, -, h₇⟩ := @split_digits _ _ _ _ _ [] hthird hx (by rw [List.append_nil]; exact h₆)
          simp at h₇
  rcases hstart with rfl | rfl | rfl
  · cases u with
    | nil =>
      obtain ⟨rfl, rfl⟩ := List.cons.inj h
      exact .inl ⟨rfl, rfl, rfl⟩
    | cons c u =>
      have hninety : IsDigits 2 ['9', '0'] := isDigits_of_all (by decide)
      obtain ⟨w, -, hw⟩ := split_digits hninety hx (List.cons.inj h).2
      exact .inr (hgroups hw)
  · have hzero : IsDigits 1 ['0'] := isDigits_of_all (by decide)
    obtain ⟨w, -, hw⟩ := split_digits hzero hx h
    exact .inr (hgroups hw)
  · exact .inr (hgroups h)

/-- A telephone number whose surroundings do not matter: it has no plus sign and no blank, and if it starts with a zero, its first
eight characters are digits. -/
structure SteadyPhone (m : List Char) : Prop where
  plus : '+' ∉ m
  space : ∀ c ∈ m, isSpace c = false
  zero : m.head? = some '0' → ∀ c ∈ m.take 8, isDecimal c = true

/-- A telephone number starts with a plus sign, a zero or a five. -/
theorem IsPhone.head (hm : IsPhone m) : m.head? = some '+' ∨ m.head? = some '0' ∨ m.head? = some '5' := by
  obtain ⟨start, area, s₁, first, s₂, second, s₃, third, rfl, hstart, -⟩ := hm
  rcases hstart with rfl | rfl | rfl
  · exact .inl rfl
  · exact .inr (.inl rfl)
  · exact .inr (.inr rfl)

variable {unicode : Unicode} (hdigits : unicode.KnowsDigits) (hm : IsPhone m) (hsteady : SteadyPhone m)

include hm hsteady in
/-- A steady number starts with a zero or a five. -/
theorem SteadyPhone.head : m.head? = some '0' ∨ m.head? = some '5' := by
  rcases hm.head with hplus | hhead
  · exact absurd (List.mem_of_head? hplus) hsteady.plus
  · exact hhead

include hm hsteady in
/-- The characters of a steady number. -/
theorem SteadyPhone.mem {c : Char} (hc : c ∈ m) : isDecimal c = true ∨ c = '.' ∨ c = '-' := by
  rcases hm.mem hc with rfl | hdecimal | hseparator
  · exact absurd hc hsteady.plus
  · exact .inl hdecimal
  · right
    simpa [hsteady.space c hc] using hseparator

include hdigits hm hsteady in
/-- A steady number stands wherever no word touches it. -/
theorem SteadyPhone.stands (b : Option Char) (after : List Char) (hb : b.any unicode.isWord = false)
    (hafter : after.head?.any unicode.isWord = false) : Stands unicode.isWord IsPhone b m after := by
  apply stands_of_word hm _ _ hb hafter
  · rcases hsteady.head hm with h | h
    · rw [h]
      exact isWord_of_isDecimal hdigits (by decide)
    · rw [h]
      exact isWord_of_isDecimal hdigits (by decide)
  · obtain ⟨front, c, rfl, hc⟩ := hm.exists_last
    rw [List.getLast?_concat]
    exact isWord_of_isDecimal hdigits hc

/-- What is outside of words is no digit. -/
theorem isDecimal_of_isWord (hdigits : unicode.KnowsDigits) {c : Char} (hc : unicode.isWord c = false) : isDecimal c = false := by
  cases hdecimal : isDecimal c with
  | false => rfl
  | true => exact absurd (hc.symm.trans (isWord_of_isDecimal hdigits hdecimal)) Bool.false_ne_true

/-- A word that ends inside a part covers its beginning. -/
theorem exists_covered {before part m rest after : List Char} (hsplit : before ++ (part ++ after) = m ++ rest)
    (hlt : before.length < m.length) (hshort : m.length < before.length + part.length) :
    ∃ covered left, part = covered ++ left ∧ m = before ++ covered ∧ rest = left ++ after ∧ covered ≠ [] ∧ left ≠ [] := by
  rcases List.append_eq_append_iff.mp hsplit with ⟨covered, rfl, hpart⟩ | ⟨more, rfl, -⟩
  · rw [List.length_append] at hlt hshort
    rcases List.append_eq_append_iff.mp hpart with ⟨more, rfl, -⟩ | ⟨left, rfl, rfl⟩
    · rw [List.length_append] at hshort
      omega
    · rw [List.length_append] at hshort
      exact ⟨covered, left, rfl, rfl, rfl, List.length_pos_iff.mp (by omega), List.length_pos_iff.mp (by omega)⟩
  · rw [List.length_append] at hlt
    omega

include hdigits hm hsteady in
/-- An address that ends inside a steady number could go on to its end. -/
theorem SteadyPhone.spares_email : Spares unicode.isWord (IsEmail unicode) m where
  covers b before taken rest after hsplit hlt hb hafter hstands := by
    left
    by_contra hshort
    obtain ⟨covered, left, hpart, htaken, hrest, hcovered, hleft⟩ := exists_covered hsplit hlt (by omega)
    obtain ⟨⟨hemail, hstart, hend⟩, hlongest⟩ := hstands
    obtain ⟨front, c, hlast, hc⟩ := hm.exists_last
    have hlong : IsEmail unicode (taken ++ left) := by
      obtain ⟨user, label, domain, rfl, huser, hlabel, hdomainNe, hdomain⟩ := hemail
      refine ⟨user, label, domain ++ left, by simp, huser, hlabel, by simp [hdomainNe], ?_⟩
      intro d hd
      rcases List.mem_append.mp hd with hd | hd
      · exact hdomain d hd
      · rw [Unicode.isDomain]
        rcases hsteady.mem hm (hpart ▸ List.mem_append_right _ hd) with hdecimal | rfl | rfl
        · rw [isWord_of_isDecimal hdigits hdecimal, Bool.true_or, Bool.true_or]
        · simp
        · simp
    have htakenNe : taken ≠ [] := fun hnil => identifies_email.ne_nil (hnil ▸ hemail)
    have hlastLeft : left.getLast? = some c := by
      have : m.getLast? = some c := by rw [hlast, List.getLast?_concat]
      rwa [hpart, List.getLast?_append, getLast?_or_of_ne_nil hleft] at this
    have hle := hlongest (taken ++ left) after (by rw [hrest, List.append_assoc]) ⟨hlong, ?_, ?_⟩
    · rw [List.length_append] at hle
      exact hleft (List.length_eq_zero_iff.mp (by omega))
    · rwa [List.head?_append_of_ne_nil _ htakenNe]
    · rw [List.getLast?_append, hlastLeft, Edge, hafter]
      simp [isWord_of_isDecimal hdigits hc]
  inside b u v taken rest after hpart hu hv hb hafter hsplit hstands := by
    obtain ⟨⟨user, label, domain, rfl, ⟨huserNe, huser⟩, hrest⟩, hstart, hend⟩ := hstands
    refine ⟨u ++ (user ++ '@' :: (label ++ '.' :: domain)), rest, by rw [hpart, List.append_assoc, hsplit]; simp,
      ⟨⟨u ++ user, label, domain, by simp, ⟨by simp [huserNe], ?_⟩, hrest⟩, ?_, ?_⟩⟩
    · intro d hd
      rcases List.mem_append.mp hd with hd | hd
      · rw [Unicode.isLocal]
        rcases hsteady.mem hm (hpart ▸ List.mem_append_left _ hd) with hdecimal | rfl | rfl
        · rw [isWord_of_isDecimal hdigits hdecimal]
          rfl
        · simp
        · simp
      · exact huser d hd
    · have hfirst := (hsteady.stands hdigits hm b after hb hafter).2.1
      rw [hpart, List.head?_append_of_ne_nil _ hu] at hfirst
      rwa [List.head?_append_of_ne_nil _ hu]
    · rwa [List.getLast?_append, getLast?_or_of_ne_nil (by simp)]

/-- The first character after what is before comes at the beginning of a word that reaches into it. -/
theorem head?_of_prefix {taken rest part : List Char} (hne : taken ≠ []) (h : taken ++ rest = part) : taken.head? = part.head? := by
  rw [← h, List.head?_append_of_ne_nil _ hne]

include hdigits hm hsteady in
/-- An account number has nothing to do with a steady number. -/
theorem SteadyPhone.spares_iban : Spares unicode.isWord IsIban m where
  covers b before taken rest after hsplit hlt hb hafter hstands := by
    exfalso
    have hiban := hstands.1.1
    cases before using List.reverseRecOn with
    | nil =>
      obtain ⟨digits, rfl, -⟩ := hiban
      have hhead : some 'T' = (m ++ after).head? := head?_of_prefix (List.cons_ne_nil _ _) hsplit.symm
      rw [List.head?_append_of_ne_nil _ hm.ne_nil] at hhead
      rcases hsteady.head hm with h | h
      · rw [h] at hhead
        exact absurd hhead (by decide)
      · rw [h] at hhead
        exact absurd hhead (by decide)
    | append_singleton before c _ =>
      -- the character before is outside of words, and would be in the account number
      have hmem : c ∈ taken := by
        rcases List.append_eq_append_iff.mp hsplit with ⟨more, rfl, -⟩ | ⟨more, hmore, -⟩
        · simp
        · have hlength := congrArg List.length hmore
          simp only [List.length_append] at hlength hlt
          omega
      have hword := isWord_of_iban hdigits hiban c hmem
      rw [List.getLast?_concat, Option.some_or, Option.any_some, hword] at hb
      exact absurd hb.symm Bool.false_ne_true
  inside b u v taken rest after hpart hu hv _ _ hsplit hstands := by
    exfalso
    obtain ⟨digits, rfl, -⟩ := hstands.1
    cases v with
    | nil => exact hv rfl
    | cons c v =>
      have hc : c = 'T' := (List.cons.inj hsplit).1
      have hmem : 'T' ∈ m := hpart ▸ List.mem_append_right _ (hc ▸ List.mem_cons_self)
      exact absurd (hsteady.mem hm hmem) (by decide)

include hdigits hm hsteady in
/-- A number before a steady number does not reach into it. -/
theorem SteadyPhone.spares_phone : Spares unicode.isWord IsPhone m where
  covers b before taken rest after hsplit hlt hb hafter hstands := by
    left
    have hphone := hstands.1.1
    cases before using List.reverseRecOn with
    | nil =>
      have := hphone.length_le hm hsplit.symm
      simpa using this
    | append_singleton before c _ =>
      by_contra hshort
      obtain ⟨covered, left, hpart, htaken, hrest, hcovered, hleft⟩ := exists_covered hsplit hlt (by omega)
      -- a digit of neither number stands before the steady one and after what is covered of it
      have hc : isDecimal c = false := isDecimal_of_isWord hdigits (by simpa using hb)
      have hhead := hsteady.head hm
      rw [hpart, List.head?_append_of_ne_nil _ hcovered] at hhead
      have htail : covered.countP isDecimal = 7 ∨ covered.countP isDecimal = 4 ∨ covered.countP isDecimal = 2 := by
        rcases hphone.split hc (show taken = before ++ c :: covered by rw [htaken]; simp) with ⟨-, -, hnine⟩ | ⟨-, -, hcount⟩
        · rw [hnine] at hhead
          exact absurd hhead (by decide)
        · exact hcount
      obtain ⟨d, left, rfl⟩ := List.exists_cons_of_ne_nil hleft
      have hd : isDecimal d = false := by
        apply isDecimal_of_isWord hdigits
        have hend := hstands.1.2.2
        obtain ⟨front, e, hlast, he⟩ := hphone.exists_last
        rw [hrest, hlast, List.getLast?_concat, Edge] at hend
        simp only [List.cons_append, List.head?_cons, Option.any_some, isWord_of_isDecimal hdigits he] at hend
        exact Bool.eq_false_iff.mpr (Ne.symm hend)
      have hend : left.countP isDecimal = 7 ∨ left.countP isDecimal = 4 ∨ left.countP isDecimal = 2 := by
        rcases hm.split hd hpart with ⟨hnil, -⟩ | ⟨-, -, hcount⟩
        · exact absurd hnil hcovered
        · exact hcount
      have hcount := hm.countP
      rw [hpart, List.countP_append, List.countP_cons, hd, List.head?_append_of_ne_nil _ hcovered] at hcount
      rcases hhead with hzero | hfive
      · have hlong : 8 ≤ covered.length := by
          by_contra hnot
          have height := hsteady.zero (by rw [hpart, List.head?_append_of_ne_nil _ hcovered]; exact hzero) d (by
            rw [hpart, List.take_append]
            apply List.mem_append_right
            rw [List.take_cons (by omega)]
            exact List.mem_cons_self)
          exact absurd (hd.symm.trans height) Bool.false_ne_true
        have height : 8 ≤ covered.countP isDecimal := by
          have hall : (covered.take 8).countP isDecimal = 8 := by
            rw [List.countP_eq_length.mpr, List.length_take]
            · omega
            · intro e he
              apply hsteady.zero (by rw [hpart, List.head?_append_of_ne_nil _ hcovered]; exact hzero) e
              rw [hpart, List.take_append]
              exact List.mem_append_left _ he
          rw [← List.take_append_drop 8 covered, List.countP_append]
          omega
        omega
      · rw [hfive, show phoneDigits (some '5') = 10 from rfl, if_neg Bool.false_ne_true] at hcount
        omega
  inside b u v taken rest after hpart hu hv hb hafter hsplit hstands :=
    ⟨m, after, rfl, hsteady.stands hdigits hm b after hb hafter⟩

include hdigits hm hsteady in
/-- A steady number is masked in every surrounding. -/
theorem SteadyPhone.masked : MaskedEverywhere unicode m := by
  intro before after hsurrounds
  have hemail := remains_step (hsteady.spares_email hdigits hm) hm.ne_nil (.inr (remains_inText hsurrounds)) tracks_email
  have hiban := remains_step (hsteady.spares_iban hdigits hm) hm.ne_nil hemail tracks_iban
  have hphone := gone_step (hsteady.spares_phone hdigits hm) hm.ne_nil (hsteady.stands hdigits hm) hiban tracks_phone
  exact hphone.pass (tracks_tckn hdigits)

end Phones

/-! ## Addresses -/

section Addresses

variable {unicode : Unicode} {m : List Char}

/-- What is before the first at sign. -/
def nameOf (m : List Char) : List Char := m.takeWhile fun c => c ≠ '@'

/-- An address whose surroundings do not matter: it begins and ends with characters of words, and its name has a plus sign or ends
outside of words. -/
structure SteadyEmail (unicode : Unicode) (m : List Char) : Prop where
  head : m.head?.any unicode.isWord = true
  last : m.getLast?.any unicode.isWord = true
  name : '+' ∈ nameOf m ∨ (nameOf m).getLast?.any unicode.isWord = false

/-- A name has no at sign. -/
theorem not_mem_user {user : List Char} (huser : ∀ c ∈ user, unicode.isLocal c = true) : '@' ∉ user :=
  fun hmem => Bool.false_ne_true (isLocal_at.symm.trans (huser _ hmem))

/-- The name of an address. -/
theorem nameOf_email {user rest : List Char} (huser : ∀ c ∈ user, unicode.isLocal c = true) : nameOf (user ++ '@' :: rest) = user := by
  have hnot := not_mem_user huser
  rw [nameOf, List.takeWhile_append_of_pos]
  · simp
  · intro c hc
    exact decide_eq_true fun h => hnot (h ▸ hc)

/-- What is after the at sign of an address. -/
theorem mem_domain {label domain : List Char} (hlabel : ∀ c ∈ label, unicode.isLabel c = true)
    (hdomain : ∀ c ∈ domain, unicode.isDomain c = true) {c : Char} (hc : c ∈ label ++ '.' :: domain) : unicode.isDomain c = true := by
  rcases List.mem_append.mp hc with hc | hc
  · have := hlabel c hc
    simp only [Unicode.isLabel, Unicode.isDomain, Bool.or_eq_true] at this ⊢
    tauto
  · rcases List.mem_cons.mp hc with rfl | hc
    · simp [Unicode.isDomain]
    · exact hdomain c hc

/-- A character that is of no word, no point and no dash is not in a domain. -/
theorem isDomain_eq_false {c : Char} (hword : unicode.isWord c = false) (hpoint : c ≠ '.') (hdash : c ≠ '-') :
    unicode.isDomain c = false := by
  simp [Unicode.isDomain, hword, hpoint, hdash]

/-- An address that reaches into a steady one covers it, or the rest of it stands after it. -/
theorem SteadyEmail.spares (hm : IsEmail unicode m) (hsteady : SteadyEmail unicode m) : Spares unicode.isWord (IsEmail unicode) m where
  covers b before taken rest after hsplit hlt hb hafter hstands := by
    by_contra hnot
    rw [not_or] at hnot
    obtain ⟨hshort, hnever⟩ := hnot
    obtain ⟨covered, left, hpart, htaken, hrest, hcovered, hleft⟩ := exists_covered hsplit hlt (by omega)
    obtain ⟨⟨hemail, hstart, hend⟩, hlongest⟩ := hstands
    obtain ⟨user, label, domain, hsplitm, ⟨-, huser⟩, hlabel, hdomain⟩ := hm
    obtain ⟨user', label', domain', hsplit', ⟨huserNe', huser'⟩, ⟨-, hlabel'⟩, -, hdomain'⟩ := hemail
    have hname := hsteady.name
    rw [hsplitm, nameOf_email huser] at hname
    have hat : '@' ∉ label' ++ '.' :: domain' := fun hmem => Bool.false_ne_true
      ((isDomain_eq_false (isWord_ascii (by decide) (by decide) (by decide)) (by decide) (by decide)).symm.trans
        (mem_domain hlabel' hdomain' hmem))
    have hatWord : unicode.isWord '@' = false := isWord_ascii (by decide) (by decide) (by decide)
    have hlast := hsteady.last
    by_cases hin : '@' ∈ covered
    · -- the address that reaches into this one shares its at sign, and could go on to its end
      obtain ⟨more, hcoveredMore⟩ : ∃ more, covered = user ++ '@' :: more := by
        rcases List.append_eq_append_iff.mp (hpart.symm.trans hsplitm) with ⟨name, rfl, -⟩ | ⟨more, hcoveredMore, hmore⟩
        · exact absurd (List.mem_append_left name hin) (not_mem_user huser)
        · cases more with
          | nil =>
            rw [List.append_nil] at hcoveredMore
            exact absurd (hcoveredMore ▸ hin) (not_mem_user huser)
          | cons c more => exact ⟨more, by rw [hcoveredMore, (List.cons.inj hmore).1]⟩
      have huserBefore : user' = before ++ user := by
        have hsame : user' ++ '@' :: (label' ++ '.' :: domain') = (before ++ user) ++ '@' :: more := by
          rw [← hsplit', htaken, hcoveredMore, List.append_assoc]
        exact ((List.append_cons_inj_of_notMem (not_mem_user huser') hat).mp hsame).1
      have hlong : before ++ m = user' ++ '@' :: (label ++ '.' :: domain) := by rw [huserBefore, hsplitm, List.append_assoc]
      have hle := hlongest (before ++ m) after (by rw [List.append_assoc, hsplit])
        ⟨⟨user', label, domain, hlong, ⟨huserNe', huser'⟩, hlabel, hdomain⟩, ?_, ?_⟩
      · rw [List.length_append] at hle
        exact hshort hle
      · rw [hsplit', List.head?_append_of_ne_nil _ huserNe'] at hstart
        rwa [hlong, List.head?_append_of_ne_nil _ huserNe']
      · have hne : m ≠ [] := by simp [hsplitm]
        rw [List.getLast?_append, getLast?_or_of_ne_nil hne, Edge, hlast, hafter]
        exact Bool.true_eq_false_eq_False
    · obtain ⟨name, rfl, hleftName⟩ : ∃ name, user = covered ++ name ∧ left = name ++ '@' :: (label ++ '.' :: domain) := by
        rcases List.append_eq_append_iff.mp (hpart.symm.trans hsplitm) with h | ⟨more, hcoveredMore, hmore⟩
        · exact h
        · cases more with
          | nil => exact ⟨[], by simpa using hcoveredMore.symm, hmore.symm⟩
          | cons c more =>
            rw [← (List.cons.inj hmore).1] at hcoveredMore
            exact absurd (hcoveredMore ▸ List.mem_append_right _ List.mem_cons_self) hin
      cases name with
      | nil =>
        -- the address before would end with the name of this one
        rw [List.append_nil] at hname huser
        rcases hname with hplus | hword
        · have hmem : '+' ∈ label' ++ '.' :: domain' := by
            rw [htaken] at hsplit'
            rcases List.append_eq_append_iff.mp hsplit' with ⟨more, -, hmore⟩ | ⟨more, -, hmore⟩
            · exact absurd (hmore ▸ List.mem_append_right _ List.mem_cons_self) hin
            · cases more with
              | nil =>
                rw [List.nil_append] at hmore
                exact absurd (hmore ▸ List.mem_cons_self) hin
              | cons c more =>
                rw [(List.cons.inj hmore).2]
                exact List.mem_append_right _ hplus
          have hfalse : unicode.isDomain '+' = false :=
            isDomain_eq_false (isWord_ascii (by decide) (by decide) (by decide)) (by decide) (by decide)
          exact Bool.false_ne_true (hfalse.symm.trans (mem_domain hlabel' hdomain' hmem))
        · refine absurd ?_ hend
          rw [htaken, hrest, hleftName, List.getLast?_append, getLast?_or_of_ne_nil hcovered, hword]
          exact hatWord.symm
      | cons c name =>
        apply hnever
        refine ⟨covered, left, hpart, htaken, hleft, ⟨c :: name, label, domain, hleftName, ⟨List.cons_ne_nil _ _, ?_⟩, hlabel, hdomain⟩,
          ?_, ?_⟩
        · exact fun d hd => huser d (List.mem_append_right _ hd)
        · rwa [hrest, List.head?_append_of_ne_nil _ hleft] at hend
        · rw [hpart, List.getLast?_append, getLast?_or_of_ne_nil hleft] at hlast
          rw [Edge, hlast, hafter]
          exact Bool.true_eq_false_eq_False
  inside b u v taken rest after hpart hu hv hb hafter hsplit hstands :=
    ⟨m, after, rfl, stands_of_word hm hsteady.head hsteady.last hb hafter⟩

/-- A steady address is masked in every surrounding. -/
theorem SteadyEmail.masked (hdigits : unicode.KnowsDigits) (hm : IsEmail unicode m) (hsteady : SteadyEmail unicode m) :
    MaskedEverywhere unicode m := by
  intro before after hsurrounds
  have hne : m ≠ [] := fun hnil => identifies_email.ne_nil (hnil ▸ hm)
  have hemail := gone_step (hsteady.spares hm) hne
    (fun b after hb hafter => stands_of_word hm hsteady.head hsteady.last hb hafter) (.inr (remains_inText hsurrounds)) tracks_email
  exact ((hemail.pass tracks_iban).pass tracks_phone).pass (tracks_tckn hdigits)

end Addresses

end FleetWorkflow.Core
