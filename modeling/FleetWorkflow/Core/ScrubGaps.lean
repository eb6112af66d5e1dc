import FleetWorkflow.Core.ScrubForms

/-!
# Surroundings in which identifiers are not masked

For each way in which a telephone number or an address is not steady, a surrounding in which a scrub leaves one of its characters.
With the surroundings in which steady ones are masked, these say exactly which identifiers are masked everywhere.
-/

namespace FleetWorkflow.Core

open Python

/-- Blanks are not alphanumeric. -/
def Unicode.KnowsSpaces (unicode : Unicode) : Prop := ∀ c, isSpace c = true → unicode.isAlnum c = false

section Gaps

variable {unicode : Unicode} (hdigits : unicode.KnowsDigits) (hspaces : unicode.KnowsSpaces) {m : List Char}

/-- What is marked after the passes is not masked. -/
theorem not_maskedEverywhere {before after : List Char} (hsurrounds : Surrounds unicode before after) (c : Char)
    (hmem : (c, true) ∈ trackScrub unicode (inText before m after)) : ¬ MaskedEverywhere unicode m :=
  fun h => Bool.false_ne_true (h before after hsurrounds _ hmem).symm

include hdigits in
/-- What is masked everywhere begins with a character of a word. -/
theorem head_of_masked (hne : m ≠ []) (h : MaskedEverywhere unicode m) : m.head?.any unicode.isWord = true := by
  by_contra hword
  obtain ⟨c, rest, rfl⟩ := List.exists_cons_of_ne_nil hne
  have hc : unicode.isWord (c, true).1 = false := by simpa using hword
  refine not_maskedEverywhere (show Surrounds unicode [] [] from ⟨rfl, rfl⟩) c ?_ h
  have hpass {core : List Char → Prop} {mask : List Char} {xs out : List (Char × Bool)} (hxs : ∃ rest, xs = (c, true) :: rest)
      (hpass : Tracks unicode.isWord core mask none xs out) : ∃ rest, out = (c, true) :: rest := by
    obtain ⟨rest, rfl⟩ := hxs
    exact hpass.exists_head rfl hc
  obtain ⟨out, hout⟩ := hpass (hpass (hpass (hpass ⟨withMark true rest ++ [], rfl⟩ tracks_email) tracks_iban) tracks_phone)
    (tracks_tckn hdigits)
  have hscrub : trackScrub unicode (inText [] (c :: rest) []) = (c, true) :: out := hout
  rw [hscrub]
  exact List.mem_cons_self

include hdigits in
/-- What is masked everywhere ends with a character of a word. -/
theorem last_of_masked (hne : m ≠ []) (h : MaskedEverywhere unicode m) : m.getLast?.any unicode.isWord = true := by
  by_contra hword
  cases m using List.reverseRecOn with
  | nil => exact hne rfl
  | append_singleton front c _ =>
    rw [List.getLast?_concat] at hword
    have hc : unicode.isWord (c, true).1 = false := by simpa using hword
    refine not_maskedEverywhere (show Surrounds unicode [] [] from ⟨rfl, rfl⟩) c ?_ h
    have hpass {core : List Char → Prop} {mask : List Char} {xs out : List (Char × Bool)} (hxs : ∃ front, xs = front ++ [(c, true)])
        (hpass : Tracks unicode.isWord core mask none xs out) : ∃ front, out = front ++ [(c, true)] := by
      obtain ⟨front, rfl⟩ := hxs
      exact hpass.exists_last hc
    obtain ⟨out, hout⟩ := hpass (hpass (hpass (hpass ⟨withMark true front, rfl⟩ tracks_email) tracks_iban) tracks_phone)
      (tracks_tckn hdigits)
    have hscrub : trackScrub unicode (inText [] (front ++ [c]) []) = out ++ [(c, true)] := by
      rw [← hout, trackScrub, inText, withMark, withMark, withMark, List.map_append, List.map_nil, List.append_nil]
      rfl
    rw [hscrub]
    exact List.mem_append_right _ List.mem_cons_self

/-- A later pass keeps the characters that its words do not have. -/
theorem kept_after_email {xs : List (Char × Bool)} {c : Char} (hmem : (c, true) ∈ xs) (hiban : ∀ m, IsIban m → c ∉ m)
    (hphone : ∀ m, IsPhone m → c ∉ m) (hdecimal : isDecimal c = false) (htckn : unicode.KnowsDigits) :
    (c, true) ∈ trackTckn unicode (trackPhone unicode (trackIban unicode xs)) := by
  apply (tracks_tckn htckn).mem_of_outside (x := (c, true))
  · exact fun m hm hc => Bool.false_ne_true (hdecimal.symm.trans (hm.1.1 c hc))
  · exact tracks_phone.mem_of_outside (x := (c, true)) hphone (tracks_iban.mem_of_outside (x := (c, true)) hiban hmem)

/-- The characters of an account number. -/
theorem IsIban.mem {m : List Char} (hm : IsIban m) {c : Char} (hc : c ∈ m) : c = 'T' ∨ c = 'R' ∨ isDecimal c = true := by
  obtain ⟨digits, rfl, hdecimal, -⟩ := hm
  rcases List.mem_cons.mp hc with rfl | hc
  · exact .inl rfl
  · rcases List.mem_cons.mp hc with rfl | hc
    · exact .inr (.inl rfl)
    · exact .inr (.inr (hdecimal c hc))

/-- An address has one at sign. -/
theorem count_at {m : List Char} (hm : IsEmail unicode m) : m.count '@' = 1 := by
  obtain ⟨user, label, domain, rfl, ⟨-, huser⟩, ⟨-, hlabel⟩, -, hdomain⟩ := hm
  have hat : '@' ∉ label ++ '.' :: domain := fun hmem => Bool.false_ne_true
    ((isDomain_eq_false (isWord_ascii (by decide) (by decide) (by decide)) (by decide) (by decide)).symm.trans
      (mem_domain hlabel hdomain hmem))
  rw [List.count_append, List.count_cons_self, List.count_eq_zero.mpr (not_mem_user huser), List.count_eq_zero.mpr hat]

/-- The letters of the failing surroundings are of words. -/
theorem isWord_letter {c : Char} (hascii : c.toNat < 128) (hletter : (isAsciiDigit c || isAsciiLower c || isAsciiUpper c) = true) :
    unicode.isWord c = true := by
  rw [Unicode.isWord, unicode.ascii c hascii, hletter, Bool.true_or]

include hdigits in
/-- Where an address is masked everywhere, its name cannot be taken for the end of an address before it. -/
theorem name_of_masked (hm : IsEmail unicode m) (h : MaskedEverywhere unicode m) :
    '+' ∈ nameOf m ∨ (nameOf m).getLast?.any unicode.isWord = false := by
  by_contra hnot
  obtain ⟨user, label, domain, rfl, ⟨huserNe, huser⟩, hlabel, hdomain⟩ := hm
  rw [nameOf_email huser, not_or, Bool.not_eq_false] at hnot
  obtain ⟨hplus, hlast⟩ := hnot
  have hword : unicode.isWord '@' = false := isWord_ascii (by decide) (by decide) (by decide)
  have hpoint : unicode.isWord '.' = false := isWord_ascii (by decide) (by decide) (by decide)
  have hsurrounds : Surrounds unicode ['a', '@', 'b', '.'] [] := ⟨hpoint, rfl⟩
  refine not_maskedEverywhere hsurrounds '@' ?_ h
  apply kept_after_email _ _ _ (by decide) hdigits
  · -- the address before goes up to the at sign of this one
    have hlonger : IsEmail unicode (['a', '@', 'b', '.'] ++ user) := by
      refine ⟨['a'], ['b'], user, rfl, ⟨by decide, ?_⟩, ⟨by decide, ?_⟩, huserNe, ?_⟩
      · intro c hc
        rw [List.mem_singleton.mp hc, Unicode.isLocal, isWord_letter (by decide) (by decide)]
        rfl
      · intro c hc
        rw [List.mem_singleton.mp hc, Unicode.isLabel, isWord_letter (by decide) (by decide)]
        rfl
      · intro c hc
        have hlocal := huser c hc
        have hne : c ≠ '+' := fun heq => hplus (heq ▸ hc)
        simpa [Unicode.isLocal, Unicode.isDomain, hne] using hlocal
    have hstands : StandsLongest unicode.isWord (IsEmail unicode) none (['a', '@', 'b', '.'] ++ user)
        ('@' :: (label ++ '.' :: domain)) := by
      refine ⟨⟨hlonger, ?_, ?_⟩, ?_⟩
      · simp [Edge, @isWord_letter unicode 'a' (by decide) (by decide)]
      · rw [List.getLast?_append, getLast?_or_of_ne_nil huserNe, Edge, hlast]
        simp [hword]
      · rintro m' rest' hsplit ⟨hemail', -⟩
        by_contra hlong
        rcases List.append_eq_append_iff.mp hsplit with ⟨more, rfl, hmore⟩ | ⟨more, hmore, -⟩
        · cases more with
          | nil => simp at hlong
          | cons c more =>
            have hcount := count_at hemail'
            rw [List.count_append, count_at hlonger, ← (List.cons.inj hmore).1, List.count_cons_self] at hcount
            omega
        · rw [hmore, List.length_append] at hlong
          omega
    have htext : inText ['a', '@', 'b', '.'] (user ++ '@' :: (label ++ '.' :: domain)) [] =
        (withMark false ['a', '@', 'b', '.'] ++ withMark true user) ++ withMark true ('@' :: (label ++ '.' :: domain)) := by
      rw [inText, withMark, withMark, withMark, withMark, withMark, List.map_append, List.map_nil, List.append_nil, List.append_assoc]
    have hpass := @tracks_email unicode (inText ['a', '@', 'b', '.'] (user ++ '@' :: (label ++ '.' :: domain)) [])
    rw [htext] at hpass ⊢
    obtain ⟨out, hout, hnext⟩ := hpass.replaces (by simp [withMark]) (by simpa using hstands)
    rw [hout]
    apply List.mem_append_right
    apply @Pass.mem_of_uncovered _ _ _ _ _ _ [] _ _ hnext
    rintro b u v w rest hu - ⟨⟨name, _, _, hname, ⟨hnameNe, hlocal⟩, -⟩, -⟩
    obtain ⟨rfl, rfl⟩ := List.append_eq_nil_iff.mp hu.symm
    obtain ⟨d, name, rfl⟩ := List.exists_cons_of_ne_nil hnameNe
    exact not_mem_user hlocal ((List.cons.inj hname).1 ▸ List.mem_cons_self)
  · exact fun m hm hmem => absurd (hm.mem hmem) (by decide)
  · exact fun m hm hmem => absurd (hm.mem hmem) (by decide)

/-! ## Telephone numbers -/

include hspaces in
/-- A separator is of no word. -/
theorem isWord_separator {c : Char} (hc : isSeparator c = true) : unicode.isWord c = false := by
  simp only [isSeparator, Bool.or_eq_true, decide_eq_true_eq] at hc
  rcases hc with (hspace | rfl) | rfl
  · rw [Unicode.isWord, hspaces c hspace, Bool.false_or, decide_eq_false_iff_not]
    rintro rfl
    exact absurd hspace (by decide)
  · exact isWord_ascii (by decide) (by decide) (by decide)
  · exact isWord_ascii (by decide) (by decide) (by decide)

/-- A text without an at sign has no address, and one without a T no account number. -/
theorem tracks_to_phone {xs : List (Char × Bool)} (hat : '@' ∉ xs.map Prod.fst) (hletter : 'T' ∉ xs.map Prod.fst) :
    trackIban unicode (trackEmail unicode xs) = xs := by
  have hemail : trackEmail unicode xs = xs := by
    apply tracks_email.eq_of_absent _ hat
    rintro m ⟨user, label, domain, rfl, -⟩
    exact List.mem_append_right _ List.mem_cons_self
  rw [hemail]
  apply tracks_iban.eq_of_absent _ hletter
  rintro m ⟨digits, rfl, -⟩
  exact List.mem_cons_self

include hdigits in
/-- A number that is masked everywhere has no plus sign. -/
theorem plus_of_masked (hm : IsPhone m) (h : MaskedEverywhere unicode m) : '+' ∉ m := by
  intro hplus
  obtain ⟨u, v, hsplit⟩ := List.append_of_mem hplus
  rcases hm.split (by decide) hsplit with ⟨rfl, -, -⟩ | ⟨hseparator, -⟩
  · have hword := head_of_masked hdigits hm.ne_nil h
    rw [hsplit, List.nil_append, List.head?_cons, Option.any_some, isWord_ascii (by decide) (by decide) (by decide)] at hword
    exact Bool.false_ne_true hword
  · exact absurd hseparator (by decide)

/-- The last character of a kind in a text. -/
theorem exists_split_last {p : Char → Bool} {cs : List Char} (h : ∃ c ∈ cs, p c = true) :
    ∃ front c tail, cs = front ++ c :: tail ∧ p c = true ∧ ∀ d ∈ tail, p d = false := by
  induction cs with
  | nil =>
    obtain ⟨c, hc, -⟩ := h
    exact absurd hc List.not_mem_nil
  | cons c cs ih =>
    by_cases hrest : ∃ d ∈ cs, p d = true
    · obtain ⟨front, d, tail, rfl, hd, htail⟩ := ih hrest
      exact ⟨c :: front, d, tail, rfl, hd, htail⟩
    · have hnone : ∀ d ∈ cs, p d = false := fun d hd => Bool.eq_false_iff.mpr fun hp => hrest ⟨d, hd, hp⟩
      obtain ⟨d, hd, hp⟩ := h
      rcases List.mem_cons.mp hd with rfl | hd
      · exact ⟨[], d, cs, rfl, hp, hnone⟩
      · exact absurd hp (by rw [hnone d hd]; exact Bool.false_ne_true)

include hspaces in
/-- An address takes the digits after the last blank of a number that it follows. -/
theorem email_after_blank {front tail : List Char} {s : Char} (hs : isSpace s = true)
    (hfront : '@' ∉ front) (htail : ∀ c ∈ tail, unicode.isLocal c = true) (hhead : tail.head?.any unicode.isWord = true) :
    trackEmail unicode (inText [] (front ++ s :: tail) ['@', 'a', '.', 'b']) =
      withMark true front ++ (s, true) :: withMark false ['[', 'E', 'M', 'A', 'I', 'L', ']'] := by
  have hsword : unicode.isWord s = false := isWord_separator hspaces (by simp [isSeparator, hs])
  have hslocal : unicode.isLocal s = false := by
    rw [Unicode.isLocal, hsword]
    simp only [Bool.false_or, Bool.or_eq_false_iff, decide_eq_false_iff_not]
    refine ⟨⟨?_, ?_⟩, ?_⟩
    · rintro rfl
      exact absurd hs (by decide)
    · rintro rfl
      exact absurd hs (by decide)
    · rintro rfl
      exact absurd hs (by decide)
  have htailNe : tail ≠ [] := by
    rintro rfl
    exact absurd hhead Bool.false_ne_true
  have htext : inText [] (front ++ s :: tail) ['@', 'a', '.', 'b'] =
      withMark true (front ++ [s]) ++ (withMark true tail ++ withMark false ['@', 'a', '.', 'b']) := by
    simp [inText, withMark]
  have hpass := @tracks_email unicode (inText [] (front ++ s :: tail) ['@', 'a', '.', 'b'])
  rw [htext] at hpass ⊢
  -- no address begins up to the blank, since it would have the blank in its name
  have hfree : ∀ u v m rest, front ++ [s] = u ++ v → v ≠ [] →
      v ++ (withMark true tail ++ withMark false ['@', 'a', '.', 'b']).map Prod.fst = m ++ rest →
      ¬ Stands unicode.isWord (IsEmail unicode) (([] ++ u).getLast?.or none) m rest := by
    rintro u v m rest hsplit hv hrest ⟨⟨user, label, domain, rfl, ⟨-, huser⟩, -⟩, -⟩
    rw [List.map_append, map_fst_withMark, map_fst_withMark, ← List.append_assoc, List.append_assoc user] at hrest
    have hat : '@' ∉ v ++ tail := by
      intro hmem
      rcases List.mem_append.mp hmem with hmem | hmem
      · have : '@' ∈ front ++ [s] := hsplit ▸ List.mem_append_right u hmem
        rcases List.mem_append.mp this with hmem | hmem
        · exact hfront hmem
        · rw [← List.mem_singleton.mp hmem] at hs
          exact absurd hs (by decide)
      · exact not_mem_user htail hmem
    have huserEq := ((List.append_cons_inj_of_notMem hat (show '@' ∉ ['a', '.', 'b'] by decide)).mp hrest).1
    have hlast : v.getLast? = some s := by
      have : (front ++ [s]).getLast? = some s := List.getLast?_concat
      rwa [hsplit, List.getLast?_append, getLast?_or_of_ne_nil hv] at this
    have hmem : s ∈ user := huserEq ▸ List.mem_append_left tail (List.mem_of_getLast? hlast)
    exact Bool.false_ne_true (hslocal.symm.trans (huser s hmem))
  obtain ⟨out, hout, hnext⟩ := Pass.kept_part (u := []) hfree hpass
  have hword : StandsLongest unicode.isWord (IsEmail unicode) (([] ++ (front ++ [s])).getLast?.or none)
      ((withMark true tail ++ withMark false ['@', 'a', '.', 'b']).map Prod.fst) (([] : List (Char × Bool)).map Prod.fst) := by
    rw [List.map_append, map_fst_withMark, map_fst_withMark, List.nil_append, List.getLast?_concat, Option.some_or]
    refine ⟨⟨⟨tail, ['a'], ['b'], rfl, ⟨htailNe, htail⟩, ⟨by decide, ?_⟩, by decide, ?_⟩, ?_, ?_⟩, ?_⟩
    · intro c hc
      rw [List.mem_singleton.mp hc, Unicode.isLabel, isWord_letter (by decide) (by decide)]
      rfl
    · intro c hc
      rw [List.mem_singleton.mp hc, Unicode.isDomain, isWord_letter (by decide) (by decide)]
      rfl
    · rw [List.head?_append_of_ne_nil _ htailNe, Edge, hhead, Option.any_some, hsword]
      exact Bool.false_ne_true
    · rw [List.getLast?_append_of_ne_nil _ (by decide)]
      simp [Edge, @isWord_letter unicode 'b' (by decide) (by decide)]
    · intro m' rest' hsplit _
      have hlength := congrArg List.length hsplit
      simp only [List.map_nil, List.append_nil, List.length_append] at hlength ⊢
      omega
  rw [← List.append_nil (withMark true tail ++ withMark false ['@', 'a', '.', 'b'])] at hnext
  obtain ⟨rest, rfl, hnil⟩ := hnext.replaces (by simp [withMark]) hword
  rw [hout, hnil.out_nil]
  simp [withMark]

include hdigits hspaces in
/-- A number that is masked everywhere has no blank: an address after it takes the digits after its last blank. -/
theorem space_of_masked (hm : IsPhone m) (h : MaskedEverywhere unicode m) : ∀ c ∈ m, isSpace c = false := by
  by_contra hnot
  simp only [not_forall, Bool.not_eq_false] at hnot
  obtain ⟨c, hc, hspace⟩ := hnot
  obtain ⟨front, s, tail, rfl, hs, htail⟩ := exists_split_last ⟨c, hc, hspace⟩
  have hplus := plus_of_masked hdigits hm h
  have hdecimal : isDecimal s = false := isDecimal_separator (by simp [hs])
  have hsword : unicode.isWord s = false := isWord_separator hspaces (by simp [isSeparator, hs])
  have hhead : tail.head?.any unicode.isWord = true := by
    rcases hm.split hdecimal rfl with ⟨-, rfl, -⟩ | ⟨-, hfirst, -⟩
    · exact absurd hs (by decide)
    · cases tail with
      | nil => exact absurd hfirst Bool.false_ne_true
      | cons d tail => exact isWord_of_isDecimal hdigits hfirst
  have hlocal : ∀ d ∈ tail, unicode.isLocal d = true := by
    intro d hd
    have hmem : d ∈ front ++ s :: tail := List.mem_append_right _ (List.mem_cons_of_mem _ hd)
    rcases hm.mem hmem with rfl | hdigit | hseparator
    · exact absurd hmem hplus
    · rw [Unicode.isLocal, isWord_of_isDecimal hdigits hdigit]
      rfl
    · rw [htail d hd, Bool.false_or, Bool.or_eq_true, decide_eq_true_eq, decide_eq_true_eq] at hseparator
      rcases hseparator with rfl | rfl
      · simp [Unicode.isLocal]
      · simp [Unicode.isLocal]
  have hsurrounds : Surrounds unicode [] ['@', 'a', '.', 'b'] :=
    ⟨rfl, @isWord_ascii unicode '@' (by decide) (by decide) (by decide)⟩
  have hfront : ∀ d ∈ front, d = '+' ∨ isDecimal d = true ∨ (isSpace d || d = '.' || d = '-') = true :=
    fun d hd => hm.mem (List.mem_append_left _ hd)
  have hemail := email_after_blank hspaces hs (fun hat => absurd (hfront '@' hat) (by decide)) hlocal hhead
  refine not_maskedEverywhere hsurrounds s ?_ h
  rw [trackScrub, hemail]
  have hiban : trackIban unicode (withMark true front ++ (s, true) :: withMark false ['[', 'E', 'M', 'A', 'I', 'L', ']']) =
      withMark true front ++ (s, true) :: withMark false ['[', 'E', 'M', 'A', 'I', 'L', ']'] := by
    apply tracks_iban.eq_of_absent (c := 'T')
    · rintro m ⟨digits, rfl, -⟩
      exact List.mem_cons_self
    · rw [List.map_append, map_fst_withMark, List.map_cons, map_fst_withMark, List.mem_append, not_or]
      refine ⟨fun hmem => absurd (hfront 'T' hmem) (by decide), ?_⟩
      rw [List.mem_cons, not_or]
      refine ⟨?_, by decide⟩
      rintro rfl
      exact absurd hs (by decide)
  rw [hiban]
  apply (tracks_tckn hdigits).mem_of_outside (x := (s, true))
  · exact fun m hm hc => Bool.false_ne_true (hdecimal.symm.trans (hm.1.1 s hc))
  · apply tracks_phone.mem_of_uncovered (x := (s, true))
    rintro b u v w rest - hw ⟨hphone, -⟩
    cases w with
    | nil =>
      obtain ⟨front', d, hlast, hd⟩ := hphone.exists_last
      rw [List.map_append] at hlast
      obtain ⟨-, hds⟩ := List.append_inj' hlast rfl
      rw [← (List.cons.inj hds).1] at hd
      exact Bool.false_ne_true (hdecimal.symm.trans hd)
    | cons y w =>
      have hy : ('[', false) = y := (List.cons.inj hw).1
      refine (identifies_phone _ hphone).1 ?_
      rw [← hy]
      simp

/-- Digits after another number make it complete. -/
theorem IsPhone.borrow_four {digits : List Char} (h : IsDigits 4 digits) :
    IsPhone (['5', '3', '2', ' ', '4', '4', '4', ' '] ++ digits) := by
  obtain ⟨hdecimal, hlength⟩ := h
  obtain ⟨a, b, c, d, rfl⟩ := List.length_eq_four.mp hlength
  refine ⟨[], ['3', '2'], [' '], ['4', '4', '4'], [' '], [a, b], [], [c, d], rfl, .inr (.inr rfl), isDigits_of_all (by decide),
    .inr ⟨' ', rfl, by decide⟩, isDigits_of_all (by decide), .inr ⟨' ', rfl, by decide⟩, ⟨?_, rfl⟩, .inl rfl, ⟨?_, rfl⟩⟩
  · exact fun e he => hdecimal e (by simp only [List.mem_cons, List.not_mem_nil, or_false] at he ⊢; tauto)
  · exact fun e he => hdecimal e (by simp only [List.mem_cons, List.not_mem_nil, or_false] at he ⊢; tauto)

/-- Digits after the beginning of another number make it complete. -/
theorem IsPhone.borrow_seven {first second : List Char} (hfirst : IsDigits 3 first) (hsecond : IsDigits 4 second) :
    IsPhone (['5', '3', '2', ' '] ++ (first ++ second)) := by
  obtain ⟨hdecimal, hlength⟩ := hsecond
  obtain ⟨a, b, c, d, rfl⟩ := List.length_eq_four.mp hlength
  refine ⟨[], ['3', '2'], [' '], first, [], [a, b], [], [c, d], rfl, .inr (.inr rfl), isDigits_of_all (by decide),
    .inr ⟨' ', rfl, by decide⟩, hfirst, .inl rfl, ⟨?_, rfl⟩, .inl rfl, ⟨?_, rfl⟩⟩
  · exact fun e he => hdecimal e (by simp only [List.mem_cons, List.not_mem_nil, or_false] at he ⊢; tauto)
  · exact fun e he => hdecimal e (by simp only [List.mem_cons, List.not_mem_nil, or_false] at he ⊢; tauto)

include hdigits hspaces in
/-- A number is not masked everywhere when its first digits complete another number. -/
theorem not_masked_of_borrow {before digits v : List Char} {x : Char} (hborrow : IsPhone (before ++ digits))
    (hplain : '@' ∉ before ∧ 'T' ∉ before ∧ before ≠ [] ∧ before.head? = some '5' ∧ before.getLast? = some ' ')
    (hm : IsPhone (digits ++ x :: v)) (hx : isSeparator x = true) : ¬ MaskedEverywhere unicode (digits ++ x :: v) := by
  obtain ⟨hat, hletter, hne, hhead, hlast⟩ := hplain
  have hxword := isWord_separator hspaces hx
  have hxdecimal := isDecimal_separator hx
  have hsurrounds : Surrounds unicode before [] := by
    refine ⟨?_, rfl⟩
    rw [hlast, Option.any_some]
    exact isWord_separator hspaces (by decide)
  refine not_maskedEverywhere hsurrounds x ?_
  have hplainText : trackIban unicode (trackEmail unicode (inText before (digits ++ x :: v) [])) =
      inText before (digits ++ x :: v) [] := by
    apply tracks_to_phone
    · rw [inText, List.map_append, List.map_append, map_fst_withMark, map_fst_withMark, map_fst_withMark, List.append_nil,
        List.mem_append, not_or]
      exact ⟨hat, fun hmem => absurd (hm.mem hmem) (by decide)⟩
    · rw [inText, List.map_append, List.map_append, map_fst_withMark, map_fst_withMark, map_fst_withMark, List.append_nil,
        List.mem_append, not_or]
      exact ⟨hletter, fun hmem => absurd (hm.mem hmem) (by decide)⟩
  rw [trackScrub, hplainText]
  apply (tracks_tckn hdigits).mem_of_outside (x := (x, true))
  · exact fun m hm hc => Bool.false_ne_true (hxdecimal.symm.trans (hm.1.1 x hc))
  · have htext : inText before (digits ++ x :: v) [] =
        (withMark false before ++ withMark true digits) ++ ((x, true) :: withMark true v) := by
      simp [inText, withMark]
    have hpass := @tracks_phone unicode (inText before (digits ++ x :: v) [])
    rw [htext] at hpass ⊢
    have hstands : StandsLongest unicode.isWord IsPhone none ((withMark false before ++ withMark true digits).map Prod.fst)
        (((x, true) :: withMark true v).map Prod.fst) := by
      rw [List.map_append, map_fst_withMark, map_fst_withMark, List.map_cons, map_fst_withMark]
      refine ⟨⟨hborrow, ?_, ?_⟩, fun m' rest' hsplit hstands' => hborrow.length_le hstands'.1 hsplit⟩
      · rw [List.head?_append_of_ne_nil _ hne, hhead, Edge, Option.any_some, isWord_letter (by decide) (by decide)]
        exact Bool.false_ne_true
      · obtain ⟨front, d, hfront, hd⟩ := hborrow.exists_last
        rw [hfront, List.getLast?_concat, Edge, Option.any_some, isWord_of_isDecimal hdigits hd, List.head?_cons, Option.any_some,
          hxword]
        exact Bool.true_eq_false_eq_False
    obtain ⟨out, hout, hnext⟩ := hpass.replaces (by simp [withMark, hne]) hstands
    rw [hout]
    apply List.mem_append_right
    apply @Pass.mem_of_uncovered _ _ _ _ _ _ [] _ _ hnext
    rintro b u w w' rest hu - ⟨hphone, -⟩
    obtain ⟨rfl, rfl⟩ := List.append_eq_nil_iff.mp hu.symm
    have hfirst := hphone.head
    rw [List.nil_append, List.map_cons, List.head?_cons] at hfirst
    simp only [Option.some.injEq] at hfirst
    rcases hfirst with rfl | rfl | rfl
    · exact absurd hx (by decide)
    · exact absurd hx (by decide)
    · exact absurd hx (by decide)

include hdigits hspaces in
/-- A number that is masked everywhere and starts with a zero goes on without a separator. -/
theorem zero_of_masked (hm : IsPhone m) (h : MaskedEverywhere unicode m) (hzero : m.head? = some '0') :
    ∀ c ∈ m.take 8, isDecimal c = true := by
  have hphone := hm
  obtain ⟨start, area, s₁, first, s₂, second, s₃, third, rfl, hstart, harea, hs₁, hfirst, hs₂, hsecond, hs₃, hthird⟩ := hm
  obtain rfl : start = ['0'] := by
    rcases hstart with rfl | rfl | rfl
    · exact absurd (show some '+' = some '0' from hzero) (by decide)
    · rfl
    · exact absurd (show some '5' = some '0' from hzero) (by decide)
  have hfour : IsDigits 4 ('0' :: '5' :: area) :=
    ⟨List.forall_mem_cons.mpr ⟨by decide, List.forall_mem_cons.mpr ⟨by decide, harea.1⟩⟩, by simp [harea.2]⟩
  rcases hs₁ with rfl | ⟨x, rfl, hx⟩
  · rcases hs₂ with rfl | ⟨x, rfl, hx⟩
    · -- without separators the first nine characters are digits
      have hsplit : ['0'] ++ '5' :: (area ++ ([] ++ (first ++ ([] ++ (second ++ (s₃ ++ third)))))) =
          (('0' :: '5' :: area) ++ (first ++ second)) ++ (s₃ ++ third) := by simp
      have hlength : (('0' :: '5' :: area) ++ (first ++ second)).length = 9 := by
        rw [List.length_append, List.length_append, hfour.2, hfirst.2, hsecond.2]
      intro c hc
      rw [hsplit, List.take_append_of_le_length (by omega)] at hc
      rcases List.mem_append.mp (List.mem_of_mem_take hc) with hc | hc
      · exact hfour.1 c hc
      · rcases List.mem_append.mp hc with hc | hc
        · exact hfirst.1 c hc
        · exact hsecond.1 c hc
    · obtain ⟨a, b, rfl⟩ := List.length_eq_two.mp harea.2
      have hthree : IsDigits 3 ['0', '5', a] :=
        ⟨fun c hc => hfour.1 c (by simp only [List.mem_cons, List.not_mem_nil, or_false] at hc ⊢; tauto), rfl⟩
      have hlater : IsDigits 4 (b :: first) :=
        ⟨List.forall_mem_cons.mpr ⟨harea.1 b (by simp), hfirst.1⟩, by rw [List.length_cons, hfirst.2]⟩
      exact absurd h (@not_masked_of_borrow _ hdigits hspaces ['5', '3', '2', ' '] (['0', '5', a] ++ (b :: first)) _ x
        (IsPhone.borrow_seven hthree hlater) (by decide) hphone hx)
  · exact absurd h (@not_masked_of_borrow _ hdigits hspaces ['5', '3', '2', ' ', '4', '4', '4', ' '] ('0' :: '5' :: area) _ x
      (IsPhone.borrow_four hfour) (by decide) hphone hx)

end Gaps

/-- In every surrounding that does not touch it with a character of a word, an account number and an identity number are masked in
full; a telephone number exactly when it has no plus sign and no blank and, if it starts with a zero, eight digits before its first
separator; an address exactly when it begins and ends with characters of words and its name has a plus sign or ends outside of
words. -/
theorem identifiers_masked_iff (unicode : Unicode) (hdigits : unicode.KnowsDigits) (hspaces : unicode.KnowsSpaces) (m : List Char) :
    (IsIban m → MaskedEverywhere unicode m) ∧ (IsTckn m → MaskedEverywhere unicode m) ∧
      (IsPhone m → (MaskedEverywhere unicode m ↔ SteadyPhone m)) ∧
      (IsEmail unicode m → (MaskedEverywhere unicode m ↔ SteadyEmail unicode m)) := by
  refine ⟨masked_iban hdigits, masked_tckn hdigits, fun hm => ⟨fun h => ?_, SteadyPhone.masked hdigits hm⟩,
    fun hm => ⟨fun h => ?_, SteadyEmail.masked hdigits hm⟩⟩
  · exact ⟨plus_of_masked hdigits hm h, space_of_masked hdigits hspaces hm h, zero_of_masked hdigits hspaces hm h⟩
  · have hne : m ≠ [] := fun hnil => identifies_email.ne_nil (hnil ▸ hm)
    exact ⟨head_of_masked hdigits hne h, last_of_masked hdigits hne h, name_of_masked hdigits hm h⟩

/-- Blanks are not alphanumeric for a database that knows the digits of every script and the letters of ASCII. -/
theorem knowsSpaces_withDigits : Unicode.withDigits.KnowsSpaces := by
  intro c hc
  by_cases hascii : c.toNat < 128
  · have hall : ((List.range 128).all fun n => !isSpace (Char.ofNat n) ||
        !(isAsciiDigit (Char.ofNat n) || isAsciiLower (Char.ofNat n) || isAsciiUpper (Char.ofNat n))) = true := by decide
    have hnot := List.all_eq_true.mp hall c.toNat (List.mem_range.mpr hascii)
    rw [Char.ofNat_toNat, hc, Bool.not_true, Bool.false_or, Bool.not_eq_true'] at hnot
    exact (if_pos hascii).trans hnot
  · apply (if_neg hascii).trans
    cases hdecimal : isDecimal c with
    | false => rfl
    | true => exact absurd (hc.symm.trans (isSpace_of_isDecimal hdecimal)) Bool.true_eq_false_eq_False

/-- A number without prefix and separators is masked everywhere. -/
theorem identifiers_masked_iff_plain :
    IsPhone "5551112233".toList ∧ (MaskedEverywhere .withDigits "5551112233".toList ↔ SteadyPhone "5551112233".toList) := by
  have hphone : IsPhone "5551112233".toList :=
    ⟨[], ['5', '5'], [], ['1', '1', '1'], [], ['2', '2'], [], ['3', '3'], rfl, .inr (.inr rfl), isDigits_of_all (by decide), .inl rfl,
      isDigits_of_all (by decide), .inl rfl, isDigits_of_all (by decide), .inl rfl, isDigits_of_all (by decide)⟩
  exact ⟨hphone, (identifiers_masked_iff .withDigits knowsDigits_withDigits knowsSpaces_withDigits _).2.2.1 hphone⟩

/-- A number with the international prefix after a blank stays in the text. -/
theorem prefixed_not_masked :
    IsPhone "+905551112233".toList ∧ Surrounds .withDigits "Call ".toList [] ∧
      (scrub .withDigits "Call +905551112233").text = "Call +905551112233" ∧
      ¬ MaskedIn .withDigits "Call ".toList "+905551112233".toList [] := by
  refine ⟨⟨['+', '9', '0'], ['5', '5'], [], ['1', '1', '1'], [], ['2', '2'], [], ['3', '3'], rfl, .inl rfl, isDigits_of_all (by decide), .inl rfl,
    isDigits_of_all (by decide), .inl rfl, isDigits_of_all (by decide), .inl rfl, isDigits_of_all (by decide)⟩, ⟨by decide, rfl⟩, by decide, ?_⟩
  intro h
  have hmarked : ('+', true) ∈ trackScrub .withDigits (inText "Call ".toList "+905551112233".toList []) := by decide
  exact Bool.false_ne_true (h _ hmarked).symm

end FleetWorkflow.Core
