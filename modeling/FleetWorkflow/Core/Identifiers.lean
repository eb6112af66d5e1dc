import FleetWorkflow.Core.PiiScrub
import FleetWorkflow.Python.Text
import FleetWorkflow.Python.Replacement

/-!
# The identifiers that are scrubbed

The languages of the four patterns. Each pattern takes the words of its language that stand between two edges, the longest
first, so that a pass of the scrub is a replacement of these words.
-/

namespace FleetWorkflow.Core

open Python

/-- A character of the local part of an address. -/
def Unicode.isLocal (unicode : Unicode) (c : Char) : Bool := unicode.isWord c || c = '.' || c = '+' || c = '-'

/-- A character of the first label of a domain. -/
def Unicode.isLabel (unicode : Unicode) (c : Char) : Bool := unicode.isWord c || c = '-'

/-- A character of the rest of a domain. -/
def Unicode.isDomain (unicode : Unicode) (c : Char) : Bool := unicode.isWord c || c = '.' || c = '-'

/-- An e-mail address. -/
def IsEmail (unicode : Unicode) (m : List Char) : Prop :=
  ∃ user label domain, m = user ++ '@' :: (label ++ '.' :: domain) ∧ (user ≠ [] ∧ ∀ c ∈ user, unicode.isLocal c = true) ∧
    (label ≠ [] ∧ ∀ c ∈ label, unicode.isLabel c = true) ∧ domain ≠ [] ∧ ∀ c ∈ domain, unicode.isDomain c = true

/-- A Turkish account number. -/
def IsIban (m : List Char) : Prop := ∃ digits, m = 'T' :: 'R' :: digits ∧ (∀ c ∈ digits, isDecimal c = true) ∧ digits.length = 24

/-- At most one separator. -/
def IsSeparator (s : List Char) : Prop := s = [] ∨ ∃ c, s = [c] ∧ (isSpace c || c = '.' || c = '-') = true

/-- A number of digits. -/
def IsDigits (n : ℕ) (m : List Char) : Prop := (∀ c ∈ m, isDecimal c = true) ∧ m.length = n

/-- Digits that are written out. -/
theorem isDigits_of_all {m : List Char} (h : m.all isDecimal = true) : IsDigits m.length m := ⟨List.all_eq_true.mp h, rfl⟩

/-- A Turkish mobile number, with its prefix and the groups of digits between its separators. -/
def IsPhone (m : List Char) : Prop :=
  ∃ start area s₁ first s₂ second s₃ third, m = start ++ '5' :: (area ++ (s₁ ++ (first ++ (s₂ ++ (second ++ (s₃ ++ third)))))) ∧
    (start = ['+', '9', '0'] ∨ start = ['0'] ∨ start = []) ∧ IsDigits 2 area ∧ IsSeparator s₁ ∧ IsDigits 3 first ∧
    IsSeparator s₂ ∧ IsDigits 2 second ∧ IsSeparator s₃ ∧ IsDigits 2 third

section Spellings

variable {unicode : Unicode} {isWord : Char → Bool} {b : Option Char} {m rest : List Char}

/-- A sequence that ends with a boundary. -/
theorem takes_all_boundary {re : Re} {res : List Re} : (Re.all (re :: (res ++ [.boundary]))).Takes isWord b m rest ↔
    (Re.all (re :: res)).Takes isWord b m rest ∧ Edge isWord (m.getLast?.or b) rest.head? := by
  induction res generalizing re b m with
  | nil =>
    constructor
    · rintro ⟨m₁, m₂, rfl, htakes, rfl, hend⟩
      rw [List.append_nil]
      exact ⟨htakes, hend⟩
    · rintro ⟨htakes, hend⟩
      exact ⟨m, [], (List.append_nil m).symm, htakes, rfl, hend⟩
  | cons next res ih =>
    constructor
    · rintro ⟨m₁, m₂, rfl, htakes, hrest⟩
      obtain ⟨hnext, hend⟩ := ih.mp hrest
      exact ⟨⟨m₁, m₂, rfl, htakes, hnext⟩, by rwa [List.getLast?_append, Option.or_assoc]⟩
    · rintro ⟨⟨m₁, m₂, rfl, htakes, hnext⟩, hend⟩
      rw [List.getLast?_append, Option.or_assoc] at hend
      exact ⟨m₁, m₂, rfl, htakes, ih.mpr ⟨hnext, hend⟩⟩

/-- A sequence between two boundaries. -/
theorem takes_bounded {re : Re} {res : List Re} : (Re.all (.boundary :: re :: (res ++ [.boundary]))).Takes isWord b m rest ↔
    (Re.all (re :: res)).Takes isWord b m rest ∧ Edge isWord b (m ++ rest).head? ∧ Edge isWord (m.getLast?.or b) rest.head? := by
  constructor
  · rintro ⟨_, m', rfl, ⟨rfl, hstart⟩, htakes⟩
    obtain ⟨htakes, hend⟩ := takes_all_boundary.mp htakes
    exact ⟨htakes, hstart, hend⟩
  · rintro ⟨htakes, hstart, hend⟩
    exact ⟨[], m, rfl, ⟨rfl, hstart⟩, takes_all_boundary.mpr ⟨htakes, hend⟩⟩

/-- A bounded sequence takes the words of a language that stand between edges. -/
theorem takes_iff_stands {re : Re} {res : List Re} {core : List Char → Prop} (hnonempty : ¬ core [])
    (hcore : ∀ b m rest, (Re.all (re :: res)).Takes isWord b m rest ↔ core m) :
    (Re.all (.boundary :: re :: (res ++ [.boundary]))).Takes isWord b m rest ↔ Stands isWord core b m rest := by
  rw [takes_bounded, hcore, Stands]
  apply and_congr_right
  intro hm
  have hne : m ≠ [] := by
    rintro rfl
    exact hnonempty hm
  rw [List.head?_append_of_ne_nil _ hne, getLast?_or_of_ne_nil hne]

/-- Where all words of a language that begin a text are equally long, the longest is taken first. -/
theorem spells_of_unique {re : Re} {res : List Re} {core : List Char → Prop} (hnonempty : ¬ core [])
    (hcore : ∀ b m rest, (Re.all (re :: res)).Takes isWord b m rest ↔ core m)
    (hunique : ∀ m rest m' rest', core m → core m' → m ++ rest = m' ++ rest' → m'.length ≤ m.length) :
    (Re.all (.boundary :: re :: (res ++ [.boundary]))).Spells isWord core where
  takes _ _ _ := takes_iff_stands hnonempty hcore
  nonempty := hnonempty
  greedy := by
    apply Re.greedy_of_unique
    intro b m rest m' rest' htakes htakes'
    exact hunique m rest m' rest' ((takes_iff_stands hnonempty hcore).mp htakes).1 ((takes_iff_stands hnonempty hcore).mp htakes').1

/-- The pattern of eleven digits. -/
theorem spells_tckn : tcknCandidateRe.Spells isWord (IsDigits 11) := by
  apply @spells_of_unique isWord (.times 11 isDecimal) []
  · rintro ⟨-, hnever⟩
    cases hnever
  · intro b m rest
    exact Re.takes_times
  · intro m rest m' rest' hm hm' _
    rw [hm.2, hm'.2]

/-- The pattern of an account number. -/
theorem spells_iban : trIbanRe.Spells isWord IsIban := by
  apply @spells_of_unique isWord (.text ['T', 'R']) [.times 2 isDecimal, .times 5 isDecimal, .times 17 isDecimal]
  · rintro ⟨digits, hnever, -⟩
    cases hnever
  · intro b m rest
    simp only [Re.all, Re.takes_seq, Re.takes_text, Re.takes_times]
    constructor
    · rintro ⟨_, _, rfl, rfl, check, _, rfl, ⟨hcheck, hcheckLength⟩, bank, account, rfl, ⟨hbank, hbankLength⟩, haccount, haccountLength⟩
      refine ⟨check ++ (bank ++ account), rfl, ?_, by simp [hcheckLength, hbankLength, haccountLength]⟩
      simp only [List.mem_append]
      rintro c (hc | hc | hc)
      · exact hcheck c hc
      · exact hbank c hc
      · exact haccount c hc
    · rintro ⟨digits, rfl, hdigits, hlength⟩
      refine ⟨['T', 'R'], digits, rfl, rfl, digits.take 2, digits.drop 2, (List.take_append_drop 2 digits).symm, ⟨?_, ?_⟩,
        (digits.drop 2).take 5, (digits.drop 2).drop 5, (List.take_append_drop 5 _).symm, ⟨?_, ?_⟩, ?_, ?_⟩
      · exact fun c hc => hdigits c (List.mem_of_mem_take hc)
      · rw [List.length_take]
        omega
      · exact fun c hc => hdigits c (List.mem_of_mem_drop (List.mem_of_mem_take hc))
      · rw [List.length_take, List.length_drop]
        omega
      · exact fun c hc => hdigits c (List.mem_of_mem_drop (List.mem_of_mem_drop hc))
      · rw [List.length_drop, List.length_drop]
        omega
  · rintro m rest m' rest' ⟨digits, rfl, -, hlength⟩ ⟨digits', rfl, -, hlength'⟩ _
    simp [hlength, hlength']

/-- Digits are all counted. -/
theorem IsDigits.countP {n : ℕ} (h : IsDigits n m) : m.countP isDecimal = n := by
  rw [List.countP_eq_length.mpr h.1, h.2]

/-- A separator is no digit. -/
theorem isDecimal_separator {c : Char} (h : (isSpace c || c = '.' || c = '-') = true) : isDecimal c = false := by
  cases hdecimal : isDecimal c with
  | false => rfl
  | true =>
    have hspace := isSpace_of_isDecimal hdecimal
    simp only [hspace, Bool.false_or, Bool.or_eq_true, decide_eq_true_eq] at h
    rcases h with rfl | rfl
    · exact absurd hdecimal (by decide)
    · exact absurd hdecimal (by decide)

/-- A separator counts nothing. -/
theorem IsSeparator.countP (h : IsSeparator m) : m.countP isDecimal = 0 := by
  rcases h with rfl | ⟨c, rfl, hc⟩
  · rfl
  · simp [isDecimal_separator hc]

/-- The number of digits of a telephone number, by its first character. -/
def phoneDigits : Option Char → ℕ
  | some '+' => 12
  | some '0' => 11
  | _ => 10

/-- A telephone number has as many digits as its first character says. -/
theorem IsPhone.countP (h : IsPhone m) : m.countP isDecimal = phoneDigits m.head? := by
  obtain ⟨start, area, s₁, first, s₂, second, s₃, third, rfl, hstart, harea, hs₁, hfirst, hs₂, hsecond, hs₃, hthird⟩ := h
  have hfive : isDecimal '5' = true := by decide
  have hcount : (start ++ '5' :: (area ++ (s₁ ++ (first ++ (s₂ ++ (second ++ (s₃ ++ third))))))).countP isDecimal =
      start.countP isDecimal + 10 := by
    simp only [List.countP_append, List.countP_cons, hfive, if_true, harea.countP, hs₁.countP, hfirst.countP, hs₂.countP,
      hsecond.countP, hs₃.countP, hthird.countP]
  rw [hcount]
  rcases hstart with rfl | rfl | rfl
  · rfl
  · rfl
  · rfl

/-- A telephone number ends with a digit. -/
theorem IsPhone.exists_last (h : IsPhone m) : ∃ front c, m = front ++ [c] ∧ isDecimal c = true := by
  obtain ⟨start, area, s₁, first, s₂, second, s₃, third, rfl, -, -, -, -, -, -, -, hthird⟩ := h
  cases third using List.reverseRecOn with
  | nil => exact absurd hthird.2 (by decide)
  | append_singleton front c _ =>
    exact ⟨start ++ '5' :: (area ++ (s₁ ++ (first ++ (s₂ ++ (second ++ (s₃ ++ front)))))), c, by simp,
      hthird.1 c (List.mem_append_right _ List.mem_cons_self)⟩

/-- A telephone number is not empty. -/
theorem IsPhone.ne_nil (h : IsPhone m) : m ≠ [] := by
  obtain ⟨front, c, rfl, -⟩ := h.exists_last
  simp

/-- Two telephone numbers that begin a text are the same. -/
theorem IsPhone.length_le {m' rest' : List Char} (h : IsPhone m) (h' : IsPhone m') (hsplit : m ++ rest = m' ++ rest') :
    m'.length ≤ m.length := by
  have hhead : m.head? = m'.head? := by
    rw [← List.head?_append_of_ne_nil m h.ne_nil, hsplit, List.head?_append_of_ne_nil m' h'.ne_nil]
  rcases List.append_eq_append_iff.mp hsplit with ⟨more, rfl, -⟩ | ⟨more, rfl, -⟩
  · -- a longer number would have more digits
    have hcount := h'.countP
    rw [List.countP_append, ← hhead, h.countP] at hcount
    obtain ⟨front, c, hlast, hc⟩ := h'.exists_last
    cases more using List.reverseRecOn with
    | nil => simp
    | append_singleton more d _ =>
      rw [← List.append_assoc] at hlast
      obtain ⟨-, hd⟩ := List.append_inj' hlast rfl
      rw [List.cons.inj hd |>.1, List.countP_append, List.countP_cons, hc] at hcount
      simp at hcount
  · rw [List.length_append]
    omega

/-- The pattern of a telephone number. -/
theorem spells_phone : trPhoneRe.Spells isWord IsPhone := by
  apply @spells_of_unique isWord (.alt (.alt (.text ['+', '9', '0']) (.text ['0'])) (.all [])) [.one (· = '5'),
    .times 2 isDecimal, phoneSeparator, .times 3 isDecimal, phoneSeparator, .times 2 isDecimal, phoneSeparator,
    .times 2 isDecimal]
  · exact fun h => h.ne_nil rfl
  · intro b m rest
    simp only [Re.all, phoneSeparator, Re.takes_seq, Re.takes_times, Re.takes_maybe, Re.takes_one, decide_eq_true_eq]
    constructor
    · rintro ⟨start, _, rfl, hstart, _, _, rfl, ⟨_, rfl, rfl⟩, area, _, rfl, harea, s₁, _, rfl, hs₁, first, _, rfl, hfirst, s₂, _,
        rfl, hs₂, second, _, rfl, hsecond, s₃, third, rfl, hs₃, hthird⟩
      refine ⟨start, area, s₁, first, s₂, second, s₃, third, rfl, ?_, harea, hs₁, hfirst, hs₂, hsecond, hs₃, hthird⟩
      rcases hstart with (hstart | hstart) | hstart
      · exact .inl (Re.takes_text.mp hstart)
      · exact .inr (.inl (Re.takes_text.mp hstart))
      · exact .inr (.inr (Re.takes_all_nil.mp hstart))
    · rintro ⟨start, area, s₁, first, s₂, second, s₃, third, rfl, hstart, harea, hs₁, hfirst, hs₂, hsecond, hs₃, hthird⟩
      refine ⟨start, _, rfl, ?_, ['5'], _, rfl, ⟨_, rfl, rfl⟩, area, _, rfl, harea, s₁, _, rfl, hs₁, first, _, rfl, hfirst, s₂, _,
        rfl, hs₂, second, _, rfl, hsecond, s₃, third, rfl, hs₃, hthird⟩
      rcases hstart with hstart | hstart | hstart
      · exact .inl (.inl (Re.takes_text.mpr hstart))
      · exact .inl (.inr (Re.takes_text.mpr hstart))
      · exact .inr (Re.takes_all_nil.mpr hstart)
  · exact fun m rest m' rest' h h' hsplit => h.length_le h' hsplit

/-- A character of ASCII that is no letter, digit or underscore is of no word. -/
theorem isWord_ascii {c : Char} (hascii : c.toNat < 128) (hnot : (isAsciiDigit c || isAsciiLower c || isAsciiUpper c) = false)
    (hunderscore : c ≠ '_') : unicode.isWord c = false := by
  rw [Unicode.isWord, unicode.ascii c hascii, hnot]
  simpa using hunderscore

/-- An at sign is not in a local part. -/
theorem isLocal_at : unicode.isLocal '@' = false := by
  simp [Unicode.isLocal, @isWord_ascii unicode '@' (by decide) (by decide) (by decide)]

/-- A point is not in a label. -/
theorem isLabel_point : unicode.isLabel '.' = false := by
  simp [Unicode.isLabel, @isWord_ascii unicode '.' (by decide) (by decide) (by decide)]

/-- The pattern of an e-mail address. -/
theorem spells_email : (emailRe unicode).Spells unicode.isWord (IsEmail unicode) := by
  have hnonempty : ¬ IsEmail unicode [] := by
    rintro ⟨user, label, domain, hnever, -⟩
    simp at hnever
  have hcore (b m rest) : (Re.all [.chars unicode.isLocal 1 none, .one (· = '@'), .chars unicode.isLabel 1 none, .one (· = '.'),
      .chars unicode.isDomain 1 none]).Takes unicode.isWord b m rest ↔ IsEmail unicode m := by
    simp only [Re.all, Re.takes_seq, Re.takes_one, decide_eq_true_eq]
    constructor
    · rintro ⟨user, _, rfl, ⟨huser, huserLength, -⟩, _, _, rfl, ⟨_, rfl, rfl⟩, label, _, rfl, ⟨hlabel, hlabelLength, -⟩, _, domain, rfl,
        ⟨_, rfl, rfl⟩, hdomain, hdomainLength, -⟩
      exact ⟨user, label, domain, rfl, ⟨List.length_pos_iff.mp huserLength, huser⟩, ⟨List.length_pos_iff.mp hlabelLength, hlabel⟩,
        List.length_pos_iff.mp hdomainLength, hdomain⟩
    · rintro ⟨user, label, domain, rfl, ⟨huserNe, huser⟩, ⟨hlabelNe, hlabel⟩, hdomainNe, hdomain⟩
      have hopen {n : ℕ} : ∀ most ∈ (none : Option ℕ), n ≤ most := by
        intro most hmost
        cases hmost
      refine ⟨user, _, rfl, ⟨huser, List.length_pos_iff.mpr huserNe, hopen⟩, ['@'], _, rfl, ⟨_, rfl, rfl⟩, label,
        _, rfl, ⟨hlabel, List.length_pos_iff.mpr hlabelNe, hopen⟩, ['.'], domain, rfl, ⟨_, rfl, rfl⟩, hdomain,
        List.length_pos_iff.mpr hdomainNe, hopen⟩
  refine ⟨fun b m rest => @takes_iff_stands unicode.isWord b m rest (.chars unicode.isLocal 1 none) [.one (· = '@'),
    .chars unicode.isLabel 1 none, .one (· = '.'), .chars unicode.isDomain 1 none] _ hnonempty hcore, hnonempty, ?_⟩
  apply Re.LongestFirst.greedy
  apply Re.LongestFirst.boundary_seq
  apply Re.LongestFirst.run_seq
  · intro c hc
    rw [of_decide_eq_true hc]
    exact isLocal_at
  · apply Re.LongestFirst.run_seq
    · intro c hc
      rw [of_decide_eq_true hc]
      exact isLabel_point
    · exact (Re.longestFirst_chars _ _ _).seq_boundary

end Spellings

end FleetWorkflow.Core
