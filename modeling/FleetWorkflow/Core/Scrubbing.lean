import FleetWorkflow.Core.Identifiers

/-!
# Scrubbing once

After a scrub no identifier stands in the text: each pass leaves no word of its own language, and no mask brings a word of
another language about. A second scrub therefore finds nothing, and a scrub has found something exactly when it changed the text.
-/

namespace FleetWorkflow.Core

open Python

/-- The digits of every script are alphanumeric. -/
def Unicode.KnowsDigits (unicode : Unicode) : Prop := ∀ c, isDecimal c = true → unicode.isAlnum c = true

/-- A character database that knows the letters of ASCII and the digits of every script. -/
def Unicode.withDigits : Unicode where
  isAlnum c := if c.toNat < 128 then isAsciiDigit c || isAsciiLower c || isAsciiUpper c else isDecimal c
  ascii _ h := if_pos h

/-- It knows the digits. -/
theorem knowsDigits_withDigits : Unicode.withDigits.KnowsDigits :=
  fun _ hc => forall_isDecimal (by decide +kernel) hc

/-- An identity number whose check digits are right. -/
def IsTckn (m : List Char) : Prop := IsDigits 11 m ∧ tcknChecksumValid m = true

/-- The words of a language are identifiers: they have an at sign or a digit, and no brackets. -/
def Identifies (core : List Char → Prop) : Prop :=
  ∀ m, core m → '[' ∉ m ∧ ']' ∉ m ∧ ∃ c ∈ m, c = '@' ∨ isDecimal c = true

/-- A mask has brackets, and neither an at sign nor a digit. -/
def IsMask (mask : List Char) : Prop :=
  ∃ inner, mask = '[' :: inner ++ [']'] ∧ (mask.all fun c => c ≠ '@' && !isDecimal c) = true

/-- A mask is no part of an identifier. -/
theorem Identifies.foreign {core : List Char → Prop} {mask : List Char} (hcore : Identifies core) (hmask : IsMask mask) :
    Foreign core mask := by
  obtain ⟨inner, hinner, hplain⟩ := hmask
  refine ⟨⟨'[', inner ++ [']'], hinner, fun m hm => (hcore m hm).1⟩, ⟨'[' :: inner, ']', hinner, fun m hm => (hcore m hm).2.1⟩, ?_⟩
  intro m hm
  obtain ⟨-, -, c, hc, hkind⟩ := hcore m hm
  refine ⟨c, hc, fun hmem => ?_⟩
  have hplain := List.all_eq_true.mp hplain c hmem
  simp only [Bool.and_eq_true, decide_eq_true_eq, Bool.not_eq_true'] at hplain
  rcases hkind with hat | hdecimal
  · exact hplain.1 hat
  · exact Bool.false_ne_true (hplain.2.symm.trans hdecimal)

/-! ## Identifiers have no brackets -/

section Brackets

variable {unicode : Unicode}

/-- A bracket is not in an address. -/
theorem identifies_email : Identifies (IsEmail unicode) := by
  have hnot (c : Char) (hascii : c.toNat < 128) (hword : (isAsciiDigit c || isAsciiLower c || isAsciiUpper c) = false)
      (hplain : c ≠ '_' ∧ c ≠ '@' ∧ c ≠ '.' ∧ c ≠ '+' ∧ c ≠ '-') {m : List Char} (hm : IsEmail unicode m) : c ∉ m := by
    obtain ⟨user, label, domain, rfl, ⟨-, huser⟩, ⟨-, hlabel⟩, -, hdomain⟩ := hm
    have hc := @isWord_ascii unicode c hascii hword hplain.1
    simp only [List.mem_append, List.mem_cons]
    rintro (hmem | hmem | hmem | hmem | hmem)
    · simpa [Unicode.isLocal, hc, hplain] using huser c hmem
    · exact hplain.2.1 hmem
    · simpa [Unicode.isLabel, hc, hplain] using hlabel c hmem
    · exact hplain.2.2.1 hmem
    · simpa [Unicode.isDomain, hc, hplain] using hdomain c hmem
  intro m hm
  refine ⟨hnot '[' (by decide) (by decide) (by decide) hm, hnot ']' (by decide) (by decide) (by decide) hm, '@', ?_, .inl rfl⟩
  obtain ⟨user, label, domain, rfl, -⟩ := hm
  exact List.mem_append_right _ List.mem_cons_self

/-- A row of digits identifies, unless it is empty. -/
theorem identifies_digits {n : ℕ} (hn : n ≠ 0) : Identifies (IsDigits n) := by
  rintro m ⟨hm, hlength⟩
  have hnot (c : Char) (hc : isDecimal c = false) : c ∉ m := fun hmem => Bool.false_ne_true (hc.symm.trans (hm c hmem))
  refine ⟨hnot _ (by decide), hnot _ (by decide), ?_⟩
  cases m with
  | nil => exact absurd hlength.symm hn
  | cons c m => exact ⟨c, List.mem_cons_self, .inr (hm c List.mem_cons_self)⟩

/-- A bracket is not in an account number. -/
theorem identifies_iban : Identifies IsIban := by
  rintro m ⟨digits, rfl, hdigits, hlength⟩
  obtain ⟨hopening, hclosing, c, hc, hkind⟩ := identifies_digits (by decide) digits ⟨hdigits, hlength⟩
  refine ⟨?_, ?_, c, List.mem_cons_of_mem _ (List.mem_cons_of_mem _ hc), hkind⟩
  · simpa using hopening
  · simpa using hclosing

/-- The characters of a telephone number. -/
theorem IsPhone.mem {m : List Char} (h : IsPhone m) {c : Char} (hc : c ∈ m) :
    c = '+' ∨ isDecimal c = true ∨ (isSpace c || c = '.' || c = '-') = true := by
  obtain ⟨start, area, s₁, first, s₂, second, s₃, third, rfl, hstart, harea, hs₁, hfirst, hs₂, hsecond, hs₃, hthird⟩ := h
  have hseparator {s : List Char} (hs : IsSeparator s) (hmem : c ∈ s) : (isSpace c || c = '.' || c = '-') = true := by
    rcases hs with rfl | ⟨d, rfl, hd⟩
    · exact absurd hmem List.not_mem_nil
    · rw [List.mem_singleton.mp hmem]
      exact hd
  simp only [List.mem_append, List.mem_cons] at hc
  rcases hc with hc | rfl | hc | hc | hc | hc | hc | hc | hc
  · rcases hstart with rfl | rfl | rfl
    · rcases List.mem_cons.mp hc with rfl | hc
      · exact .inl rfl
      · exact .inr (.inl (List.all_eq_true.mp (show ['9', '0'].all isDecimal = true by decide) c hc))
    · exact .inr (.inl (List.all_eq_true.mp (show ['0'].all isDecimal = true by decide) c hc))
    · exact absurd hc List.not_mem_nil
  · exact .inr (.inl (by decide))
  · exact .inr (.inl (harea.1 c hc))
  · exact .inr (.inr (hseparator hs₁ hc))
  · exact .inr (.inl (hfirst.1 c hc))
  · exact .inr (.inr (hseparator hs₂ hc))
  · exact .inr (.inl (hsecond.1 c hc))
  · exact .inr (.inr (hseparator hs₃ hc))
  · exact .inr (.inl (hthird.1 c hc))

/-- A bracket is not in a telephone number. -/
theorem identifies_phone : Identifies IsPhone := by
  intro m hm
  refine ⟨fun hmem => ?_, fun hmem => ?_, ?_⟩
  · exact absurd (hm.mem hmem) (by decide)
  · exact absurd (hm.mem hmem) (by decide)
  · obtain ⟨front, c, rfl, hc⟩ := hm.exists_last
    exact ⟨c, List.mem_append_right _ List.mem_cons_self, .inr hc⟩

end Brackets

/-! ## The passes -/

section Passes

variable {unicode : Unicode} (hdigits : unicode.KnowsDigits)

include hdigits in
/-- A digit is of a word. -/
theorem isWord_of_isDecimal {c : Char} (hc : isDecimal c = true) : unicode.isWord c = true := by
  rw [Unicode.isWord, hdigits c hc, Bool.true_or]

include hdigits in
/-- No row of eleven digits stands inside another one. -/
theorem digits_spared {wanted : List Char → Bool} (b : Option Char) (m rest : List Char)
    (hstands : Stands unicode.isWord (IsDigits 11) b m rest) (hwanted : wanted m = false) (u v m' rest' : List Char)
    (hm : m = u ++ v) (_ : v ≠ []) (hsplit : v ++ rest = m' ++ rest')
    (hstands' : Stands unicode.isWord (IsDigits 11) (u.getLast?.or b) m' rest') : wanted m' = false := by
  obtain ⟨hdecimal, hlength⟩ := hstands.1
  obtain ⟨⟨hdecimal', hlength'⟩, hedge, -⟩ := hstands'
  cases u using List.reverseRecOn with
  | nil =>
    rw [List.nil_append] at hm
    rw [← hm] at hsplit
    rw [← (List.append_inj hsplit (by rw [hlength, hlength'])).1]
    exact hwanted
  | append_singleton u c _ =>
    -- both sides of the edge would be digits
    cases m' with
    | nil => exact absurd hlength' (by decide)
    | cons d m' =>
      have hc := isWord_of_isDecimal hdigits (hdecimal c (by simp [hm]))
      have hd := isWord_of_isDecimal hdigits (hdecimal' d List.mem_cons_self)
      refine absurd ?_ hedge
      simp [hc, hd]

/-- The text after the addresses are masked. -/
def withoutEmail (unicode : Unicode) (cs : List Char) : List Char :=
  (emailRe unicode).sub unicode.isWord (fun _ => ['[', 'E', 'M', 'A', 'I', 'L', ']']) cs

/-- The text after the account numbers are masked. -/
def withoutIban (unicode : Unicode) (cs : List Char) : List Char :=
  trIbanRe.sub unicode.isWord (fun _ => ['[', 'T', 'R', '_', 'I', 'B', 'A', 'N', ']']) cs

/-- The text after the telephone numbers are masked. -/
def withoutPhone (unicode : Unicode) (cs : List Char) : List Char :=
  trPhoneRe.sub unicode.isWord (fun _ => ['[', 'T', 'R', '_', 'P', 'H', 'O', 'N', 'E', ']']) cs

/-- The text after the identity numbers are masked. -/
def withoutTckn (unicode : Unicode) (cs : List Char) : List Char :=
  tcknCandidateRe.sub unicode.isWord (fun m => if tcknChecksumValid m then ['[', 'T', 'R', '_', 'T', 'C', 'K', 'N', ']'] else m) cs

/-- The scrub is its four passes, one after the other. -/
theorem scrub_text (text : String) : (scrub unicode text).text =
    String.ofList (withoutTckn unicode (withoutPhone unicode (withoutIban unicode (withoutEmail unicode text.toList)))) := rfl

/-- A pass masks the words of a language, and brings no word of another one about. -/
structure MasksWords (unicode : Unicode) (core : List Char → Prop) (pass : List Char → List Char) : Prop where
  free : ∀ cs, Free unicode.isWord core none (pass cs)
  free_of_free : ∀ cs core', Identifies core' → Free unicode.isWord core' none cs → Free unicode.isWord core' none (pass cs)
  eq_of_free : ∀ cs, Free unicode.isWord core none cs → pass cs = cs

/-- A replacement by a mask masks. -/
theorem masks_of_pass {core : List Char → Prop} {mask : List Char} {pass : List Char → List Char} (hcore : Identifies core)
    (hmask : IsMask mask) (hpass : ∀ cs, Pass id unicode.isWord core (fun _ => mask) none cs (pass cs)) :
    MasksWords unicode core pass where
  free cs := (hpass cs).free (hcore.foreign hmask)
  free_of_free cs _ hcore' hfree := (hpass cs).free_of_free (hcore'.foreign hmask) hfree
  eq_of_free cs hfree := (hpass cs).eq_of_free hfree

/-- The masks of the passes. -/
theorem masks_email : MasksWords unicode (IsEmail unicode) (withoutEmail unicode) :=
  masks_of_pass identifies_email ⟨['E', 'M', 'A', 'I', 'L'], rfl, by decide⟩ fun cs => pass_sub spells_email _ cs

theorem masks_iban : MasksWords unicode IsIban (withoutIban unicode) :=
  masks_of_pass identifies_iban ⟨['T', 'R', '_', 'I', 'B', 'A', 'N'], rfl, by decide⟩ fun cs => pass_sub spells_iban _ cs

theorem masks_phone : MasksWords unicode IsPhone (withoutPhone unicode) :=
  masks_of_pass identifies_phone ⟨['T', 'R', '_', 'P', 'H', 'O', 'N', 'E'], rfl, by decide⟩ fun cs => pass_sub spells_phone _ cs

/-- An identity number has no brackets. -/
theorem identifies_tckn : Identifies IsTckn := fun m hm => identifies_digits (by decide) m hm.1

include hdigits in
theorem masks_tckn : MasksWords unicode IsTckn (withoutTckn unicode) :=
  masks_of_pass identifies_tckn ⟨['T', 'R', '_', 'T', 'C', 'K', 'N'], rfl, by decide⟩ fun cs =>
    Pass.spared (digits_spared hdigits) (by simp only [List.map_id]; exact pass_sub spells_tckn _ cs)

/-- No identifier of a listed form stands in a text. -/
def Scrubbed (unicode : Unicode) (cs : List Char) : Prop :=
  Free unicode.isWord (IsEmail unicode) none cs ∧ Free unicode.isWord IsIban none cs ∧ Free unicode.isWord IsPhone none cs ∧
    Free unicode.isWord IsTckn none cs

include hdigits in
/-- After the four passes no identifier stands in the text. -/
theorem scrubbed_scrub (text : String) : Scrubbed unicode (scrub unicode text).text.toList := by
  rw [scrub_text, String.toList_ofList]
  have hphone := @masks_phone unicode
  have htckn := masks_tckn hdigits
  refine ⟨?_, ?_, ?_, htckn.free _⟩
  · apply htckn.free_of_free _ _ identifies_email
    apply hphone.free_of_free _ _ identifies_email
    apply masks_iban.free_of_free _ _ identifies_email
    exact masks_email.free _
  · apply htckn.free_of_free _ _ identifies_iban
    apply hphone.free_of_free _ _ identifies_iban
    exact masks_iban.free _
  · apply htckn.free_of_free _ _ identifies_phone
    exact hphone.free _

/-- An identity number is found only where one stands. -/
theorem any_findall_tckn {cs : List Char} (h : Free unicode.isWord IsTckn none cs) :
    (tcknCandidateRe.findall unicode.isWord cs).any tcknChecksumValid = false := by
  rw [List.any_eq_false]
  intro m hm
  rw [h.not_mem_findall spells_tckn (fun m hdigits hvalid => ⟨hdigits, hvalid⟩) hm]
  exact Bool.false_ne_true

/-- Where no identity number is found, the last pass changes nothing. -/
theorem withoutTckn_eq {cs : List Char} (h : (tcknCandidateRe.findall unicode.isWord cs).any tcknChecksumValid = false) :
    withoutTckn unicode cs = cs := by
  apply sub_eq_of_findall
  intro m hm
  rw [if_neg (List.any_eq_false.mp h m hm)]

/-- What the scrub says it found. -/
theorem scrub_found (text : String) : (scrub unicode text).found =
    (decide (withoutEmail unicode text.toList ≠ text.toList) ||
    decide (withoutIban unicode (withoutEmail unicode text.toList) ≠ withoutEmail unicode text.toList) ||
    decide (withoutPhone unicode (withoutIban unicode (withoutEmail unicode text.toList)) ≠
      withoutIban unicode (withoutEmail unicode text.toList)) ||
    (tcknCandidateRe.findall unicode.isWord (withoutPhone unicode (withoutIban unicode (withoutEmail unicode text.toList)))).any
      tcknChecksumValid) := rfl

/-- The scrub has found something when a pass changed the text, or an identity number was found. -/
theorem scrub_found_eq_false (text : String) : (scrub unicode text).found = false ↔
    withoutEmail unicode text.toList = text.toList ∧
    withoutIban unicode (withoutEmail unicode text.toList) = withoutEmail unicode text.toList ∧
    withoutPhone unicode (withoutIban unicode (withoutEmail unicode text.toList)) =
      withoutIban unicode (withoutEmail unicode text.toList) ∧
    (tcknCandidateRe.findall unicode.isWord (withoutPhone unicode (withoutIban unicode (withoutEmail unicode text.toList)))).any
      tcknChecksumValid = false := by
  rw [scrub_found]
  simp only [Bool.or_eq_false_iff, decide_eq_false_iff_not, ne_eq, not_not, and_assoc]

/-- A scrub of a text without identifiers finds nothing and changes nothing. -/
theorem scrub_of_scrubbed {text : String} (h : Scrubbed unicode text.toList) : scrub unicode text = ⟨text, false⟩ := by
  obtain ⟨hemail, hiban, hphone, htckn⟩ := h
  have h₁ := masks_email.eq_of_free _ hemail
  have h₂ := masks_iban.eq_of_free _ hiban
  have h₃ := masks_phone.eq_of_free _ hphone
  have h₄ := any_findall_tckn htckn
  have hfound : (scrub unicode text).found = false := by
    rw [scrub_found_eq_false, h₁, h₂, h₃]
    exact ⟨rfl, rfl, rfl, h₄⟩
  have htext : (scrub unicode text).text = text := by
    rw [scrub_text, h₁, h₂, h₃, withoutTckn_eq h₄, String.ofList_toList]
  calc scrub unicode text
    _ = ⟨(scrub unicode text).text, (scrub unicode text).found⟩ := rfl
    _ = ⟨text, false⟩ := by rw [htext, hfound]

include hdigits in
/-- A scrub that returns the text as it was has found nothing. -/
theorem scrub_found_of_text {text : String} (h : (scrub unicode text).text = text) : (scrub unicode text).found = false := by
  have hscrubbed := scrubbed_scrub hdigits text
  rw [h] at hscrubbed
  rw [scrub_of_scrubbed hscrubbed]

/-- A scrub that has found nothing returns the text as it was. -/
theorem scrub_text_of_found {text : String} (h : (scrub unicode text).found = false) : (scrub unicode text).text = text := by
  obtain ⟨h₁, h₂, h₃, h₄⟩ := scrub_found_eq_false text |>.mp h
  rw [scrub_text, withoutTckn_eq h₄, h₃, h₂, h₁, String.ofList_toList]

end Passes

/-- For every text, a scrub has found something exactly when it changed the text; in what it returns no identifier of a listed
form stands between the edges of words, and a scrub of it finds nothing and changes nothing. -/
theorem scrub_idempotent (unicode : Unicode) (hdigits : unicode.KnowsDigits) (text : String) :
    ((scrub unicode text).found = true ↔ (scrub unicode text).text ≠ text) ∧
      Scrubbed unicode (scrub unicode text).text.toList ∧
      scrub unicode (scrub unicode text).text = ⟨(scrub unicode text).text, false⟩ := by
  have hscrubbed := scrubbed_scrub hdigits text
  refine ⟨?_, hscrubbed, scrub_of_scrubbed hscrubbed⟩
  constructor
  · intro hfound htext
    rw [scrub_found_of_text hdigits htext] at hfound
    exact Bool.false_ne_true hfound
  · intro htext
    by_contra hfound
    exact htext (scrub_text_of_found (Bool.eq_false_iff.mpr hfound))

/-- A text with an address. -/
theorem scrub_idempotent_address :
    Unicode.withDigits.KnowsDigits ∧ scrub .withDigits (scrub .withDigits "jane@example.com").text =
      ⟨(scrub .withDigits "jane@example.com").text, false⟩ :=
  ⟨knowsDigits_withDigits, (scrub_idempotent .withDigits knowsDigits_withDigits "jane@example.com").2.2⟩

end FleetWorkflow.Core
