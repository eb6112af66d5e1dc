import Mathlib.Tactic.Common
import FleetWorkflow.Python.JsonText

/-!
# Separated texts

Numbers are written without separators and tell what they are; a text in which a part has no separator tells where that
part starts.
-/

namespace FleetWorkflow.Python

/-- What is no digit is not in the digits of a number. -/
theorem not_mem_toDigits {c : Char} (h : c.isDigit = false) (n : ℕ) : c ∉ Nat.toDigits 10 n := by
  intro hmem
  have hdigit := Nat.isDigit_of_mem_toDigits (by decide) (by decide) hmem
  rw [h] at hdigit
  cases hdigit

/-- What is neither a digit nor a minus sign is not in an integer. -/
theorem not_mem_reprInt {c : Char} (h : c.isDigit = false) (hminus : c ≠ '-') (n : ℤ) : c ∉ reprInt n := by
  rw [reprInt]
  split
  · simp [hminus, not_mem_toDigits h]
  · exact not_mem_toDigits h _

/-- Different numbers have different digits. -/
theorem toDigits_inj {n m : ℕ} (h : Nat.toDigits 10 n = Nat.toDigits 10 m) : n = m := by
  simpa using congrArg (fun digits => Nat.ofDigitChars 10 digits 0) h

/-- Different integers are written differently. -/
theorem reprInt_inj {n m : ℤ} (h : reprInt n = reprInt m) : n = m := by
  have hminus (k : ℕ) : '-' ∉ Nat.toDigits 10 k := not_mem_toDigits (by decide) k
  rw [reprInt, reprInt] at h
  split at h <;> split at h
  · have habs := toDigits_inj (List.cons.inj h).2
    omega
  · exact absurd (h ▸ List.mem_cons_self) (hminus _)
  · exact absurd (h ▸ List.mem_cons_self) (hminus _)
  · have habs := toDigits_inj h
    omega

section Separator

variable {α : Type} {separator : α} {start rest start' last : List α}

/-- A separator is the last one of a text, or stands before it. -/
theorem append_separator_cases (h : separator ∉ last) (heq : start ++ separator :: rest = start' ++ separator :: last) :
    (start = start' ∧ rest = last) ∨
      ∃ between, start' = start ++ separator :: between ∧ rest = between ++ separator :: last := by
  rcases List.append_eq_append_iff.mp heq with ⟨more, hstart, hrest⟩ | ⟨more, hstart, hrest⟩
  · cases more with
    | nil => exact .inl ⟨by simpa using hstart.symm, by simpa using hrest⟩
    | cons c between =>
      rw [List.cons_append, List.cons.injEq] at hrest
      obtain ⟨rfl, hrest⟩ := hrest
      exact .inr ⟨between, hstart, hrest⟩
  · cases more with
    | nil => exact .inl ⟨by simpa using hstart, by simpa using hrest.symm⟩
    | cons c between =>
      rw [List.cons_append, List.cons.injEq] at hrest
      exact absurd (by simp [hrest.2]) h

/-- A text tells what follows its last separator. -/
theorem append_separator_inj (h : separator ∉ rest) (h' : separator ∉ last)
    (heq : start ++ separator :: rest = start' ++ separator :: last) : start = start' ∧ rest = last := by
  rcases append_separator_cases h' heq with hsame | ⟨between, -, hrest⟩
  · exact hsame
  · exact absurd (by simp [hrest]) h

end Separator

section Needle

variable {α : Type} {needle before after : List α}

/-- What has no separator in it is found on one side of the separator. -/
theorem infix_append_cons_iff {c : α} (hc : c ∉ needle) :
    needle <:+: before ++ c :: after ↔ needle <:+: before ∨ needle <:+: after := by
  constructor
  · rintro ⟨start, rest, h⟩
    rcases List.append_eq_append_iff.mp h with ⟨more, hbefore, -⟩ | ⟨more, hfound, hafter⟩
    · exact Or.inl ⟨start, more, hbefore.symm⟩
    · cases more with
      | nil => exact Or.inl ⟨start, [], by simpa using hfound⟩
      | cons d more =>
        obtain ⟨rfl, rfl⟩ := List.cons.inj hafter
        rcases List.append_eq_append_iff.mp hfound with ⟨inner, -, hneedle⟩ | ⟨inner, -, hmore⟩
        · exact absurd (by simp [hneedle]) hc
        · cases inner with
          | nil => exact absurd (by simp [← (show _ = needle by simpa using hmore)]) hc
          | cons e inner =>
            obtain ⟨rfl, rfl⟩ := List.cons.inj hmore
            exact Or.inr ⟨inner, rest, rfl⟩
  · rintro (h | h)
    · exact h.trans (List.prefix_append _ _).isInfix
    · exact h.trans ⟨before ++ [c], [], by simp⟩

/-- It is found on one side of a text that shares no character with it. -/
theorem infix_append_append_iff {between : List α} (hne : between ≠ []) (h : ∀ c ∈ between, c ∉ needle) :
    needle <:+: before ++ (between ++ after) ↔ needle <:+: before ∨ needle <:+: after := by
  induction between generalizing before with
  | nil => exact absurd rfl hne
  | cons c between ih =>
    obtain ⟨hc, hbetween⟩ := List.forall_mem_cons.mp h
    rw [List.cons_append, infix_append_cons_iff hc]
    cases between with
    | nil => rfl
    | cons d between =>
      have hrest := @ih [] (List.cons_ne_nil d between) hbetween
      have hnone : needle <:+: [] → needle <:+: before := by
        intro hempty
        rw [List.infix_nil.mp hempty]
        exact List.nil_infix
      rw [List.nil_append] at hrest
      rw [hrest, ← or_assoc, or_iff_left_of_imp hnone]

/-- A text that shares no character with it can be left out. -/
theorem infix_append_left_iff {between : List α} (hneedle : needle ≠ []) (h : ∀ c ∈ between, c ∉ needle) :
    needle <:+: between ++ after ↔ needle <:+: after := by
  by_cases hne : between = []
  · rw [hne, List.nil_append]
  · have hsides := @infix_append_append_iff α needle [] after between hne h
    rw [List.nil_append] at hsides
    rw [hsides, List.infix_nil, or_iff_right hneedle]

end Needle

end FleetWorkflow.Python
