import Mathlib.Data.List.Basic
import Mathlib.Data.Nat.Notation

/-!
# Texts whose words are joined by one separator

Every run of characters outside a class becomes one separator, and the separators at both ends go: what is left is the
words of the text, joined. A joined text that is cut somewhere is joined words again, unless the cut is right behind a
separator.
-/

namespace FleetWorkflow.Flow

variable {α : Type} (good : α → Bool) (separator : α)

/-- Every run of characters outside the class is one separator; `inRun` when one has been written for the present run. -/
def collapse (inRun : Bool) : List α → List α
  | [] => []
  | c :: rest =>
    if good c then c :: collapse false rest
    else if inRun then collapse true rest
    else separator :: collapse true rest

/-- The words after one that has begun. -/
def wordsFrom (begun : List α) : List α → List (List α)
  | [] => if begun.isEmpty then [] else [begun]
  | c :: rest =>
    if good c then wordsFrom (begun ++ [c]) rest
    else if begun.isEmpty then wordsFrom [] rest
    else begun :: wordsFrom [] rest

/-- The words of a text: its longest runs of characters of the class. -/
def words (cs : List α) : List (List α) := wordsFrom good [] cs

/-- The words with a separator between them. -/
def joined (ws : List (List α)) : List α := [separator].intercalate ws

/-- A word has characters, and all of them are of the class. -/
def IsPlain (word : List α) : Prop := word ≠ [] ∧ ∀ c ∈ word, good c = true

variable {good separator} {cs : List α} {word : List α} {ws : List (List α)}

/-! ## Joined words -/

/-- No words. -/
@[simp] theorem joined_nil : joined separator [] = [] := by simp [joined]

/-- One word. -/
@[simp] theorem joined_singleton : joined separator [word] = word := by simp [joined]

/-- A word before others. -/
theorem joined_cons (hws : ws ≠ []) : joined separator (word :: ws) = word ++ separator :: joined separator ws := by
  cases ws with
  | nil => exact absurd rfl hws
  | cons next rest => simp [joined]

/-- Words before others. -/
theorem joined_append {before after : List (List α)} (hbefore : before ≠ []) (hafter : after ≠ []) :
    joined separator (before ++ after) = joined separator before ++ separator :: joined separator after := by
  induction before with
  | nil => exact absurd rfl hbefore
  | cons word rest ih =>
    cases rest with
    | nil => rw [List.singleton_append, joined_cons hafter, joined_singleton]
    | cons next rest =>
      rw [List.cons_append, joined_cons (by simp), joined_cons (by simp), ih (List.cons_ne_nil _ _), List.append_assoc,
        List.cons_append]

/-- Joined words end with a character of the class. -/
theorem joined_getLast (hws : ∀ word ∈ ws, IsPlain good word) (hne : ws ≠ []) :
    ∃ front c, joined separator ws = front ++ [c] ∧ good c = true := by
  induction ws with
  | nil => exact absurd rfl hne
  | cons word rest ih =>
    rw [List.forall_mem_cons] at hws
    cases rest with
    | nil =>
      rw [joined_singleton]
      refine ⟨word.dropLast, word.getLast hws.1.1, (List.dropLast_concat_getLast _).symm, ?_⟩
      exact hws.1.2 _ (List.getLast_mem _)
    | cons next rest =>
      obtain ⟨front, c, hjoined, hc⟩ := ih hws.2 (List.cons_ne_nil _ _)
      refine ⟨word ++ separator :: front, c, ?_, hc⟩
      rw [joined_cons (List.cons_ne_nil _ _), hjoined, List.append_assoc, List.cons_append]

/-- Joined words begin with a character of the class. -/
theorem joined_head (hws : ∀ word ∈ ws, IsPlain good word) (hne : ws ≠ []) :
    ∃ c rest, joined separator ws = c :: rest ∧ good c = true := by
  cases ws with
  | nil => exact absurd rfl hne
  | cons word rest =>
    rw [List.forall_mem_cons] at hws
    obtain ⟨c, cs, rfl⟩ := List.exists_cons_of_ne_nil hws.1.1
    have hc := hws.1.2 c List.mem_cons_self
    cases rest with
    | nil => exact ⟨c, cs, joined_singleton, hc⟩
    | cons next rest => exact ⟨c, _, joined_cons (List.cons_ne_nil _ _), hc⟩

/-- Joined words are made of the class and the separator. -/
theorem mem_joined (hws : ∀ word ∈ ws, IsPlain good word) {c : α} (hc : c ∈ joined separator ws) :
    good c = true ∨ c = separator := by
  induction ws with
  | nil => simp at hc
  | cons word rest ih =>
    rw [List.forall_mem_cons] at hws
    by_cases hrest : rest = []
    · rw [hrest, joined_singleton] at hc
      exact .inl (hws.1.2 c hc)
    · rw [joined_cons hrest, List.mem_append, List.mem_cons] at hc
      rcases hc with hc | rfl | hc
      · exact .inl (hws.1.2 c hc)
      · exact .inr rfl
      · exact ih hws.2 hc

/-! ## The words of a text -/

/-- The characters of a word are collected. -/
theorem wordsFrom_append (hword : ∀ c ∈ word, good c = true) (begun rest : List α) :
    wordsFrom good begun (word ++ rest) = wordsFrom good (begun ++ word) rest := by
  induction word generalizing begun with
  | nil => simp
  | cons c cs ih =>
    rw [List.forall_mem_cons] at hword
    rw [List.cons_append, wordsFrom, if_pos hword.1, ih hword.2, List.append_assoc, List.singleton_append]

/-- The words of a text are words. -/
theorem isPlain_of_mem_wordsFrom {begun : List α} (hbegun : ∀ c ∈ begun, good c = true)
    (hword : word ∈ wordsFrom good begun cs) : IsPlain good word := by
  induction cs generalizing begun with
  | nil =>
    rw [wordsFrom] at hword
    split at hword
    · cases hword
    · rename_i hne
      rw [List.mem_singleton.mp hword]
      exact ⟨by simpa using hne, hbegun⟩
  | cons c rest ih =>
    rw [wordsFrom] at hword
    split at hword
    · rename_i hc
      apply ih _ hword
      intro d hd
      rcases List.mem_append.mp hd with hd | hd
      · exact hbegun d hd
      · rw [List.mem_singleton.mp hd]
        exact hc
    · split at hword
      · exact ih (List.forall_mem_nil _) hword
      · rename_i hne
        rcases List.mem_cons.mp hword with rfl | hword
        · exact ⟨by simpa using hne, hbegun⟩
        · exact ih (List.forall_mem_nil _) hword

/-- The words of a text are words. -/
theorem isPlain_of_mem_words (hword : word ∈ words good cs) : IsPlain good word :=
  isPlain_of_mem_wordsFrom (List.forall_mem_nil _) hword

/-- A separator after a word that has begun ends it. -/
theorem wordsFrom_separator {begun rest : List α} (hseparator : good separator = false) (hbegun : begun ≠ []) :
    wordsFrom good begun (separator :: rest) = begun :: wordsFrom good [] rest := by
  rw [wordsFrom, if_neg (by simp [hseparator]), if_neg (by simpa using hbegun)]

/-- Joined words are read back, with or without a separator behind them. -/
theorem words_joined (hseparator : good separator = false) (hws : ∀ word ∈ ws, IsPlain good word) {tail : List α}
    (htail : tail = [] ∨ tail = [separator]) : words good (joined separator ws ++ tail) = ws := by
  induction ws with
  | nil =>
    rcases htail with rfl | rfl
    · rfl
    · simp [words, wordsFrom, hseparator]
  | cons word rest ih =>
    rw [List.forall_mem_cons] at hws
    by_cases hrest : rest = []
    · rw [hrest, joined_singleton, words, wordsFrom_append hws.1.2, List.nil_append]
      rcases htail with rfl | rfl
      · rw [wordsFrom, if_neg (by simpa using hws.1.1)]
      · rw [wordsFrom_separator hseparator hws.1.1]
        rfl
    · rw [joined_cons hrest, words, List.append_assoc, wordsFrom_append hws.1.2, List.nil_append, List.cons_append,
        wordsFrom_separator hseparator hws.1.1]
      exact congrArg _ (ih hws.2)

/-! ## Cutting -/

/-- Joined words that are cut somewhere are joined words, unless the cut is right behind a separator. -/
theorem take_joined (hws : ∀ word ∈ ws, IsPlain good word) (n : ℕ) :
    (∃ ws', (∀ word ∈ ws', IsPlain good word) ∧ (joined separator ws).take n = joined separator ws') ∨
      ∃ before after, ws = before ++ after ∧ before ≠ [] ∧ after ≠ [] ∧ (joined separator before).length + 1 = n := by
  induction ws generalizing n with
  | nil => exact .inl ⟨[], List.forall_mem_nil _, by simp⟩
  | cons word rest ih =>
    have hcons := hws
    rw [List.forall_mem_cons] at hws
    by_cases hshort : n ≤ word.length
    · left
      obtain ⟨tail, htail⟩ : ∃ tail, joined separator (word :: rest) = word ++ tail := by
        by_cases hrest : rest = []
        · exact ⟨[], by rw [hrest, joined_singleton, List.append_nil]⟩
        · exact ⟨_, joined_cons hrest⟩
      rw [htail, List.take_append_of_le_length hshort]
      by_cases hn : n = 0
      · exact ⟨[], List.forall_mem_nil _, by simp [hn]⟩
      · refine ⟨[word.take n], ?_, joined_singleton.symm⟩
        intro part hpart
        rw [List.mem_singleton.mp hpart]
        refine ⟨?_, fun c hc => hws.1.2 c (List.mem_of_mem_take hc)⟩
        have hpos : 0 < word.length := List.length_pos_iff.mpr hws.1.1
        rw [← List.length_pos_iff, List.length_take]
        omega
    · by_cases hrest : rest = []
      · left
        refine ⟨[word], by rwa [hrest] at hcons, ?_⟩
        rw [hrest, joined_singleton, List.take_of_length_le (by omega)]
      · obtain ⟨m, rfl⟩ : ∃ m, n = word.length + (m + 1) := ⟨n - word.length - 1, by omega⟩
        have htake : (joined separator (word :: rest)).take (word.length + (m + 1)) =
            word ++ separator :: (joined separator rest).take m := by
          rw [joined_cons hrest, List.take_length_add_append, List.take_succ_cons]
        by_cases hm : m = 0
        · right
          exact ⟨[word], rest, rfl, List.cons_ne_nil _ _, hrest, by rw [joined_singleton, hm]⟩
        · rcases ih hws.2 m with ⟨ws', hws', hjoined⟩ | ⟨before, after, hsplit, hbefore, hafter, hlength⟩
          · left
            have hne : ws' ≠ [] := by
              intro hnil
              obtain ⟨c, cs, hhead, -⟩ := @joined_head _ _ separator _ hws.2 hrest
              obtain ⟨k, rfl⟩ := Nat.exists_eq_succ_of_ne_zero hm
              rw [hnil, hhead, joined_nil, List.take_succ_cons] at hjoined
              cases hjoined
            refine ⟨word :: ws', List.forall_mem_cons.mpr ⟨hws.1, hws'⟩, ?_⟩
            rw [htake, hjoined, joined_cons hne]
          · right
            refine ⟨word :: before, after, by rw [hsplit, List.cons_append], List.cons_ne_nil _ _, hafter, ?_⟩
            rw [joined_cons hbefore, List.length_append, List.length_cons, hlength, Nat.add_assoc]

/-! ## Collapsing and trimming -/

variable [DecidableEq α]

section Trimming

variable (separator)

/-- Drop the separators at the end. -/
def dropTrailing (cs : List α) : List α := (cs.reverse.dropWhile (· = separator)).reverse

/-- Drop the separators at both ends. -/
def trimSeparator (cs : List α) : List α := dropTrailing separator (cs.dropWhile (· = separator))

end Trimming

/-- Nothing is dropped behind a character that is no separator. -/
theorem dropTrailing_concat {front : List α} {c : α} (hc : c ≠ separator) :
    dropTrailing separator (front ++ [c]) = front ++ [c] := by
  simp [dropTrailing, hc]

/-- What is dropped from the end of two texts is dropped from the second one first. -/
theorem dropTrailing_append (front back : List α) :
    dropTrailing separator (front ++ back) =
      if dropTrailing separator back = [] then dropTrailing separator front else front ++ dropTrailing separator back := by
  simp only [dropTrailing, List.reverse_append, List.dropWhile_append, List.isEmpty_iff, List.reverse_eq_nil_iff]
  split <;> simp

/-- A word is left as it is. -/
theorem dropTrailing_word (hseparator : good separator = false) (hword : IsPlain good word) :
    dropTrailing separator word = word := by
  rw [← List.dropLast_concat_getLast hword.1]
  apply dropTrailing_concat
  intro heq
  have hlast := hword.2 _ (List.getLast_mem hword.1)
  rw [heq, hseparator] at hlast
  cases hlast

/-- In a run the collapsed text is the joined words; after a word has begun, that word is the first of them. -/
theorem dropTrailing_collapse (hseparator : good separator = false) (cs : List α) :
    dropTrailing separator (collapse good separator true cs) = joined separator (words good cs) ∧
      ∀ begun, IsPlain good begun →
        dropTrailing separator (begun ++ collapse good separator false cs) = joined separator (wordsFrom good begun cs) := by
  induction cs with
  | nil =>
    constructor
    · rfl
    · intro begun hbegun
      rw [collapse, List.append_nil, wordsFrom, if_neg (by simpa using hbegun.1), joined_singleton]
      exact dropTrailing_word hseparator hbegun
  | cons c rest ih =>
    by_cases hc : good c = true
    · constructor
      · rw [collapse, if_pos hc, words, wordsFrom, if_pos hc, List.nil_append]
        exact ih.2 [c] ⟨List.cons_ne_nil _ _, by simpa using hc⟩
      · intro begun hbegun
        rw [collapse, if_pos hc, wordsFrom, if_pos hc, List.append_cons]
        apply ih.2
        refine ⟨by simp, ?_⟩
        intro d hd
        rcases List.mem_append.mp hd with hd | hd
        · exact hbegun.2 d hd
        · rw [List.mem_singleton.mp hd]
          exact hc
    · constructor
      · rw [collapse, if_neg hc, if_pos rfl, words, wordsFrom, if_neg hc, if_pos (by simp)]
        exact ih.1
      · intro begun hbegun
        rw [collapse, if_neg hc, if_neg (by simp), wordsFrom, if_neg hc, if_neg (by simpa using hbegun.1)]
        have hrest := ih.1
        rw [words] at hrest
        have hall : ∀ word ∈ wordsFrom good [] rest, IsPlain good word := fun word hword => isPlain_of_mem_words hword
        rw [List.append_cons, dropTrailing_append, hrest]
        by_cases hnone : wordsFrom good [] rest = []
        · rw [hnone, joined_nil, if_pos rfl, joined_singleton, dropTrailing_append]
          rw [if_pos (by simp [dropTrailing])]
          exact dropTrailing_word hseparator hbegun
        · obtain ⟨d, ds, hjoined, -⟩ := @joined_head _ _ separator _ hall hnone
          rw [joined_cons hnone, if_neg (by simp [hjoined]), List.append_assoc, List.singleton_append]

/-- A text in a run does not begin with a separator. -/
theorem dropWhile_collapse (hseparator : good separator = false) (inRun : Bool) (cs : List α) :
    (collapse good separator inRun cs).dropWhile (· = separator) = collapse good separator true cs := by
  induction cs generalizing inRun with
  | nil => simp [collapse]
  | cons c rest ih =>
    by_cases hc : good c = true
    · have hne : c ≠ separator := by
        intro heq
        rw [heq, hseparator] at hc
        cases hc
      simp [collapse, hc, hne]
    · cases inRun with
      | true => simpa [collapse, hc] using ih true
      | false => simpa [collapse, hc] using ih true

/-- A collapsed and trimmed text is its words, joined. -/
theorem trimSeparator_collapse (hseparator : good separator = false) (cs : List α) :
    trimSeparator separator (collapse good separator false cs) = joined separator (words good cs) := by
  rw [trimSeparator, dropWhile_collapse hseparator, (dropTrailing_collapse hseparator cs).1]

end FleetWorkflow.Flow
