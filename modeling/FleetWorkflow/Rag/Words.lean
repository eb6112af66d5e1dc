import FleetWorkflow.Rag.Chunk

/-!
# Words

What `split` makes of texts that are put together: space anywhere ends a word and adds none, so that the words of joined
texts are those of the texts, and words joined by spaces are read back.
-/

namespace FleetWorkflow.Rag

open Python

/-- A word has characters, and none of them is space. -/
def IsWord (word : String) : Prop := word ≠ "" ∧ ∀ c ∈ word.toList, isSpace c = false

variable {begun cs rest : List Char}

/-- The characters of a word are collected. -/
theorem splitWordsFrom_append (h : ∀ c ∈ cs, isSpace c = false) (begun rest : List Char) :
    splitWordsFrom begun (cs ++ rest) = splitWordsFrom (cs.reverse ++ begun) rest := by
  induction cs generalizing begun with
  | nil => rfl
  | cons c cs ih =>
    obtain ⟨hc, hcs⟩ := List.forall_mem_cons.mp h
    rw [List.cons_append, splitWordsFrom, if_neg (by simp [hc]), ih hcs, List.reverse_cons, List.append_assoc]
    rfl

/-- Space ends what has begun. -/
theorem splitWordsFrom_space {c : Char} (hc : isSpace c = true) (begun cs rest : List Char) :
    splitWordsFrom begun (cs ++ c :: rest) = splitWordsFrom begun cs ++ splitWordsFrom [] rest := by
  induction cs generalizing begun with
  | nil =>
    simp only [List.nil_append, splitWordsFrom, hc, if_true]
    split <;> simp
  | cons d cs ih =>
    rw [List.cons_append, splitWordsFrom, splitWordsFrom]
    split
    · split
      · exact ih []
      · rw [ih [], List.cons_append]
    · exact ih (d :: begun)

/-- Only words are found. -/
theorem isWord_of_mem_splitWordsFrom (hbegun : ∀ c ∈ begun, isSpace c = false) {word : String}
    (h : word ∈ splitWordsFrom begun cs) : IsWord word := by
  have hword : begun ≠ [] → IsWord (String.ofList begun.reverse) := by
    intro hne
    refine ⟨by simpa [String.ext_iff] using hne, fun c hc => hbegun c ?_⟩
    simpa using hc
  induction cs generalizing begun with
  | nil =>
    rw [splitWordsFrom] at h
    split at h
    · cases h
    · rename_i hne
      rw [List.mem_singleton.mp h]
      exact hword hne
  | cons c cs ih =>
    have hnone : ([] : List Char) ≠ [] → IsWord (String.ofList [].reverse) := fun hne => absurd rfl hne
    rw [splitWordsFrom] at h
    split at h
    · split at h
      · exact ih (List.forall_mem_nil _) h hnone
      · rename_i hne
        rcases List.mem_cons.mp h with rfl | h
        · exact hword hne
        · exact ih (List.forall_mem_nil _) h hnone
    · rename_i hspace
      have hall : ∀ d ∈ c :: begun, isSpace d = false := List.forall_mem_cons.mpr ⟨by simpa using hspace, hbegun⟩
      apply ih hall h
      intro hne
      refine ⟨by simp [String.ext_iff], fun d hd => hall d ?_⟩
      simpa [or_comm] using hd

/-- The words of a text are words. -/
theorem isWord_of_mem {text word : String} (h : word ∈ splitWords text) : IsWord word :=
  isWord_of_mem_splitWordsFrom (List.forall_mem_nil _) h

/-- The words of a text are made of its characters. -/
theorem mem_of_mem_splitWordsFrom {word : String} (h : word ∈ splitWordsFrom begun cs) :
    ∀ c ∈ word.toList, c ∈ begun ∨ c ∈ cs := by
  induction cs generalizing begun with
  | nil =>
    rw [splitWordsFrom] at h
    split at h
    · cases h
    · simp [List.mem_singleton.mp h]
  | cons d cs ih =>
    rw [splitWordsFrom] at h
    intro c hc
    split at h
    · split at h
      · exact Or.inr (List.mem_cons_of_mem d ((ih h c hc).resolve_left List.not_mem_nil))
      · rcases List.mem_cons.mp h with rfl | h
        · simpa using Or.inl hc
        · exact Or.inr (List.mem_cons_of_mem d ((ih h c hc).resolve_left List.not_mem_nil))
    · simpa [or_assoc, or_left_comm] using ih h c hc

/-- What has begun begins the first word. -/
theorem exists_head_splitWordsFrom (h : begun ≠ []) (cs : List Char) :
    ∃ word ∈ splitWordsFrom begun cs, begun.reverse <+: word.toList := by
  induction cs generalizing begun with
  | nil => exact ⟨String.ofList begun.reverse, by simp [splitWordsFrom, h], by simp⟩
  | cons c cs ih =>
    rw [splitWordsFrom, if_neg h]
    split
    · exact ⟨String.ofList begun.reverse, by simp, by simp⟩
    · obtain ⟨word, hword, hbegins⟩ := ih (List.cons_ne_nil c begun)
      rw [List.reverse_cons] at hbegins
      exact ⟨word, hword, (List.prefix_append _ _).trans hbegins⟩

/-- A word is one word. -/
theorem splitWords_word {word : String} (h : IsWord word) : splitWords word = [word] := by
  have hne : word.toList ≠ [] := fun hnil => h.1 (String.toList_eq_nil_iff.mp hnil)
  have hsplit := splitWordsFrom_append h.2 [] []
  rw [List.append_nil, List.append_nil] at hsplit
  rw [splitWords, hsplit, splitWordsFrom, if_neg (by simpa using hne), List.reverse_reverse, String.ofList_toList]

/-- Space alone has no words, and none before what follows it. -/
theorem splitWordsFrom_spaces (h : ∀ c ∈ cs, isSpace c = true) (rest : List Char) :
    splitWordsFrom [] (cs ++ rest) = splitWordsFrom [] rest := by
  induction cs with
  | nil => rfl
  | cons c cs ih =>
    obtain ⟨hc, hcs⟩ := List.forall_mem_cons.mp h
    rw [List.cons_append, splitWordsFrom, if_pos hc, if_pos rfl]
    exact ih hcs

/-- Space between texts ends the words of the first. -/
theorem splitWordsFrom_separated {separator : List Char} (hne : separator ≠ [])
    (h : ∀ c ∈ separator, isSpace c = true) (begun cs rest : List Char) :
    splitWordsFrom begun (cs ++ separator ++ rest) = splitWordsFrom begun cs ++ splitWordsFrom [] rest := by
  cases separator with
  | nil => exact absurd rfl hne
  | cons c separator =>
    obtain ⟨hc, hseparator⟩ := List.forall_mem_cons.mp h
    rw [List.append_assoc, List.cons_append, splitWordsFrom_space hc, splitWordsFrom_spaces hseparator]

/-- The words of texts joined by space are those of the texts. -/
theorem splitWords_intercalate {separator : String} (hne : separator ≠ "")
    (h : ∀ c ∈ separator.toList, isSpace c = true) (texts : List String) :
    splitWords (String.intercalate separator texts) = texts.flatMap splitWords := by
  have hne' : separator.toList ≠ [] := fun hnil => hne (String.toList_eq_nil_iff.mp hnil)
  induction texts with
  | nil => simp [splitWords, splitWordsFrom]
  | cons text texts ih =>
    cases texts with
    | nil => simp
    | cons other texts =>
      rw [String.intercalate_cons_cons, splitWords, String.toList_append, String.toList_append,
        splitWordsFrom_separated hne' h, List.flatMap_cons, ← ih]
      rfl

/-- Words joined by spaces are read back. -/
theorem splitWords_join {words : List String} (h : ∀ word ∈ words, IsWord word) :
    splitWords (String.intercalate " " words) = words := by
  rw [splitWords_intercalate (by decide) (List.all_eq_true.mp (by decide))]
  induction words with
  | nil => rfl
  | cons word words ih =>
    obtain ⟨hword, hwords⟩ := List.forall_mem_cons.mp h
    rw [List.flatMap_cons, splitWords_word hword, ih hwords]
    rfl

end FleetWorkflow.Rag
