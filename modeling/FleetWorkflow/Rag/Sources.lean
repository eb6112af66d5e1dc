import Mathlib.Data.List.TakeWhile
import FleetWorkflow.Flow.Pieces
import FleetWorkflow.Rag.Chunk
import FleetWorkflow.Python.Matches

/-!
# Where the characters of a chunk come from

The chunker on characters that carry their position in the text. What it inserts between paragraphs and
words has none. Without the positions these are the chunks of the text.
-/

namespace FleetWorkflow.Rag

open Python Flow

/-- A character with its position in a text, if it comes from there. -/
abbrev Sourced := Char × Option ℕ

/-- The characters of a text with their positions. -/
def sourced (text : String) : List Sourced := text.toList.zipIdx.map fun c => (c.1, some c.2)

/-- Characters that come from elsewhere. -/
def inserted (cs : List Char) : List Sourced := cs.map fun c => (c, none)

/-- The characters without their positions. -/
def chars (xs : List Sourced) : List Char := xs.map Prod.fst

/-- The text without the positions. -/
def erase (xs : List Sourced) : String := String.ofList (chars xs)

/-- `text.split()`, after the characters of a word that has begun. -/
def sourcedWordsFrom (begun : List Sourced) : List Sourced → List (List Sourced)
  | [] => if begun = [] then [] else [begun.reverse]
  | x :: rest =>
    if isSpace x.1 then
      if begun = [] then sourcedWordsFrom [] rest else begun.reverse :: sourcedWordsFrom [] rest
    else sourcedWordsFrom (x :: begun) rest

/-- `text.split()`. -/
def sourcedWords (xs : List Sourced) : List (List Sourced) := sourcedWordsFrom [] xs

/-- `text.split("\n\n")`, after the characters of a part that has begun. -/
def sourcedParagraphsFrom (begun : List Sourced) : List Sourced → List (List Sourced)
  | ('\n', _) :: ('\n', _) :: rest => begun.reverse :: sourcedParagraphsFrom [] rest
  | x :: rest => sourcedParagraphsFrom (x :: begun) rest
  | [] => [begun.reverse]

/-- `text.strip()`. -/
def sourcedStrip (xs : List Sourced) : List Sourced :=
  ((xs.dropWhile fun x => isSpace x.1).reverse.dropWhile fun x => isSpace x.1).reverse

/-- The paragraphs that are packed. -/
def sourcedParagraphs (xs : List Sourced) : List (List Sourced) :=
  ((sourcedParagraphsFrom [] xs).map sourcedStrip).filter (· ≠ [])

/-- The loop of `chunk_text`. -/
structure SourcedPacking where
  chunks : List (List Sourced)
  current : List (List Sourced)
  currentLen : ℕ

/-- The chunks with the one that is being filled. -/
def SourcedPacking.flush (packing : SourcedPacking) : List (List Sourced) :=
  if packing.current = [] then packing.chunks
  else packing.chunks ++ [(inserted ['\n', '\n']).intercalate packing.current]

/-- The pieces of a paragraph that is over the budget. -/
def cutPieces (maxTokens : ℕ) (para : List Sourced) : List (List Sourced) :=
  ((sourcedWords para).toChunks maxTokens).map fun piece => (inserted [' ']).intercalate piece

/-- Pack one paragraph; one that is over the budget is split on its own. -/
def SourcedPacking.add (maxTokens : ℕ) (packing : SourcedPacking) (para : List Sourced) : SourcedPacking :=
  let words := sourcedWords para
  if maxTokens < words.length then ⟨packing.flush ++ cutPieces maxTokens para, [], 0⟩
  else if maxTokens < packing.currentLen + words.length ∧ packing.current ≠ [] then
    ⟨packing.flush, [para], words.length⟩
  else ⟨packing.chunks, packing.current ++ [para], packing.currentLen + words.length⟩

/-- `chunk_text(text, max_tokens=...)`. -/
def sourcedChunks (maxTokens : ℕ) (xs : List Sourced) : List (List Sourced) :=
  ((sourcedParagraphs xs).foldl (SourcedPacking.add maxTokens) ⟨[], [], 0⟩).flush

/-! ## Without the positions -/

@[simp] theorem chars_nil : chars [] = [] := rfl

@[simp] theorem chars_cons (x : Sourced) (xs : List Sourced) : chars (x :: xs) = x.1 :: chars xs := rfl

@[simp] theorem chars_append (xs ys : List Sourced) : chars (xs ++ ys) = chars xs ++ chars ys := List.map_append

@[simp] theorem chars_inserted (cs : List Char) : chars (inserted cs) = cs := by
  simp [chars, inserted, Function.comp_def]

@[simp] theorem chars_sourced (text : String) : chars (sourced text) = text.toList := by
  simp [chars, sourced, Function.comp_def]

theorem erase_sourced (text : String) : erase (sourced text) = text := by
  rw [erase, chars_sourced, String.ofList_toList]

theorem erase_eq_empty {xs : List Sourced} : erase xs = "" ↔ xs = [] := by
  rw [erase, String.ofList_eq_empty_iff, chars, List.map_eq_nil_iff]

theorem erase_words (begun xs : List Sourced) :
    (sourcedWordsFrom begun xs).map erase = splitWordsFrom (chars begun) (chars xs) := by
  induction xs generalizing begun with
  | nil =>
    rw [sourcedWordsFrom, chars_nil, splitWordsFrom]
    by_cases hbegun : begun = []
    · simp [hbegun]
    · simp [hbegun, chars, erase]
  | cons x rest ih =>
    rw [sourcedWordsFrom, chars_cons, splitWordsFrom]
    by_cases hspace : isSpace x.1
    · by_cases hbegun : begun = []
      · simp only [hspace, hbegun, chars_nil, if_true]
        exact ih []
      · have hchars : chars begun ≠ [] := by simpa [chars] using hbegun
        simp only [hspace, hbegun, hchars, if_true, if_false, List.map_cons, ih]
        simp [erase, chars]
    · simp only [hspace, Bool.false_eq_true, if_false]
      exact ih (x :: begun)

theorem erase_sourcedWords (xs : List Sourced) : (sourcedWords xs).map erase = splitWords (erase xs) := by
  rw [sourcedWords, erase_words, splitWords, erase, String.toList_ofList]
  rfl

theorem erase_paragraphsFrom (begun xs : List Sourced) :
    (sourcedParagraphsFrom begun xs).map erase = splitParagraphsFrom (chars begun) (chars xs) := by
  induction begun, xs using sourcedParagraphsFrom.induct with
  | case1 begun i j rest ih =>
    rw [sourcedParagraphsFrom, List.map_cons, ih, chars_cons, chars_cons, splitParagraphsFrom]
    simp [erase, chars]
  | case2 begun x rest hnot ih =>
    rw [sourcedParagraphsFrom, ih, chars_cons, chars_cons, splitParagraphsFrom]
    · intro rest' hx hrest
      cases rest with
      | nil => cases hrest
      | cons y rest =>
        obtain ⟨hy, -⟩ := List.cons.inj hrest
        exact hnot x.2 y.2 rest (Prod.ext hx rfl) (by rw [← hy])
    · exact hnot
  | case3 begun => simp [sourcedParagraphsFrom, splitParagraphsFrom, erase, chars]

theorem chars_dropWhile (xs : List Sourced) :
    chars (xs.dropWhile fun x => isSpace x.1) = (chars xs).dropWhile isSpace := by
  rw [chars, chars, List.dropWhile_map]
  rfl

theorem chars_reverse (xs : List Sourced) : chars xs.reverse = (chars xs).reverse := List.map_reverse

theorem erase_sourcedStrip (xs : List Sourced) : erase (sourcedStrip xs) = strip (erase xs) := by
  simp only [erase, sourcedStrip, strip, stripChars, chars_reverse, chars_dropWhile, String.toList_ofList]

theorem erase_sourcedParagraphs (xs : List Sourced) : (sourcedParagraphs xs).map erase =
    ((splitParagraphs (erase xs)).map strip).filter (· ≠ "") := by
  have hparts : (sourcedParagraphsFrom [] xs).map erase = splitParagraphs (erase xs) := by
    rw [erase_paragraphsFrom, splitParagraphs, erase, String.toList_ofList]
    rfl
  have hstrip : strip ∘ erase = erase ∘ sourcedStrip := by
    funext xs
    exact (erase_sourcedStrip xs).symm
  have hempty : (fun s : String => decide (s ≠ "")) ∘ erase = fun xs => decide (xs ≠ []) := by
    funext xs
    simp [erase_eq_empty]
  rw [sourcedParagraphs, ← hparts, List.map_map, hstrip, ← List.map_map, ← hempty, ← List.filter_map,
    List.filter_map]

theorem erase_intercalate (sep : List Char) (parts : List (List Sourced)) :
    erase ((inserted sep).intercalate parts) = String.intercalate (String.ofList sep) (parts.map erase) := by
  apply String.toList_injective
  rw [String.toList_intercalate, erase, String.toList_ofList, String.toList_ofList, List.map_map]
  have hparts : String.toList ∘ erase = chars := by
    funext xs
    simp [erase]
  rw [hparts]
  induction parts with
  | nil => rfl
  | cons part parts ih =>
    cases parts with
    | nil => simp
    | cons other parts =>
      rw [List.intercalate_cons_cons, List.map_cons, List.map_cons, List.intercalate_cons_cons, chars_append,
        chars_append, ih, chars_inserted]
      rfl

theorem erase_cutPieces (maxTokens : ℕ) (para : List Sourced) :
    (cutPieces maxTokens para).map erase =
      ((splitWords (erase para)).toChunks maxTokens).map (String.intercalate " ") := by
  rw [cutPieces, ← erase_sourcedWords, toChunks_map, List.map_map, List.map_map]
  congr 1
  funext piece
  exact erase_intercalate [' '] piece

/-- The packing without the positions. -/
def SourcedPacking.erased (packing : SourcedPacking) : Packing :=
  ⟨packing.chunks.map fun chunk => ⟨erase chunk⟩, packing.current.map erase, packing.currentLen⟩

theorem erased_flush (packing : SourcedPacking) :
    packing.erased.flush = packing.flush.map fun chunk => ⟨erase chunk⟩ := by
  rw [Packing.flush, SourcedPacking.flush, SourcedPacking.erased]
  by_cases hcurrent : packing.current = []
  · simp [hcurrent]
  · have hjoin := erase_intercalate ['\n', '\n'] packing.current
    have hne : packing.current.map erase ≠ [] := by simpa using hcurrent
    rw [if_neg hne, if_neg hcurrent, List.map_append, List.map_singleton, hjoin]

theorem erased_add (maxTokens : ℕ) (packing : SourcedPacking) (para : List Sourced) :
    (packing.add maxTokens para).erased = packing.erased.add maxTokens (erase para) := by
  have hlength : (splitWords (erase para)).length = (sourcedWords para).length := by
    rw [← erase_sourcedWords, List.length_map]
  have hcurrent : packing.erased.current ≠ [] ↔ packing.current ≠ [] := by simp [SourcedPacking.erased]
  have hlen : packing.erased.currentLen = packing.currentLen := rfl
  simp only [SourcedPacking.add, Packing.add, hlength, hcurrent, hlen]
  split
  · have hpieces := congrArg (List.map Chunk.mk) (erase_cutPieces maxTokens para)
    rw [List.map_map, List.map_map] at hpieces
    rw [SourcedPacking.erased, List.map_append, ← erased_flush]
    congr 2
  · split
    · rw [SourcedPacking.erased, erased_flush]
      rfl
    · simp [SourcedPacking.erased]

/-- Without the positions, these are the chunks of the text. -/
theorem erase_sourcedChunks (maxTokens : ℕ) (xs : List Sourced) :
    (sourcedChunks maxTokens xs).map (fun chunk => (⟨erase chunk⟩ : Chunk)) = chunkText maxTokens (erase xs) := by
  rw [sourcedChunks, chunkText, ← erased_flush, ← erase_sourcedParagraphs, List.foldl_map]
  congr 1
  generalize hstart : (⟨[], [], 0⟩ : SourcedPacking) = start
  have herased : (⟨[], [], 0⟩ : Packing) = start.erased := by rw [← hstart]; rfl
  rw [herased]
  clear hstart herased
  induction sourcedParagraphs xs generalizing start with
  | nil => rfl
  | cons para paras ih => rw [List.foldl_cons, List.foldl_cons, ih, erased_add]

/-! ## How the parts are spread over the text -/

open Re (Spread)

/-- A character of white space. -/
def IsGap (x : Sourced) : Prop := isSpace x.1

/-- A character of white space that does not come from the text. -/
def IsInsertedGap (x : Sourced) : Prop := isSpace x.1 ∧ x.2 = none

theorem spread_sourcedWordsFrom (begun xs : List Sourced) :
    Spread IsGap 1 0 (sourcedWordsFrom begun xs) (begun.reverse ++ xs) := by
  induction xs generalizing begun with
  | nil =>
    rw [sourcedWordsFrom]
    split
    · rename_i hbegun
      rw [hbegun]
      exact .done (by simp)
    · rw [List.append_nil]
      exact .singleton begun.reverse
  | cons x rest ih =>
    rw [sourcedWordsFrom]
    split
    · rename_i hspace
      have hgap : ∀ y ∈ [x], IsGap y := by simpa [IsGap] using hspace
      split
      · rename_i hbegun
        rw [hbegun]
        exact (ih []).gap_append hgap (Nat.zero_le _)
      · exact @Spread.part _ IsGap 1 0 [] _ begun.reverse _ (by simp) (Nat.zero_le _)
          ((ih []).gap_append hgap (Nat.le_refl 1))
    · have h := ih (x :: begun)
      rwa [List.reverse_cons, List.append_assoc] at h

/-- The words of a text, with white space between them. -/
theorem spread_sourcedWords (xs : List Sourced) : Spread IsGap 1 0 (sourcedWords xs) xs :=
  spread_sourcedWordsFrom [] xs

/-- A word has no white space. -/
theorem isSpace_of_mem_sourcedWordsFrom {begun xs word : List Sourced} {x : Sourced}
    (hbegun : ∀ y ∈ begun, isSpace y.1 = false) (hword : word ∈ sourcedWordsFrom begun xs) (hx : x ∈ word) :
    isSpace x.1 = false := by
  induction xs generalizing begun with
  | nil =>
    rw [sourcedWordsFrom] at hword
    split at hword
    · simp at hword
    · rw [List.mem_singleton.mp hword] at hx
      exact hbegun x (List.mem_reverse.mp hx)
  | cons y rest ih =>
    rw [sourcedWordsFrom] at hword
    split at hword
    · split at hword
      · exact ih (by simp) hword
      · rcases List.mem_cons.mp hword with rfl | hword
        · exact hbegun x (List.mem_reverse.mp hx)
        · exact ih (by simp) hword
    · rename_i hspace
      refine ih ?_ hword
      intro z hz
      rcases List.mem_cons.mp hz with rfl | hz
      · simpa using hspace
      · exact hbegun z hz

theorem isSpace_of_mem_sourcedWords {xs word : List Sourced} {x : Sourced} (hword : word ∈ sourcedWords xs)
    (hx : x ∈ word) : isSpace x.1 = false := isSpace_of_mem_sourcedWordsFrom (by simp) hword hx

/-- What `strip` removes is white space. -/
theorem sourcedStrip_split (xs : List Sourced) : ∃ before after, xs = before ++ (sourcedStrip xs ++ after) ∧
    (∀ x ∈ before, IsGap x) ∧ ∀ x ∈ after, IsGap x := by
  refine ⟨xs.takeWhile fun x => isSpace x.1,
    ((xs.dropWhile fun x => isSpace x.1).reverse.takeWhile fun x => isSpace x.1).reverse, ?_, ?_, ?_⟩
  · rw [sourcedStrip, ← List.reverse_append, List.takeWhile_append_dropWhile, List.reverse_reverse,
      List.takeWhile_append_dropWhile]
  · intro x hx
    exact @List.mem_takeWhile_imp _ (fun x : Sourced => isSpace x.1) _ _ hx
  · intro x hx
    exact @List.mem_takeWhile_imp _ (fun x : Sourced => isSpace x.1) _ _ (List.mem_reverse.mp hx)

/-- A part without the white space around it, if anything is left. -/
theorem spread_sourcedStrip (part : List Sourced) :
    Spread IsGap 2 0 ([sourcedStrip part].filter (· ≠ [])) part := by
  obtain ⟨before, after, hsplit, hbefore, hafter⟩ := sourcedStrip_split part
  by_cases hstrip : sourcedStrip part = []
  · rw [hstrip, List.nil_append] at hsplit
    have hall : ∀ x ∈ part, IsGap x := by
      intro x hx
      rw [hsplit] at hx
      rcases List.mem_append.mp hx with hx | hx
      · exact hbefore x hx
      · exact hafter x hx
    simpa [hstrip] using Spread.done hall
  · have h : Spread IsGap 2 0 [sourcedStrip part] (before ++ (sourcedStrip part ++ after)) :=
      .part (sourcedStrip part) hbefore (Nat.zero_le _) (.done hafter)
    rw [← hsplit] at h
    simpa [hstrip] using h

theorem spread_sourcedParagraphsFrom (begun xs : List Sourced) :
    Spread IsGap 2 0 (((sourcedParagraphsFrom begun xs).map sourcedStrip).filter (· ≠ []))
      (begun.reverse ++ xs) := by
  induction begun, xs using sourcedParagraphsFrom.induct with
  | case1 begun i j rest ih =>
    have hgap : ∀ x ∈ [('\n', i), ('\n', j)], IsGap x := by
      intro x hx
      rcases List.mem_pair.mp hx with rfl | rfl
      · exact (by decide : isSpace '\n' = true)
      · exact (by decide : isSpace '\n' = true)
    have h := (spread_sourcedStrip begun.reverse).append (Nat.zero_le _) (ih.gap_append hgap (Nat.le_refl 2))
    rwa [← List.filter_append, List.singleton_append, ← List.map_cons, ← sourcedParagraphsFrom] at h
  | case2 begun x rest hnot ih =>
    rw [sourcedParagraphsFrom]
    · rwa [List.reverse_cons, List.append_assoc] at ih
    · exact hnot
  | case3 begun =>
    rw [sourcedParagraphsFrom, List.append_nil]
    exact spread_sourcedStrip begun.reverse

/-- The paragraphs of a text, with at least a blank line between them. -/
theorem spread_sourcedParagraphs (xs : List Sourced) : Spread IsGap 2 0 (sourcedParagraphs xs) xs :=
  spread_sourcedParagraphsFrom [] xs

/-! ## What a chunk is made of -/

/-- A chunk is some of the paragraphs, or a piece of one that is over the budget. -/
inductive IsChunk (maxTokens : ℕ) (paras : List (List Sourced)) : List Sourced → Prop
  | packed {current : List (List Sourced)} : (∀ para ∈ current, para ∈ paras) →
      IsChunk maxTokens paras ((inserted ['\n', '\n']).intercalate current)
  | cut {para chunk : List Sourced} : para ∈ paras → maxTokens < (sourcedWords para).length →
      chunk ∈ cutPieces maxTokens para → IsChunk maxTokens paras chunk

/-- The chunks so far are chunks, and what is being filled is made of paragraphs. -/
structure SourcedPacking.Packs (maxTokens : ℕ) (paras : List (List Sourced)) (packing : SourcedPacking) : Prop where
  chunks : ∀ chunk ∈ packing.chunks, IsChunk maxTokens paras chunk
  current : ∀ para ∈ packing.current, para ∈ paras

theorem SourcedPacking.Packs.flush {maxTokens : ℕ} {paras : List (List Sourced)} {packing : SourcedPacking}
    (h : packing.Packs maxTokens paras) : ∀ chunk ∈ packing.flush, IsChunk maxTokens paras chunk := by
  rw [SourcedPacking.flush]
  split
  · exact h.chunks
  · intro chunk hchunk
    rcases List.mem_append.mp hchunk with hchunk | hchunk
    · exact h.chunks chunk hchunk
    · rw [List.mem_singleton.mp hchunk]
      exact .packed h.current

theorem SourcedPacking.Packs.add {maxTokens : ℕ} {paras : List (List Sourced)} {packing : SourcedPacking}
    (h : packing.Packs maxTokens paras) {para : List Sourced} (hpara : para ∈ paras) :
    (packing.add maxTokens para).Packs maxTokens paras := by
  simp only [SourcedPacking.add]
  split
  · rename_i hlong
    constructor
    · intro chunk hchunk
      rcases List.mem_append.mp hchunk with hchunk | hchunk
      · exact h.flush chunk hchunk
      · exact .cut hpara hlong hchunk
    · simp
  · split
    · exact ⟨h.flush, by simpa using hpara⟩
    · refine ⟨h.chunks, ?_⟩
      intro other hother
      rcases List.mem_append.mp hother with hother | hother
      · exact h.current other hother
      · rw [List.mem_singleton.mp hother]
        exact hpara

/-- Every chunk of a text is made of its paragraphs. -/
theorem isChunk_of_mem {maxTokens : ℕ} {xs chunk : List Sourced} (h : chunk ∈ sourcedChunks maxTokens xs) :
    IsChunk maxTokens (sourcedParagraphs xs) chunk := by
  have hfold : ∀ (paras : List (List Sourced)) (packing : SourcedPacking),
      (∀ para ∈ paras, para ∈ sourcedParagraphs xs) → packing.Packs maxTokens (sourcedParagraphs xs) →
        (paras.foldl (SourcedPacking.add maxTokens) packing).Packs maxTokens (sourcedParagraphs xs) := by
    intro paras
    induction paras with
    | nil => intro packing _ hpacks; exact hpacks
    | cons para paras ih =>
      intro packing hparas hpacks
      simp only [List.mem_cons, forall_eq_or_imp] at hparas
      exact ih _ hparas.2 (hpacks.add hparas.1)
  exact (hfold _ ⟨[], [], 0⟩ (fun _ hpara => hpara) ⟨by simp, by simp⟩).flush chunk h

end FleetWorkflow.Rag
