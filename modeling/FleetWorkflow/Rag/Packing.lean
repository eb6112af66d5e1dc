import Mathlib.Algebra.GroupWithZero.Nat
import Mathlib.Data.List.TakeWhile
import FleetWorkflow.Flow.Pieces
import FleetWorkflow.Rag.Words

/-!
# Chunks lose nothing

A text is its paragraphs, and these are packed in their order: as many whole paragraphs into a chunk as fit the budget, and a
paragraph that is over the budget into chunks of its own. So the words of the chunks are those of the text, and every chunk
keeps to the budget.
-/

namespace FleetWorkflow.Rag

open Python Flow

/-- The paragraphs of a text: what stands between blank lines, without the space around it. -/
def paragraphs (text : String) : List String := ((splitParagraphs text).map strip).filter (· ≠ "")

/-- The words of a text, counted. -/
def wordCount (text : String) : ℕ := (splitWords text).length

/-- The words of several texts, counted. -/
def totalWordCount (texts : List String) : ℕ := (texts.map wordCount).sum

/-- Chunks that hold paragraphs in their order. A chunk of whole paragraphs keeps to the budget and could not have held the
next one; a paragraph over the budget is cut into pieces within it. -/
inductive Packs (maxTokens : ℕ) : List String → List Chunk → Prop
  | nil : Packs maxTokens [] []
  | whole {group rest : List String} {chunks : List Chunk} (nonempty : group ≠ [])
      (fits : totalWordCount group ≤ maxTokens)
      (full : ∀ next ∈ rest.head?, maxTokens < totalWordCount group + wordCount next) (others : Packs maxTokens rest chunks) :
      Packs maxTokens (group ++ rest) (⟨String.intercalate "\n\n" group⟩ :: chunks)
  | pieces {para : String} {words : List (List String)} {rest : List String} {chunks : List Chunk}
      (long : maxTokens < wordCount para) (all : words.flatten = splitWords para)
      (sizes : ∀ piece ∈ words, 1 ≤ piece.length ∧ piece.length ≤ maxTokens) (others : Packs maxTokens rest chunks) :
      Packs maxTokens (para :: rest) ((words.map fun piece => ⟨String.intercalate " " piece⟩) ++ chunks)

/-- The chunks of a text: each has words and keeps to the budget, their words are those of the text, they hold its paragraphs
in order, and each paragraph that fits is whole in one of them. -/
structure ChunksOf (maxTokens : ℕ) (text : String) (chunks : List Chunk) : Prop where
  sizes : ∀ chunk ∈ chunks, 1 ≤ wordCount chunk.content ∧ wordCount chunk.content ≤ maxTokens
  words : (chunks.flatMap fun chunk => splitWords chunk.content) = splitWords text
  packed : Packs maxTokens (paragraphs text) chunks
  unsplit : ∀ para ∈ paragraphs text, wordCount para ≤ maxTokens → ∃ chunk ∈ chunks, ∃ before after,
    chunk.content = String.intercalate "\n\n" (before ++ para :: after)

/-! ## The words of paragraphs -/

/-- What is stripped is space on both sides. -/
theorem exists_stripped (cs : List Char) : ∃ front back, cs = front ++ stripChars cs ++ back ∧
    (∀ c ∈ front, isSpace c = true) ∧ ∀ c ∈ back, isSpace c = true := by
  refine ⟨cs.takeWhile isSpace, ((cs.dropWhile isSpace).reverse.takeWhile isSpace).reverse, ?_, ?_, ?_⟩
  · rw [stripChars, List.append_assoc, ← List.reverse_append, List.takeWhile_append_dropWhile, List.reverse_reverse,
      List.takeWhile_append_dropWhile]
  · exact fun c hc => List.mem_takeWhile_imp hc
  · exact fun c hc => List.mem_takeWhile_imp (List.mem_reverse.mp hc)

/-- Space at the end ends a word and adds none. -/
theorem splitWordsFrom_trailing {back : List Char} (h : ∀ c ∈ back, isSpace c = true) (cs : List Char) :
    splitWordsFrom [] (cs ++ back) = splitWordsFrom [] cs := by
  by_cases hne : back = []
  · rw [hne, List.append_nil]
  · have hsplit := splitWordsFrom_separated hne h [] cs []
    rwa [List.append_nil, splitWordsFrom, if_pos rfl, List.append_nil] at hsplit

/-- Stripping keeps the words. -/
theorem splitWords_strip (text : String) : splitWords (strip text) = splitWords text := by
  obtain ⟨front, back, hparts, hfront, hback⟩ := exists_stripped text.toList
  rw [splitWords, splitWords, strip, String.toList_ofList]
  conv_rhs => rw [hparts]
  rw [splitWordsFrom_trailing hback, splitWordsFrom_spaces hfront]

/-- The words of a text are those of the parts between blank lines. -/
theorem splitWordsFrom_paragraphs (begun cs : List Char) :
    (splitParagraphsFrom begun cs).flatMap splitWords = splitWordsFrom [] (begun.reverse ++ cs) := by
  have hblank : ∀ c ∈ ['\n', '\n'], isSpace c = true := List.all_eq_true.mp (by decide)
  induction begun, cs using splitParagraphsFrom.induct with
  | case1 begun rest ih =>
    have hjoin : begun.reverse ++ '\n' :: '\n' :: rest = begun.reverse ++ ['\n', '\n'] ++ rest := by simp
    rw [splitParagraphsFrom, List.flatMap_cons, ih, hjoin, splitWordsFrom_separated (by simp) hblank, splitWords,
      String.toList_ofList]
    rfl
  | case2 begun c rest hnot ih =>
    rw [splitParagraphsFrom, ih, List.reverse_cons, List.append_assoc]
    · rfl
    · exact hnot
  | case3 begun => simp [splitParagraphsFrom, splitWords]

/-- The words of a text are those of its paragraphs. -/
theorem flatMap_paragraphs (text : String) : (paragraphs text).flatMap splitWords = splitWords text := by
  have hempty : splitWords "" = [] := rfl
  have hfilter (parts : List String) : (parts.filter (· ≠ "")).flatMap splitWords = parts.flatMap splitWords := by
    induction parts with
    | nil => rfl
    | cons part parts ih =>
      by_cases hpart : part = ""
      · simp [hpart, hempty, ← ih]
      · simp [hpart, ← ih]
  rw [paragraphs, hfilter, List.flatMap_map]
  simp only [splitWords_strip]
  rw [splitParagraphs, splitWordsFrom_paragraphs]
  rfl

/-- A word that has begun is found. -/
theorem splitWordsFrom_ne_nil {begun : List Char} (h : begun ≠ []) (cs : List Char) : splitWordsFrom begun cs ≠ [] := by
  induction cs generalizing begun with
  | nil => simp [splitWordsFrom, h]
  | cons c cs ih =>
    rw [splitWordsFrom]
    split
    · simp
    · exact ih (List.cons_ne_nil c begun)

/-- A paragraph has words. -/
theorem wordCount_pos {text para : String} (h : para ∈ paragraphs text) : 1 ≤ wordCount para := by
  obtain ⟨hpara, hne⟩ := List.mem_filter.mp h
  obtain ⟨part, -, rfl⟩ := List.mem_map.mp hpara
  have hne' : part.toList.dropWhile isSpace ≠ [] := by
    intro hnil
    simp [strip, stripChars, hnil] at hne
  obtain ⟨c, rest, hcons⟩ := List.exists_cons_of_ne_nil hne'
  have hc : isSpace c = false := by
    have hhead := List.head_dropWhile_not isSpace hne'
    simpa [hcons] using hhead
  have hwords : splitWords part ≠ [] := by
    have hsplit : splitWordsFrom [] part.toList = splitWordsFrom [] (c :: rest) := by
      conv_lhs => rw [← List.takeWhile_append_dropWhile (p := isSpace) (l := part.toList), hcons]
      exact splitWordsFrom_spaces (fun d hd => List.mem_takeWhile_imp hd) _
    rw [splitWords, hsplit, splitWordsFrom, if_neg (by simp [hc])]
    exact splitWordsFrom_ne_nil (List.cons_ne_nil c []) rest
  rw [wordCount, splitWords_strip]
  exact List.length_pos_of_ne_nil hwords

/-! ## Packing -/

variable {maxTokens : ℕ}

theorem totalWordCount_append (texts texts' : List String) :
    totalWordCount (texts ++ texts') = totalWordCount texts + totalWordCount texts' := by
  simp [totalWordCount]

theorem totalWordCount_singleton (text : String) : totalWordCount [text] = wordCount text := by simp [totalWordCount]

/-- The chunk that is being filled is kept to the budget. -/
structure Packing.Filling (maxTokens : ℕ) (packing : Packing) : Prop where
  counted : packing.currentLen = totalWordCount packing.current
  fits : packing.currentLen ≤ maxTokens

/-- Closing the chunk that is being filled, when what follows does not fit any more. -/
theorem Packing.Filling.flush_packs {packing : Packing} (h : packing.Filling maxTokens) {rest : List String}
    {chunks : List Chunk} (hrest : Packs maxTokens rest chunks)
    (hfull : packing.current ≠ [] → ∀ next ∈ rest.head?, maxTokens < packing.currentLen + wordCount next) :
    ∃ others, packing.flush ++ chunks = packing.chunks ++ others ∧ Packs maxTokens (packing.current ++ rest) others := by
  by_cases hempty : packing.current = []
  · exact ⟨chunks, by rw [Packing.flush, if_pos hempty], by rwa [hempty]⟩
  · refine ⟨⟨String.intercalate "\n\n" packing.current⟩ :: chunks, by simp [Packing.flush, hempty], ?_⟩
    exact .whole hempty (h.counted ▸ h.fits) (h.counted ▸ hfull hempty) hrest

/-- The loop packs what is being filled and the paragraphs that are left. -/
theorem foldl_add_packs (hmax : 1 ≤ maxTokens) (paras : List String) (packing : Packing) (h : packing.Filling maxTokens) :
    ∃ others, (paras.foldl (Packing.add maxTokens) packing).flush = packing.chunks ++ others ∧
      Packs maxTokens (packing.current ++ paras) others := by
  induction paras generalizing packing with
  | nil =>
    obtain ⟨others, hflush, hpacks⟩ := h.flush_packs .nil fun _ next hnext => by cases hnext
    exact ⟨others, by rwa [List.append_nil] at hflush, hpacks⟩
  | cons para paras ih =>
    rw [List.foldl_cons]
    by_cases hlong : maxTokens < wordCount para
    · -- A long paragraph closes the chunk and is cut.
      have hadd : packing.add maxTokens para = ⟨packing.flush ++
          ((splitWords para).toChunks maxTokens).map fun piece => ⟨String.intercalate " " piece⟩, [], 0⟩ := if_pos hlong
      obtain ⟨others, hothers, hpacks⟩ := ih (packing.add maxTokens para) (by rw [hadd]; exact ⟨rfl, Nat.zero_le _⟩)
      rw [hadd] at hothers hpacks
      obtain ⟨all, hflush, hall⟩ := h.flush_packs (.pieces hlong (flatten_toChunks maxTokens _)
        (fun piece hpiece => length_of_mem_toChunks hmax hpiece) hpacks) fun _ next hnext => by
          cases hnext
          omega
      refine ⟨all, ?_, hall⟩
      rw [← hflush, hadd, hothers, List.append_assoc]
    · by_cases hfull : maxTokens < packing.currentLen + wordCount para ∧ packing.current ≠ []
      · -- The paragraph does not fit any more, and starts the next chunk.
        have hadd : packing.add maxTokens para = ⟨packing.flush, [para], wordCount para⟩ :=
          (if_neg hlong).trans (if_pos hfull)
        obtain ⟨others, hothers, hpacks⟩ := ih (packing.add maxTokens para)
          (by rw [hadd]; exact ⟨(totalWordCount_singleton para).symm, Nat.le_of_not_lt hlong⟩)
        rw [hadd] at hothers hpacks
        obtain ⟨all, hflush, hall⟩ := h.flush_packs hpacks fun _ next hnext => by
          cases hnext
          exact hfull.1
        refine ⟨all, ?_, hall⟩
        rw [← hflush, hadd, hothers]
      · -- The paragraph still fits.
        have hadd : packing.add maxTokens para =
            ⟨packing.chunks, packing.current ++ [para], packing.currentLen + wordCount para⟩ :=
          (if_neg hlong).trans (if_neg hfull)
        have hfits : packing.currentLen + wordCount para ≤ maxTokens := by
          by_cases hempty : packing.current = []
          · have hcounted := h.counted
            rw [hempty] at hcounted
            simp only [totalWordCount, List.map_nil, List.sum_nil] at hcounted
            omega
          · exact Nat.le_of_not_lt fun hover => hfull ⟨hover, hempty⟩
        obtain ⟨others, hothers, hpacks⟩ := ih (packing.add maxTokens para) (by
          rw [hadd]
          refine ⟨?_, hfits⟩
          rw [totalWordCount_append, totalWordCount_singleton, h.counted])
        rw [hadd] at hothers hpacks
        rw [List.append_assoc] at hpacks
        exact ⟨others, by rw [hadd]; exact hothers, hpacks⟩

/-! ## What packed chunks hold -/

variable {paras : List String} {chunks : List Chunk}

/-- Blank lines join the words of paragraphs. -/
theorem splitWords_group (group : List String) :
    splitWords (String.intercalate "\n\n" group) = group.flatMap splitWords :=
  splitWords_intercalate (by decide) (List.all_eq_true.mp (by decide)) group

theorem wordCount_group (group : List String) : wordCount (String.intercalate "\n\n" group) = totalWordCount group := by
  rw [wordCount, splitWords_group, List.length_flatMap]
  rfl

/-- A piece of a paragraph has its words. -/
theorem splitWords_piece {para : String} {words : List (List String)} (hall : words.flatten = splitWords para)
    {piece : List String} (hpiece : piece ∈ words) : splitWords (String.intercalate " " piece) = piece := by
  apply splitWords_join
  intro word hword
  have hmem : word ∈ splitWords para := by
    rw [← hall]
    exact List.mem_flatten_of_mem hpiece hword
  exact isWord_of_mem hmem

/-- Packed chunks have words and keep to the budget. -/
theorem Packs.sizes (h : Packs maxTokens paras chunks) (hparas : ∀ para ∈ paras, 1 ≤ wordCount para) :
    ∀ chunk ∈ chunks, 1 ≤ wordCount chunk.content ∧ wordCount chunk.content ≤ maxTokens := by
  induction h with
  | nil => exact List.forall_mem_nil _
  | @whole group rest chunks hne hfits hfull _ ih =>
    rw [List.forall_mem_append] at hparas
    refine List.forall_mem_cons.mpr ⟨?_, ih hparas.2⟩
    rw [wordCount_group]
    refine ⟨?_, hfits⟩
    obtain ⟨para, others, rfl⟩ := List.exists_cons_of_ne_nil hne
    have hpara := hparas.1 para List.mem_cons_self
    rw [← List.singleton_append, totalWordCount_append, totalWordCount_singleton]
    omega
  | @pieces para words rest chunks hlong hall hsizes _ ih =>
    refine List.forall_mem_append.mpr ⟨?_, ih (List.forall_mem_cons.mp hparas).2⟩
    intro chunk hchunk
    obtain ⟨piece, hpiece, rfl⟩ := List.mem_map.mp hchunk
    rw [wordCount, splitWords_piece hall hpiece]
    exact hsizes piece hpiece

/-- Packed chunks have the words of the paragraphs. -/
theorem Packs.words (h : Packs maxTokens paras chunks) :
    (chunks.flatMap fun chunk => splitWords chunk.content) = paras.flatMap splitWords := by
  induction h with
  | nil => rfl
  | whole _ _ _ _ ih => rw [List.flatMap_cons, List.flatMap_append, splitWords_group, ih]
  | @pieces para words rest chunks hlong hall hsizes _ ih =>
    have hpieces : words.flatMap (fun piece => splitWords (String.intercalate " " piece)) = words.flatMap id :=
      List.flatMap_congr fun piece hpiece => splitWords_piece hall hpiece
    rw [List.flatMap_append, List.flatMap_map, hpieces, List.flatMap_id, hall, List.flatMap_cons, ih]

/-- A paragraph that fits is whole in a packed chunk. -/
theorem Packs.unsplit (h : Packs maxTokens paras chunks) {para : String} (hpara : para ∈ paras)
    (hfits : wordCount para ≤ maxTokens) : ∃ chunk ∈ chunks, ∃ before after,
      chunk.content = String.intercalate "\n\n" (before ++ para :: after) := by
  induction h with
  | nil => cases hpara
  | whole _ _ _ _ ih =>
    rcases List.mem_append.mp hpara with hpara | hpara
    · obtain ⟨before, after, rfl⟩ := List.append_of_mem hpara
      exact ⟨_, List.mem_cons_self, before, after, rfl⟩
    · obtain ⟨chunk, hchunk, hcontent⟩ := ih hpara
      exact ⟨chunk, List.mem_cons_of_mem _ hchunk, hcontent⟩
  | pieces hlong _ _ _ ih =>
    rcases List.mem_cons.mp hpara with rfl | hpara
    · omega
    · obtain ⟨chunk, hchunk, hcontent⟩ := ih hpara
      exact ⟨chunk, List.mem_append_right _ hchunk, hcontent⟩

/-- Chunking a text loses nothing, whatever the text and the budget. -/
theorem chunkText_chunksOf (maxTokens : ℕ) (text : String) (hmax : 1 ≤ maxTokens) :
    ChunksOf maxTokens text (chunkText maxTokens text) := by
  obtain ⟨others, hflush, hpacks⟩ := foldl_add_packs hmax (paragraphs text) ⟨[], [], 0⟩ ⟨rfl, Nat.zero_le _⟩
  have hchunks : chunkText maxTokens text = others := hflush
  rw [hchunks]
  refine ⟨hpacks.sizes fun para hpara => wordCount_pos hpara, ?_, hpacks, fun para hpara => hpacks.unsplit hpara⟩
  rw [hpacks.words]
  exact flatMap_paragraphs text

/-- Two paragraphs that fit together, one that fits no more, and one that is cut. -/
theorem chunkText_chunksOf_three :
    ChunksOf 3 "a b\n\nc\n\n \n\nd\n\ne f g h" (chunkText 3 "a b\n\nc\n\n \n\nd\n\ne f g h") :=
  chunkText_chunksOf 3 _ (by decide)

end FleetWorkflow.Rag
