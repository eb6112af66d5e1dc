import FleetWorkflow.Flow.Fallible
import FleetWorkflow.Rag.Dedup
import FleetWorkflow.Rag.Recognisers

/-!
# Masking and chunks

A text is cut into chunks before it is scanned. What the Turkish recognisers find in the whole text is
found in the chunks too, but for telephone numbers in a paragraph that is over the budget: these can be
cut between two pieces, or read together with other words.
-/

namespace FleetWorkflow.Rag

open Python Flow
open Re (Spread marked marks)

/-! ## From the text to a chunk -/

section Agreement

variable {isWord : Char → Bool} {text : String} {chunk : List Sourced}

theorem mem_sourced {c : Char} {k : ℕ} : (c, some k) ∈ sourced text ↔ text.toList[k]? = some c := by
  simp [sourced, List.mem_zipIdx_iff_getElem?]

theorem mem_marked_sourced {re : Re} {wanted : List Char → Bool} {c : Char} {k : ℕ} {mark : Bool} :
    ((c, some k), mark) ∈ marked Prod.fst isWord re wanted (sourced text) ↔
      text.toList[k]? = some c ∧ (marks isWord re wanted text.toList)[k]? = some mark := by
  have hchars : (sourced text).map Prod.fst = text.toList := chars_sourced text
  rw [marked, hchars, List.mem_iff_getElem?]
  simp only [List.getElem?_zip_eq_some]
  constructor
  · rintro ⟨j, hj, hmark⟩
    have hk : j = k ∧ text.toList[j]? = some c := by
      simp only [sourced, List.getElem?_map, Option.map_eq_some_iff, Prod.mk.injEq, Option.some.injEq] at hj
      obtain ⟨⟨d, m⟩, hd, rfl, rfl⟩ := hj
      simpa [List.getElem?_zipIdx, and_comm, eq_comm] using hd
    rw [← hk.1]
    exact ⟨hk.2, hmark⟩
  · rintro ⟨hc, hmark⟩
    refine ⟨k, ?_, hmark⟩
    simp [sourced, List.getElem?_zipIdx, hc]

/-- The marks of a chunk are those of the text, if its parts are parts of the text. -/
theorem marks_agree {re : Re} {width : ℕ} {wanted : List Char → Bool} {isGap : Sourced → Prop}
    {parts textParts : List (List Sourced)} (hre : re.TakesCompact isWord width)
    (hword : ∀ c, isSpace c → isWord c = false) (hwidth : 0 < width)
    (htext : Spread IsGap width 0 textParts (sourced text)) (hchunk : Spread isGap width 0 parts chunk)
    (hspace : ∀ x, isGap x → isSpace x.1) (hparts : ∀ part ∈ parts, part ∈ textParts)
    (hgap : ∀ x, isGap x → x.2 ≠ none → ∀ part ∈ textParts, x ∉ part) {i k : ℕ} {c : Char}
    (hsource : (c, some k) ∈ sourced text) (hc : chunk[i]? = some (c, some k))
    (hmark : (marks isWord re wanted text.toList)[k]? = some true) :
    (marks isWord re wanted (chars chunk))[i]? = some true := by
  have htrue := (@mem_marked_sourced isWord text re wanted c k true).mpr ⟨mem_sourced.mp hsource, hmark⟩
  have hlength : (marks isWord re wanted (chars chunk)).length = chunk.length := by
    rw [Re.length_marks, chars, List.length_map]
  obtain ⟨mark, hi⟩ : ∃ mark, (marks isWord re wanted (chars chunk))[i]? = some mark := by
    have hlt := (List.getElem?_eq_some_iff.mp hc).1
    exact ⟨_, List.getElem?_eq_getElem (hlength ▸ hlt)⟩
  have hentry : ((c, some k), mark) ∈ marked Prod.fst isWord re wanted chunk :=
    List.mem_of_getElem? (List.getElem?_zip_eq_some.mpr ⟨hc, hi⟩)
  rcases Re.mem_marked_of_spread hre hword hspace hwidth hchunk hentry with ⟨part, hpart, h⟩ | ⟨h, -⟩
  · have hsame := Re.mem_marked_of_part hre hword (fun _ hx => hx) hwidth htext (hparts part hpart) h
    rw [(mem_marked_sourced.mp hsame).2] at hmark
    rw [hi, hmark]
  · rcases Re.mem_marked_of_spread hre hword (fun _ hx => hx) hwidth htext htrue with ⟨part, hpart, hin⟩ | ⟨-, hfalse⟩
    · exact absurd (List.of_mem_zip hin).1 (hgap _ h (Option.some_ne_none k) part hpart)
    · cases hfalse

/-- A recogniser finds a position if its pattern marks it. -/
theorem exists_covers_iff {recogniser : Recogniser} {text : String} {k : ℕ} :
    (∃ finding ∈ recogniser.analyze isWord text, finding.Covers k) ↔
      (marks isWord recogniser.pattern recogniser.valid text.toList)[k]? = some true := by
  rw [← Re.mem_finditer]
  simp only [Recogniser.analyze, List.mem_map, exists_exists_and_eq_and, PiiFinding.Covers]

/-- The words of the paragraphs of a text, with white space between them. -/
theorem spread_words (text : String) :
    Spread IsGap 1 0 ((sourcedParagraphs (sourced text)).flatMap sourcedWords) (sourced text) :=
  (spread_sourcedParagraphs _).flatMap (fun _ hx => hx) (Nat.le_succ 1) (fun part _ => spread_sourcedWords part)
    (Nat.le_refl 0)

theorem isInsertedGap_of_mem {separator : List Char} (hseparator : separator.all isSpace) {x : Sourced}
    (hx : x ∈ inserted separator) : IsInsertedGap x := by
  obtain ⟨c, hc, rfl⟩ := List.mem_map.mp hx
  exact ⟨List.all_eq_true.mp hseparator c hc, rfl⟩

/-- Packed paragraphs, with what is inserted between them. -/
theorem spread_packed (current : List (List Sourced)) :
    Spread IsInsertedGap 2 0 current ((inserted ['\n', '\n']).intercalate current) :=
  Spread.intercalate (fun _ hx => isInsertedGap_of_mem (by decide) hx) (Nat.le_refl 2) current

/-- The words of a piece of a paragraph, with what is inserted between them. -/
theorem spread_cut {maxTokens : ℕ} {para chunk : List Sourced} (h : chunk ∈ cutPieces maxTokens para) :
    ∃ words, (∀ word ∈ words, word ∈ sourcedWords para) ∧ Spread IsInsertedGap 1 0 words chunk := by
  obtain ⟨words, hwords, rfl⟩ := List.mem_map.mp h
  refine ⟨words, fun word hword => mem_of_mem_toChunks hwords hword, ?_⟩
  exact Spread.intercalate (fun _ hx => isInsertedGap_of_mem (by decide) hx) (Nat.le_refl 1) words

/-- The words of a chunk are words of the text. -/
theorem spread_chunk_words {maxTokens : ℕ} {paras : List (List Sourced)} (h : IsChunk maxTokens paras chunk) :
    ∃ words, (∀ word ∈ words, word ∈ paras.flatMap sourcedWords) ∧ Spread IsGap 1 0 words chunk := by
  cases h with
  | @packed current hcurrent =>
    refine ⟨current.flatMap sourcedWords, ?_, ?_⟩
    · intro word hword
      obtain ⟨para, hpara, hword⟩ := List.mem_flatMap.mp hword
      exact List.mem_flatMap.mpr ⟨para, hcurrent para hpara, hword⟩
    · exact (spread_packed current).flatMap (fun _ hx => hx.1) (Nat.le_succ 1)
        (fun part _ => spread_sourcedWords part) (Nat.le_refl 0)
  | @cut para _ hpara _ hchunk =>
    obtain ⟨words, hwords, hspread⟩ := spread_cut hchunk
    refine ⟨words, fun word hword => List.mem_flatMap.mpr ⟨para, hpara, hwords word hword⟩, ?_⟩
    rw [← List.flatMap_singleton' words]
    exact hspread.flatMap (fun _ hx => hx.1) (Nat.le_refl 1) (fun word _ => .singleton word) (Nat.le_refl 0)

/-- What has a position in the text comes from there. -/
theorem mem_sourced_of_mem_chunk {maxTokens : ℕ} (h : chunk ∈ sourcedChunks maxTokens (sourced text))
    {c : Char} {k : ℕ} (hx : (c, some k) ∈ chunk) : (c, some k) ∈ sourced text := by
  have hparas := spread_sourcedParagraphs (sourced text)
  cases isChunk_of_mem h with
  | @packed current hcurrent =>
    rcases (spread_packed current).mem_part_or_gap hx with ⟨para, hpara, hx⟩ | hgap
    · exact hparas.mem (hcurrent para hpara) hx
    · exact absurd hgap.2 (Option.some_ne_none k)
  | @cut para _ hpara _ hchunk =>
    obtain ⟨words, hwords, hspread⟩ := spread_cut hchunk
    rcases hspread.mem_part_or_gap hx with ⟨word, hword, hx⟩ | hgap
    · exact hparas.mem hpara ((spread_sourcedWords para).mem (hwords word hword) hx)
    · exact absurd hgap.2 (Option.some_ne_none k)

/-- A pattern without white space finds in a chunk what it finds in the text. -/
theorem covers_chunk_of_word {recogniser : Recogniser} (hre : recogniser.pattern.TakesCompact isWord 1)
    (hword : ∀ c, isSpace c → isWord c = false) {maxTokens : ℕ}
    (hchunk : chunk ∈ sourcedChunks maxTokens (sourced text)) {i k : ℕ} {c : Char}
    (hc : chunk[i]? = some (c, some k)) (hfound : ∃ finding ∈ recogniser.analyze isWord text, finding.Covers k) :
    ∃ finding ∈ recogniser.analyze isWord (erase chunk), finding.Covers i := by
  obtain ⟨words, hwords, hspread⟩ := spread_chunk_words (isChunk_of_mem hchunk)
  rw [exists_covers_iff] at hfound ⊢
  rw [erase, String.toList_ofList]
  apply marks_agree hre hword Nat.one_pos (spread_words text) hspread (fun _ hx => hx) hwords _ _ hc hfound
  · intro x hx _ word hword hmem
    obtain ⟨para, -, hword⟩ := List.mem_flatMap.mp hword
    have hclear := isSpace_of_mem_sourcedWords hword hmem
    rw [show isSpace x.1 = true from hx] at hclear
    cases hclear
  · exact mem_sourced_of_mem_chunk hchunk (List.mem_of_getElem? hc)

/-- A pattern without two characters of white space in a row finds in packed paragraphs what it finds in
the text. -/
theorem covers_chunk_of_packed {recogniser : Recogniser} (hre : recogniser.pattern.TakesCompact isWord 2)
    (hword : ∀ c, isSpace c → isWord c = false) {maxTokens : ℕ} {current : List (List Sourced)}
    (hcurrent : ∀ para ∈ current, para ∈ sourcedParagraphs (sourced text))
    (hpacked : chunk = (inserted ['\n', '\n']).intercalate current)
    (hchunk : chunk ∈ sourcedChunks maxTokens (sourced text)) {i k : ℕ} {c : Char}
    (hc : chunk[i]? = some (c, some k)) (hfound : ∃ finding ∈ recogniser.analyze isWord text, finding.Covers k) :
    ∃ finding ∈ recogniser.analyze isWord (erase chunk), finding.Covers i := by
  have hspread := spread_packed current
  rw [← hpacked] at hspread
  rw [exists_covers_iff] at hfound ⊢
  rw [erase, String.toList_ofList]
  apply marks_agree hre hword Nat.two_pos (spread_sourcedParagraphs _) hspread (fun _ hx => hx.1) hcurrent _ _ hc
    hfound
  · intro x hx hsome
    exact absurd hx.2 hsome
  · exact mem_sourced_of_mem_chunk hchunk (List.mem_of_getElem? hc)

end Agreement

/-! ## What is stored -/

/-- The replacement of a finding, among characters with positions. -/
def PiiFinding.sourcedEdit (finding : PiiFinding) : Edit Sourced := ⟨finding.span, inserted finding.placeholder⟩

/-- A chunk after redaction, with the positions of its characters. -/
def redactSourced (chunk : List Sourced) (findings : List PiiFinding) : List Sourced :=
  Edit.applyAll chunk (findings.map PiiFinding.sourcedEdit)

/-- What the scanner finds in a text. -/
def scanned (scanText : String → Except Exc (List PiiFinding)) (text : String) : List PiiFinding :=
  match scanText text with
  | .ok findings => findings
  | .error _ => []

/-- The chunks of a text that are not embedded yet. -/
def freshSources (text : String) (existing : List String) : List (List Sourced) :=
  (sourcedChunks defaultMaxTokens (sourced text)).filter fun chunk => (Chunk.mk (erase chunk)).contentSha256 ∉ existing

/-- What is embedded and stored of a text under the policy `redact`. -/
def storedSources (scanText : String → Except Exc (List PiiFinding)) (text : String) (existing : List String) :
    List (List Sourced) :=
  (freshSources text existing).map fun chunk => redactSourced chunk (scanned scanText (erase chunk))

theorem erase_freshSources (text : String) (existing : List String) :
    (freshSources text existing).map (fun chunk => Chunk.mk (erase chunk)) = freshChunks text existing := by
  rw [freshChunks, dedupChunks, ← erase_sourced text, ← erase_sourcedChunks, List.filter_map, erase_sourced]
  rfl

theorem erase_redactSourced (chunk : List Sourced) (findings : List PiiFinding) :
    erase (redactSourced chunk findings) = redact (erase chunk) findings := by
  apply String.toList_injective
  have hedits : (findings.map PiiFinding.sourcedEdit).map (Edit.map Prod.fst) = findings.map PiiFinding.edit := by
    rw [List.map_map]
    congr 1
    funext finding
    simp only [Function.comp_apply, PiiFinding.sourcedEdit, Edit.map, PiiFinding.edit]
    rw [show (inserted finding.placeholder).map Prod.fst = finding.placeholder from chars_inserted _]
  rw [toList_redact, erase, erase, String.toList_ofList, String.toList_ofList, redactSourced, chars,
    Edit.map_applyAll, hedits]
  rfl

theorem redact_nil (text : String) : redact text [] = text := by
  rw [redact, List.mergeSort_nil, List.foldl_nil]

/-- Under the policy `redact` a chunk is never blocked, and its text is redacted. -/
theorem text_of_applyPiiPolicy {scanText : String → Except Exc (List PiiFinding)} {text : String}
    {policy : PolicyResult} (h : applyPiiPolicy scanText "redact" text = .ok policy) :
    scanText text = .ok (scanned scanText text) ∧ policy.blocked = false ∧
      policy.text = redact text (scanned scanText text) := by
  have hknown : "redact" ∈ knownPolicies := by decide
  rw [applyPiiPolicy, if_neg (not_not_intro hknown)] at h
  obtain ⟨findings, hfindings, hresult⟩ := Flow.bind_eq_ok.mp h
  have hscanned : scanned scanText text = findings := by rw [scanned, hfindings]
  rw [hscanned]
  simp only [String.reduceEq, if_false] at hresult
  split at hresult
  · rename_i hempty
    cases hresult
    rw [List.isEmpty_iff.mp hempty, redact_nil]
    rw [List.isEmpty_iff.mp hempty] at hfindings
    exact ⟨hfindings, rfl, rfl⟩
  · cases hresult
    exact ⟨hfindings, rfl, rfl⟩

section Policies

variable {libraries : Libraries} {upload : Upload} (hpolicy : upload.piiPolicy = "redact")

include hpolicy in
/-- What the policy makes of the chunks, one by one. -/
theorem forall₂_chunkPolicies {chunks : List Chunk} {policies : List Kept}
    (h : chunkPolicies libraries upload chunks = .ok policies) :
    List.Forall₂ (fun (chunk : Chunk) (kept : Kept) =>
      libraries.scanText chunk.content = .ok (scanned libraries.scanText chunk.content) ∧ kept.2.blocked = false ∧
        kept.2.text = redact chunk.content (scanned libraries.scanText chunk.content)) chunks policies := by
  apply (Flow.forall₂_of_mapM h).imp
  intro chunk kept hkept
  obtain ⟨policy, hresult, hpair⟩ := Flow.bind_eq_ok.mp hkept
  cases hpair
  rw [hpolicy] at hresult
  exact text_of_applyPiiPolicy hresult

include hpolicy in
/-- The texts that are embedded are those whose characters were followed. -/
theorem texts_of_chunkPolicies {text : String} {existing : List String} {policies : List Kept}
    (h : chunkPolicies libraries upload (freshChunks text existing) = .ok policies) :
    (policies.filter fun kept => !kept.2.blocked).map (fun kept => kept.2.text) =
      (storedSources libraries.scanText text existing).map erase := by
  have hchunks := forall₂_chunkPolicies hpolicy h
  have hstored : (storedSources libraries.scanText text existing).map erase = (freshChunks text existing).map
      fun chunk => redact chunk.content (scanned libraries.scanText chunk.content) := by
    rw [storedSources, List.map_map, ← erase_freshSources, List.map_map]
    congr 1
    funext chunk
    exact erase_redactSourced chunk _
  rw [hstored]
  clear hstored h
  generalize freshChunks text existing = chunks at hchunks ⊢
  induction hchunks with
  | nil => rfl
  | cons hkept _ ih => rw [List.filter_cons_of_pos (by simp [hkept.2.1]), List.map_cons, List.map_cons, ih, hkept.2.2]

include hpolicy in
theorem scanText_of_chunkPolicies {chunks : List Chunk} {policies : List Kept}
    (h : chunkPolicies libraries upload chunks = .ok policies) {chunk : Chunk} (hchunk : chunk ∈ chunks) :
    libraries.scanText chunk.content = .ok (scanned libraries.scanText chunk.content) := by
  obtain ⟨kept, -, hkept⟩ := Flow.exists_of_forall₂ (forall₂_chunkPolicies hpolicy h).flip hchunk
  exact hkept.1

end Policies

/-! ## What stays of an identifier -/

/-- What the scanner is relied on for: it reports what its Turkish recognisers find, and nothing beyond
the text. -/
structure ScansTurkish (isWord : Char → Bool) (scanText : String → Except Exc (List PiiFinding)) : Prop where
  reports : ∀ text findings, scanText text = .ok findings → ∀ recogniser ∈ turkishRecognisers,
    ∀ finding ∈ recogniser.analyze isWord text, ∃ reported ∈ findings,
      reported.start ≤ finding.start ∧ finding.stop ≤ reported.stop
  inBounds : ∀ text findings, scanText text = .ok findings → ∀ reported ∈ findings,
    reported.span.InBounds text.length

/-- Of no identifier that the Turkish recognisers find in a text, any part is left. -/
def Unexposed (isWord : Char → Bool) (text : String) (stored : List Sourced) : Prop :=
  ∀ recogniser ∈ turkishRecognisers, ∀ finding ∈ recogniser.analyze isWord text, ∀ c k,
    (c, some k) ∈ stored → ¬ finding.Covers k

/-- The findings of a text keep apart. -/
def KeepsApart (findings : List PiiFinding) : Prop := (findings.map PiiFinding.span).Pairwise Span.Apart

instance (findings : List PiiFinding) : Decidable (KeepsApart findings) :=
  inferInstanceAs (Decidable ((findings.map PiiFinding.span).Pairwise Span.Apart))

/-- Each part of a telephone number of the text that falls into a piece is found in the piece. -/
def FindsPhones (isWord : Char → Bool) (scanText : String → Except Exc (List PiiFinding)) (text : String)
    (piece : List Sourced) : Prop :=
  ∀ finding ∈ trPhone.analyze isWord text, ∀ i c k, piece[i]? = some (c, some k) → finding.Covers k →
    ∃ found ∈ scanned scanText (erase piece), found.Covers i

/-- What is left of a chunk is what no finding covers, if the findings keep apart. -/
theorem mem_redactSourced {chunk : List Sourced} {findings : List PiiFinding}
    (hbounds : ∀ finding ∈ findings, finding.span.InBounds (erase chunk).length) (happart : KeepsApart findings)
    {c : Char} {k : ℕ} : (c, some k) ∈ redactSourced chunk findings ↔
      ∃ i, chunk[i]? = some (c, some k) ∧ ∀ finding ∈ findings, ¬ finding.Covers i := by
  have hexact : Edit.Exact chunk (findings.map PiiFinding.sourcedEdit) (redactSourced chunk findings) := by
    apply Edit.exact_applyAll
    · intro edit hedit
      obtain ⟨finding, hfinding, rfl⟩ := List.mem_map.mp hedit
      have hlength : (erase chunk).length = chunk.length := by simp [erase, chars]
      rw [← hlength]
      exact hbounds finding hfinding
    · rw [KeepsApart, List.pairwise_map] at happart
      rw [List.pairwise_map]
      exact happart
  have hcovered : ∀ i, Edit.Covered (findings.map PiiFinding.sourcedEdit) (0 + i) ↔
      ∃ finding ∈ findings, finding.Covers i := by
    intro i
    rw [Nat.zero_add]
    simp only [Edit.Covered, List.mem_map, exists_exists_and_eq_and]
    rfl
  have huncovered : (c, some k) ∈ Edit.uncovered (findings.map PiiFinding.sourcedEdit) 0 chunk ↔
      ∃ i, chunk[i]? = some (c, some k) ∧ ∀ finding ∈ findings, ¬ finding.Covers i := by
    simp only [Edit.mem_uncovered, hcovered, not_exists, not_and]
  rw [← huncovered]
  constructor
  · intro h
    rcases hexact.mem h with h | ⟨placeholder, hplaceholder, h⟩
    · exact h
    · obtain ⟨edit, hedit, rfl⟩ := List.mem_map.mp hplaceholder
      obtain ⟨finding, -, rfl⟩ := List.mem_map.mp hedit
      simp [PiiFinding.sourcedEdit, inserted] at h
  · exact fun h => hexact.subset h

/-- A fresh chunk is a piece of a paragraph that is over the budget, or has every identifier of the text
found where it has a part of it. -/
theorem covers_fresh_chunk {isWord : Char → Bool} (hword : ∀ c, isSpace c → isWord c = false) {text : String}
    {chunk : List Sourced} (hchunk : chunk ∈ sourcedChunks defaultMaxTokens (sourced text)) :
    (∃ para ∈ sourcedParagraphs (sourced text), defaultMaxTokens < (sourcedWords para).length ∧
        chunk ∈ cutPieces defaultMaxTokens para) ∨
      ∀ i c k, chunk[i]? = some (c, some k) → (∃ finding ∈ trPhone.analyze isWord text, finding.Covers k) →
        ∃ finding ∈ trPhone.analyze isWord (erase chunk), finding.Covers i := by
  generalize hsame : chunk = same at hchunk
  cases isChunk_of_mem hchunk with
  | @packed current hcurrent =>
    right
    subst hsame
    intro i c k hc hfound
    exact covers_chunk_of_packed (takesCompact_trPhone isWord) hword hcurrent rfl hchunk hc hfound
  | @cut para _ hpara hlong hpiece =>
    left
    subst hsame
    exact ⟨para, hpara, hlong, hpiece⟩

/-- A scanner that reports what the Turkish recognisers find. -/
def turkishScan (isWord : Char → Bool) (text : String) : Except Exc (List PiiFinding) :=
  .ok (turkishRecognisers.flatMap fun recogniser => recogniser.analyze isWord text)

theorem scansTurkish_turkishScan (isWord : Char → Bool) : ScansTurkish isWord (turkishScan isWord) where
  reports text findings h recogniser hrecogniser finding hfinding := by
    cases h
    exact ⟨finding, List.mem_flatMap.mpr ⟨recogniser, hrecogniser, hfinding⟩, Nat.le_refl _, Nat.le_refl _⟩
  inBounds text findings h reported hreported := by
    cases h
    obtain ⟨recogniser, -, hreported⟩ := List.mem_flatMap.mp hreported
    obtain ⟨span, hspan, rfl⟩ := List.mem_map.mp hreported
    have hbounds := Re.inBounds_of_mem_finditer hspan
    rwa [String.length_toList] at hbounds

theorem isAlnum_asciiOnly (c : Char) (hc : isSpace c) : Core.Unicode.asciiOnly.isAlnum c = false := by
  have hle : ∀ d e : Char, d ≤ e ↔ d.toNat ≤ e.toNat := fun d e => Iff.rfl
  simp only [isSpace, Bool.or_eq_true, Bool.and_eq_true, decide_eq_true_eq] at hc
  simp only [Core.Unicode.asciiOnly, isAsciiDigit, isAsciiLower, isAsciiUpper, hle, Bool.or_eq_false_iff,
    Bool.and_eq_false_iff, decide_eq_false_iff_not]
  simp only [Char.reduceToNat]
  omega

/-- A library that scans with them. -/
def turkishLibraries : Libraries := { plainLibraries with scanText := turkishScan Core.Unicode.asciiOnly.isWord }

theorem exists_chunkPolicies {upload : Upload} (hpolicy : upload.piiPolicy = "redact") (chunks : List Chunk) :
    ∃ policies, chunkPolicies turkishLibraries upload chunks = .ok policies := by
  apply Flow.mapM_ok
  intro chunk _
  have hknown : "redact" ∈ knownPolicies := by decide
  rw [applyPiiPolicy, hpolicy, if_neg (not_not_intro hknown)]
  simp only [turkishLibraries, turkishScan, String.reduceEq, if_false]
  by_cases hempty : (turkishRecognisers.flatMap fun recogniser =>
      recogniser.analyze Core.Unicode.asciiOnly.isWord chunk.content).isEmpty
  · exact ⟨_, by simp only [hempty, if_true, bind, Except.bind]; rfl⟩
  · exact ⟨_, by simp only [hempty, Bool.false_eq_true, if_false, bind, Except.bind]; rfl⟩

/-- A text of one paragraph that is over the budget is cut. -/
theorem sourcedChunks_of_paragraph {maxTokens : ℕ} {xs para : List Sourced} (h : sourcedParagraphs xs = [para])
    (hlong : maxTokens < (sourcedWords para).length) : sourcedChunks maxTokens xs = cutPieces maxTokens para := by
  rw [sourcedChunks, h, List.foldl_cons, List.foldl_nil, SourcedPacking.add, if_pos hlong]
  simp [SourcedPacking.flush]

theorem go_append_singleton {α : Type} {n : ℕ} {y : α} (xs : List α) (filling : Array α) (pieces : Array (List α))
    (h : filling.size + xs.length = n) :
    List.toChunks.go n (xs ++ [y]) filling pieces = pieces.toList ++ [filling.toList ++ xs, [y]] := by
  induction xs generalizing filling with
  | nil =>
    have hfull : (filling.size == n) = true := by simpa using h
    rw [List.nil_append, List.toChunks.go, if_pos hfull, List.toChunks.go]
    simp
  | cons x xs ih =>
    have hroom : ¬ (filling.size == n) = true := by
      simp only [List.length_cons] at h
      simp only [beq_iff_eq]
      omega
    rw [List.cons_append, List.toChunks.go, if_neg hroom, ih]
    · simp
    · simp only [List.length_cons] at h
      simp only [Array.size_push]
      omega

/-- The last word, when it is one more than a piece has. -/
theorem toChunks_append_singleton {α : Type} {n : ℕ} (hn : 0 < n) {xs : List α} (h : xs.length = n) (y : α) :
    (xs ++ [y]).toChunks n = [xs, [y]] := by
  cases xs with
  | nil => exact absurd h hn.ne
  | cons x xs =>
    rw [List.cons_append, List.toChunks.eq_3 _ _ _ (Nat.ne_of_gt hn), go_append_singleton]
    · simp
    · simp only [List.length_cons] at h
      simp only [List.size_toArray, List.length_singleton]
      omega

/-- Many short words, and a telephone number whose second part is the first word beyond the budget. -/
def longParagraph : List Char := (List.replicate 399 ['a', ' ']).flatten ++ " 0532 1234567".toList

/-- The second part of the number, with its positions. -/
def secondPart : List Sourced :=
  [('1', some 804), ('2', some 805), ('3', some 806), ('4', some 807), ('5', some 808), ('6', some 809), ('7', some 810)]

theorem marks_longParagraph : (marks Core.Unicode.asciiOnly.isWord trPhone.pattern trPhone.valid longParagraph)[810]? =
    some true := by
  decide +kernel

/-- It is one paragraph. -/
theorem sourcedParagraphs_longParagraph : sourcedParagraphs (longParagraph.zipIdx.map fun c => (c.1, some c.2)) =
    [longParagraph.zipIdx.map fun c => (c.1, some c.2)] := by
  decide +kernel

theorem sourcedWords_longParagraph :
    (sourcedWords (longParagraph.zipIdx.map fun c => (c.1, some c.2))).drop defaultMaxTokens = [secondPart] := by
  decide +kernel

theorem secondPart_mem : secondPart ∈ sourcedChunks defaultMaxTokens
    (longParagraph.zipIdx.map fun c => (c.1, some c.2)) := by
  have hlength := congrArg List.length sourcedWords_longParagraph
  rw [List.length_drop, List.length_singleton] at hlength
  have hwords := List.take_append_drop defaultMaxTokens (sourcedWords (longParagraph.zipIdx.map fun c => (c.1, some c.2)))
  rw [sourcedWords_longParagraph] at hwords
  rw [sourcedChunks_of_paragraph sourcedParagraphs_longParagraph (by omega), cutPieces, ← hwords,
    toChunks_append_singleton (by decide) (by rw [List.length_take]; omega)]
  simp [List.intercalate]

theorem scanned_secondPart : scanned turkishLibraries.scanText (erase secondPart) = [] := by
  decide

/-- An upload under the policy `redact`. -/
def redactingUpload : Upload := ⟨1, 1, "key", "a.txt", "internal", "redact"⟩

end FleetWorkflow.Rag
