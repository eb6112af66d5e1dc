import FleetWorkflow.Rag.Storing

/-!
# Embedding once

Which digests a run of ingestions embeds. The digests that are looked up are those of the document alone,
and they are looked up once: a digest that is repeated in a document, or that another document has, is
embedded again, and of two rows with one id the second is left out.
-/

namespace FleetWorkflow.Rag

open Python Async Store Flow

variable (libraries : Libraries) (surroundings : Surroundings)

/-- Ingestions one after another. -/
def ingestions (uploads : List Upload) (w : World) : World :=
  uploads.foldl (fun w upload => ((ingestDocument libraries upload).run (World.answer surroundings) w).1) w

/-! ## When every digest is embedded once -/

/-- The chunks of a text that would be embedded differ in their ids, and no row has one of them. -/
structure Unrepeated (upload : Upload) (existing : List String) (text : String) (s : Stores) : Prop where
  distinct : (pointIds (keptChunks libraries upload existing text)).Nodup
  unnamed : ∀ row ∈ s.chunks.rows, row.qdrantPointId ∉ pointIds (keptChunks libraries upload existing text)

/-- The text that an ingestion reads repeats nothing, and nothing fails from the embedding up to the rows. -/
def IngestsOnce (upload : Upload) (w : World) : Prop :=
  ∀ w₁ existing text usedOcr,
    (readText libraries upload).run (World.answer surroundings) w = (w₁, .ok (existing, text, usedOcr)) →
      Unrepeated libraries upload existing text w.stores ∧
      (storeText libraries upload existing text usedOcr).Along (World.answer surroundings)
        (CompletesCall surroundings) w₁

/-- Each ingestion of a run does so. -/
def AllIngestOnce : List Upload → World → Prop
  | [], _ => True
  | upload :: rest, w =>
    IngestsOnce libraries surroundings upload w ∧
    AllIngestOnce rest ((ingestDocument libraries upload).run (World.answer surroundings) w).1

/-- No digest is embedded twice for a collection, and each one that was embedded has its id in a row. -/
structure EmbeddedOnce (s : Stores) : Prop where
  nodup : s.embedded.Nodup
  recorded : ∀ entry ∈ s.embedded, ∃ row ∈ s.chunks.rows, row.qdrantPointId = pointIdFor entry.2

section Runs

attribute [local irreducible] freshChunks

variable {libraries surroundings} {upload : Upload} {w w₁ : World} {existing : List String} {text : String}
  {usedOcr : Bool}

/-- The stores are as they were when an ingestion has read its text. -/
theorem stores_of_readText
    (h : (readText libraries upload).run (World.answer surroundings) w = (w₁, .ok (existing, text, usedOcr))) :
    w₁.stores = w.stores := by
  have hreads := run_reads (only_readText libraries upload) surroundings w
  rw [h] at hreads
  exact hreads

/-- Chunks that repeat nothing are separate. -/
theorem separate_of_unrepeated {s : Stores} (h : Unrepeated libraries upload existing text s) :
    Separate libraries upload existing text s := by
  refine ⟨h.unnamed, fun kept hkept other hother hid => ?_⟩
  rw [List.inj_on_of_nodup_map h.distinct hkept hother hid]

/-- Nothing more is embedded, and no row is dropped. -/
theorem EmbeddedOnce.keep {s s' : Stores} (h : EmbeddedOnce s) (hembedded : s'.embedded = s.embedded)
    (hkept : ∀ row ∈ s.chunks.rows, row ∈ s'.chunks.rows) : EmbeddedOnce s' := by
  constructor
  · rw [hembedded]
    exact h.nodup
  · intro entry hentry
    rw [hembedded] at hentry
    obtain ⟨row, hrow, hid⟩ := h.recorded entry hentry
    exact ⟨row, hkept row hrow, hid⟩

/-- Chunks that repeat nothing can be embedded. -/
theorem EmbeddedOnce.append {s s' : Stores} (h : EmbeddedOnce s)
    (hunrepeated : Unrepeated libraries upload existing text s)
    (hembedded : s'.embedded = s.embedded ++ embeddingsOf upload (keptChunks libraries upload existing text))
    (htaken : IdsTaken ((keptChunks libraries upload existing text).map (persistedOf upload)) s')
    (hkept : ∀ row ∈ s.chunks.rows, row ∈ s'.chunks.rows) : EmbeddedOnce s' := by
  have hdigests : ((keptChunks libraries upload existing text).map fun kept => kept.1.contentSha256).Nodup := by
    apply List.Nodup.of_map pointIdFor
    rw [List.map_map]
    exact hunrepeated.distinct
  constructor
  · rw [hembedded, List.nodup_append]
    refine ⟨h.nodup, ?_, ?_⟩
    · have hmap : embeddingsOf upload (keptChunks libraries upload existing text) =
          ((keptChunks libraries upload existing text).map fun kept => kept.1.contentSha256).map
            (Prod.mk (collectionName upload.collectionId)) := by
        rw [embeddingsOf, List.map_map]
        rfl
      rw [hmap]
      exact hdigests.map fun _ _ heq => (Prod.mk.inj heq).2
    · rintro entry hentry _ hnew rfl
      obtain ⟨kept, hkeptChunk, rfl⟩ := List.mem_map.mp hnew
      obtain ⟨row, hrow, hid⟩ := h.recorded _ hentry
      exact hunrepeated.unnamed row hrow (List.mem_map.mpr ⟨kept, hkeptChunk, hid.symm⟩)
  · intro entry hentry
    rw [hembedded, List.mem_append] at hentry
    rcases hentry with hold | hnew
    · obtain ⟨row, hrow, hid⟩ := h.recorded entry hold
      exact ⟨row, hkept row hrow, hid⟩
    · obtain ⟨kept, hkeptChunk, rfl⟩ := List.mem_map.mp hnew
      obtain ⟨row, hrow, hid⟩ := htaken (persistedOf upload kept) (List.mem_map_of_mem hkeptChunk)
      rw [persistedOf_qdrantPointId] at hid
      exact ⟨row, hrow, hid⟩

/-- One ingestion keeps what was embedded once, and the rows. -/
theorem embeddedOnce_ingestRecorded (h : EmbeddedOnce w.stores) (hstep : IngestsOnce libraries surroundings upload w) :
    EmbeddedOnce ((ingestRecorded libraries upload).run (World.answer surroundings) w).1.stores := by
  cases hread : (readText libraries upload).run (World.answer surroundings) w with
  | mk w₁ result =>
    cases result with
    | error error =>
      obtain ⟨-, hstored, hembedded⟩ := run_ingestRecorded_of_error hread
      exact h.keep hembedded hstored.kept
    | ok read =>
      obtain ⟨existing, text, usedOcr⟩ := read
      obtain ⟨hunrepeated, halong⟩ := hstep w₁ existing text usedOcr hread
      have hsame := stores_of_readText hread
      rw [run_ingestRecorded hread]
      obtain ⟨hstored, -⟩ := run_storeText libraries surroundings upload existing text usedOcr w₁
      rw [hsame] at hstored
      have hcompletes := run_storeText_completes existing text usedOcr w₁ halong
      rw [hsame] at hcompletes
      rcases hcompletes with hembedded | ⟨hembedded, htaken⟩
      · exact h.keep hembedded hstored.kept
      · exact h.append hunrepeated hembedded htaken hstored.kept

variable (libraries surroundings upload) in
/-- An ingestion keeps every row of a chunk up to its own rows. -/
theorem rows_kept_ingestRecorded (w : World) {row : ChunkRow} (h : row ∈ w.stores.chunks.rows) :
    row ∈ ((ingestRecorded libraries upload).run (World.answer surroundings) w).1.stores.chunks.rows := by
  cases hread : (readText libraries upload).run (World.answer surroundings) w with
  | mk w₁ result =>
    cases result with
    | error error => exact (run_ingestRecorded_of_error hread).2.1.kept row h
    | ok read =>
      obtain ⟨existing, text, usedOcr⟩ := read
      rw [run_ingestRecorded hread]
      rw [← stores_of_readText hread] at h
      exact (run_storeText libraries surroundings upload existing text usedOcr w₁).1.kept row h

variable (libraries surroundings upload) in
/-- An ingestion keeps every row of a chunk. -/
theorem rows_kept_ingestDocument (w : World) {row : ChunkRow} (h : row ∈ w.stores.chunks.rows) :
    row ∈ ((ingestDocument libraries upload).run (World.answer surroundings) w).1.stores.chunks.rows := by
  have hrow := rows_kept_ingestRecorded libraries surroundings upload w h
  rcases run_ingestDocument libraries surroundings upload w with
    ⟨outcome, -, hmarked, -⟩ | ⟨error, -, hsame⟩
  · rw [hmarked.chunks]
    exact hrow
  · rw [hsame]
    exact hrow

/-- One ingestion keeps what was embedded once. -/
theorem embeddedOnce_ingestDocument (h : EmbeddedOnce w.stores) (hstep : IngestsOnce libraries surroundings upload w) :
    EmbeddedOnce ((ingestDocument libraries upload).run (World.answer surroundings) w).1.stores := by
  have hrecorded := embeddedOnce_ingestRecorded h hstep
  rcases run_ingestDocument libraries surroundings upload w with
    ⟨outcome, -, hmarked, -⟩ | ⟨error, -, hsame⟩
  · refine hrecorded.keep hmarked.embedded fun row hrow => ?_
    rw [hmarked.chunks]
    exact hrow
  · rw [hsame]
    exact hrecorded

/-- An ingestion of a text returned. -/
def Ingested (libraries : Libraries) (surroundings : Surroundings) (upload : Upload) (text : String) (w : World) :
    Prop :=
  (∃ w₁ existing usedOcr,
    (readText libraries upload).run (World.answer surroundings) w = (w₁, .ok (existing, text, usedOcr))) ∧
    ∃ outcome, ((ingestDocument libraries upload).run (World.answer surroundings) w).2 = .ok outcome

/-- An ingestion embeds nothing, unless it reads another text. -/
def EmbedsZero (libraries : Libraries) (surroundings : Surroundings) (upload : Upload) (text : String) (w : World) :
    Prop :=
  (∀ w₁ existing text' usedOcr,
    (readText libraries upload).run (World.answer surroundings) w = (w₁, .ok (existing, text', usedOcr)) →
      text' = text) →
    ((ingestDocument libraries upload).run (World.answer surroundings) w).1.stores.embedded = w.stores.embedded ∧
      ∀ outcome, ((ingestDocument libraries upload).run (World.answer surroundings) w).2 = .ok outcome →
        outcome.chunksEmbedded = 0

/-- An ingestion whose text is recorded embeds nothing. -/
theorem embedsZero_of_chunksRecorded (h : ChunksRecorded libraries upload text w.stores) :
    EmbedsZero libraries surroundings upload text w := by
  intro hsame
  have hrecorded : ((ingestRecorded libraries upload).run (World.answer surroundings) w).1.stores.embedded =
        w.stores.embedded ∧
      ∀ outcome, ((ingestRecorded libraries upload).run (World.answer surroundings) w).2 = .ok outcome →
        outcome.chunksEmbedded = 0 := by
    cases hread : (readText libraries upload).run (World.answer surroundings) w with
    | mk w₁ result =>
      cases result with
      | error error =>
        obtain ⟨⟨error', herror⟩, -, hembedded⟩ := run_ingestRecorded_of_error hread
        refine ⟨hembedded, fun outcome houtcome => ?_⟩
        cases herror.symm.trans houtcome
      | ok read =>
        obtain ⟨existing, text', usedOcr⟩ := read
        have htext := hsame w₁ existing text' usedOcr hread
        have hexisting := existing_of_readText hread
        have hstores := stores_of_readText hread
        subst htext hexisting
        rw [run_ingestRecorded hread, ← hstores]
        rw [← hstores] at h
        exact run_storeText_of_nil (keptChunks_eq_nil h) usedOcr w₁
  rcases run_ingestDocument libraries surroundings upload w with
    ⟨outcome, houtcome, hmarked, hresult⟩ | ⟨error, -, hrun⟩
  · refine ⟨hmarked.embedded.trans hrecorded.1, fun outcome' houtcome' => ?_⟩
    rw [hresult outcome' houtcome']
    exact hrecorded.2 outcome houtcome
  · rw [hrun]
    exact hrecorded

/-- An ingestion that returns has recorded its text, if nothing in it is repeated. -/
theorem chunksRecorded_of_ingested (h : Ingested libraries surroundings upload text w)
    (hstep : IngestsOnce libraries surroundings upload w) :
    ChunksRecorded libraries upload text
      ((ingestDocument libraries upload).run (World.answer surroundings) w).1.stores := by
  obtain ⟨⟨w₁, existing, usedOcr, hread⟩, result, hresult⟩ := h
  obtain ⟨hunrepeated, -⟩ := hstep w₁ existing text usedOcr hread
  have hexisting := existing_of_readText hread
  have hstores := stores_of_readText hread
  rcases run_ingestDocument libraries surroundings upload w with
    ⟨outcome, houtcome, hmarked, -⟩ | ⟨error, herror, hrun⟩
  · have hrecorded : ChunksRecorded libraries upload text
        ((ingestRecorded libraries upload).run (World.answer surroundings) w).1.stores := by
      rw [run_ingestRecorded hread] at houtcome ⊢
      obtain ⟨hstored, hok⟩ := run_storeText libraries surroundings upload existing text usedOcr w₁
      obtain ⟨⟨policies, hpolicies⟩, htaken⟩ := hok outcome houtcome
      subst hexisting
      rw [hstores] at hstored
      exact chunksRecorded_of_idsTaken hpolicies (separate_of_unrepeated hunrepeated) hstored htaken
    intro chunk hchunk policy hpolicy hpasses
    rw [hmarked.chunks]
    exact hrecorded chunk hchunk policy hpolicy hpasses
  · rw [hrun, herror] at hresult
    cases hresult

/-- Recorded chunks stay recorded. -/
theorem ChunksRecorded.ingestions (h : ChunksRecorded libraries upload text w.stores) (uploads : List Upload) :
    ChunksRecorded libraries upload text (ingestions libraries surroundings uploads w).stores := by
  induction uploads generalizing w with
  | nil => exact h
  | cons first rest ih =>
    apply ih
    intro chunk hchunk policy hpolicy hpasses
    obtain ⟨row, hrow, hdocument, hdigest⟩ := h chunk hchunk policy hpolicy hpasses
    exact ⟨row, rows_kept_ingestDocument libraries surroundings first w hrow, hdocument, hdigest⟩

/-- Over every sequence of ingestions, whatever the surroundings do: if no text that is read repeats a chunk, of its own
or of a row, and nothing fails from an embedding up to the rows, then no digest is embedded twice for a collection, and
ingesting a document again embeds nothing. -/
theorem ingestions_embed_once (libraries : Libraries) (surroundings : Surroundings) (uploads : List Upload) (w : World)
    (hstart : EmbeddedOnce w.stores) (hsteps : AllIngestOnce libraries surroundings uploads w) :
    (ingestions libraries surroundings uploads w).stores.embedded.Nodup ∧
      ∀ earlier upload later text, uploads = earlier ++ upload :: later →
        Ingested libraries surroundings upload text (ingestions libraries surroundings earlier w) →
          EmbedsZero libraries surroundings upload text (ingestions libraries surroundings uploads w) := by
  induction uploads generalizing w with
  | nil => exact ⟨hstart.nodup, fun earlier upload later text hsplit => by simp at hsplit⟩
  | cons first rest ih =>
    obtain ⟨hnodup, hagain⟩ := ih _ (embeddedOnce_ingestDocument hstart hsteps.1) hsteps.2
    refine ⟨hnodup, fun earlier upload later text hsplit hingested => ?_⟩
    cases earlier with
    | nil =>
      obtain ⟨rfl, rfl⟩ : first = upload ∧ rest = later := by simpa using hsplit
      exact embedsZero_of_chunksRecorded ((chunksRecorded_of_ingested hingested hsteps.1).ingestions rest)
    | cons first' earlier =>
      obtain ⟨rfl, hrest⟩ : first = first' ∧ rest = earlier ++ upload :: later := by simpa using hsplit
      exact hagain earlier upload later text hrest hingested

end Runs

/-! ## A document and its copy -/

/-- Libraries that find nothing. -/
def plainLibraries : Libraries where
  py := ⟨fun _ => "", fun s => s, fun _ => .error ⟨.valueError, ""⟩, fun _ => .error ⟨.valueError, ""⟩⟩
  upper s := s
  pdfPages _ := .ok []
  docxParagraphs _ := .ok []
  scanText _ := .ok []

/-- Two documents of one collection, which differ in a line end, with one chunk. -/
def twoCopies : Stores where
  documents := (KeyedRows.empty.addIfNew ⟨0, 0, "0/a.txt", "pending", "pending", 0⟩).addIfNew
    ⟨1, 0, "0/b.txt", "pending", "pending", 0⟩
  chunks := .empty
  retentionDays _ := none
  vectors _ := none
  objects key := if key = "0/a.txt" then some [97] else if key = "0/b.txt" then some [97, 10] else none
  embedded := []

/-- The upload of the first. -/
def uploadA : Upload := ⟨0, 0, "0/a.txt", "a.txt", "INTERNAL", "block"⟩

/-- The upload of the second. -/
def uploadB : Upload := ⟨1, 0, "0/b.txt", "b.txt", "INTERNAL", "block"⟩

/-- The ingestion of the first document reads its one chunk, and nothing fails in it. -/
theorem ingestsOnce_uploadA : IngestsOnce plainLibraries .calm uploadA ⟨0, twoCopies⟩ := by
  intro w₁ existing text usedOcr hread
  have hrun : (readText plainLibraries uploadA).run (World.answer .calm) ⟨0, twoCopies⟩ =
      (⟨2, twoCopies⟩, .ok ([], "a", false)) := rfl
  rw [hrun] at hread
  cases hread
  have hkept : keptChunks plainLibraries uploadA [] "a" = [(⟨"a"⟩, ⟨"a", false, false, false⟩)] := rfl
  refine ⟨⟨?_, fun row hrow => by cases hrow⟩, ?_⟩
  · rw [hkept]
    exact List.nodup_singleton _
  · exact ⟨.inr ⟨_, rfl, rfl⟩, ⟨_, _, rfl⟩, ⟨_, _, rfl⟩, ⟨_, _, rfl⟩, ⟨_, _, rfl⟩, ⟨rfl, fun _ h => by cases h⟩, trivial⟩

/-- A document that was ingested is ingested again, and nothing is embedded. -/
theorem ingestions_embed_once_again :
    EmbedsZero plainLibraries .calm uploadA "a" (ingestions plainLibraries .calm [uploadA] ⟨0, twoCopies⟩) :=
  (ingestions_embed_once plainLibraries .calm [uploadA] ⟨0, twoCopies⟩ ⟨List.nodup_nil, fun _ h => by cases h⟩
    ⟨ingestsOnce_uploadA, trivial⟩).2 [] uploadA [] "a" rfl ⟨⟨_, _, _, rfl⟩, _, rfl⟩

/-- The digest of a chunk that both documents have is embedded twice. -/
theorem ingestions_embed_twice :
    ¬ (ingestions plainLibraries .calm [uploadA, uploadB] ⟨0, twoCopies⟩).stores.embedded.Nodup := by
  have htwice : (ingestions plainLibraries .calm [uploadA, uploadB] ⟨0, twoCopies⟩).stores.embedded =
      [("fleet_0", Chunk.contentSha256 ⟨"a"⟩), ("fleet_0", Chunk.contentSha256 ⟨"a"⟩)] := by
    rfl
  rw [htwice]
  simp

end FleetWorkflow.Rag
