import FleetWorkflow.Async.Trace
import FleetWorkflow.Flow.Fallible
import FleetWorkflow.Rag.Pipeline

/-!
# Ingestion for local models only

The calls that send content of a document to a model while it is ingested: the vision model reads a
scan, and the embedding model its chunks. Under the policy `allow-local-only` the chunks are sent as
`pii`; a scan is sent under the sensitivity of its collection.
-/

namespace FleetWorkflow.Rag

open Python Async

/-- The sensitivity of a call to a model. -/
def Call.sensitivity? : Call → Option String
  | .reasoning _ sensitivity => some sensitivity
  | .embeddings _ _ _ sensitivity => some sensitivity
  | _ => none

/-- A call sends nothing to a model, or sends it as `pii`. -/
def Call.Local (c : Call) : Prop := ∀ sensitivity ∈ c.sensitivity?, sensitivity = "pii"

/-- The object store holds the bytes of the document. -/
def Stored (key : String) (data : Bytes) : (c : Call) → Except Exc (Reply c) → Prop
  | .getObject other, reply => other = key → ∀ bytes : Bytes, reply = .ok bytes → bytes = data
  | _, _ => True

/-- The vision model is asked to read a document: it has no text layer, and its collection is below
the level from which scans are read locally. -/
def VisionReads (libraries : Libraries) (upload : Upload) (data : Bytes) : Prop :=
  ∃ extracted level, extractText libraries data upload.filename = .ok extracted ∧ extracted.needsOcr = true ∧
    parseSensitivity libraries upload.sensitivity = .ok level ∧ level < localOnlyFloor

variable {libraries : Libraries} {upload : Upload} {data : Bytes}

/-- A call that sends nothing is local. -/
theorem Call.local_of_none {c : Call} (h : c.sensitivity? = none) : c.Local := by
  simp [Call.Local, h]

/-- A reader that may fail is local if it is. -/
theorem textOrNothing_local {reader : Coroutine String} (h : reader.Only Call.Local) :
    (textOrNothing reader).Only Call.Local := by
  apply h.attempt.bind
  intro result
  cases result with
  | ok text => trivial
  | error error => trivial

/-- A scan is read locally when its collection says so. -/
theorem ocrImage_local {sensitivity : String}
    (h : ∀ level, parseSensitivity libraries sensitivity = .ok level → level < localOnlyFloor →
      sensitivity = "pii") : (ocrImage libraries data sensitivity).Only Call.Local := by
  rw [ocrImage]
  cases hlevel : parseSensitivity libraries sensitivity with
  | error error => trivial
  | ok level =>
    simp only [Prog.ofExcept, Prog.done_bind]
    have hrest : ∀ text : String, Prog.Only Call.Local (if text ≠ "" then return ⟨text, "vision-llm"⟩
        else do
          let text ← textOrNothing (await (.tesseract data))
          if text ≠ "" then return ⟨text, "tesseract"⟩ else return ⟨"", "none"⟩ : Coroutine OcrResult) := by
      intro text
      split
      · trivial
      · apply (textOrNothing_local (Prog.only_call (Call.local_of_none rfl))).bind
        intro text
        split
        · trivial
        · trivial
    split
    · rename_i hfloor
      have hpii := h level hlevel hfloor
      have hvision : (tryVision data sensitivity).Only Call.Local := by
        apply Prog.Only.bind
        · apply Prog.only_call
          simp [Call.Local, Call.sensitivity?, hpii]
        · intro content
          trivial
      exact (textOrNothing_local hvision).bind hrest
    · exact hrest ""

/-- The text of a document is read locally unless the vision model reads it. -/
theorem uploadText_local (h : VisionReads libraries upload data → upload.sensitivity = "pii") :
    (uploadText libraries upload data).Only Call.Local := by
  rw [uploadText]
  cases hextracted : extractText libraries data upload.filename with
  | error error => trivial
  | ok extracted =>
    simp only [Prog.ofExcept, Prog.done_bind]
    split
    · rename_i hocr
      apply Prog.Only.bind
      · apply ocrImage_local
        intro level hlevel hfloor
        exact h ⟨extracted, level, hextracted, hocr, hlevel, hfloor⟩
      · intro result
        trivial
    · trivial

/-- The policy keeps every chunk for local models. -/
theorem localOnly_of_chunkPolicies (hpolicy : upload.piiPolicy = "allow-local-only") {chunks : List Chunk}
    {keep : List Kept} (h : chunkPolicies libraries upload chunks = .ok keep) :
    ∀ kept ∈ keep, kept.2.localOnly = true := by
  intro kept hkept
  obtain ⟨chunk, -, hchunk⟩ := Flow.of_mem_mapM h hkept
  obtain ⟨policy, hpolicyResult, hpair⟩ := Flow.bind_eq_ok.mp hchunk
  cases hpair
  have hknown : "allow-local-only" ∈ knownPolicies := by decide
  rw [applyPiiPolicy, hpolicy, if_neg (not_not_intro hknown)] at hpolicyResult
  obtain ⟨findings, -, hresult⟩ := Flow.bind_eq_ok.mp hpolicyResult
  cases hresult
  rfl

/-- The vectors of kept chunks are computed locally. -/
theorem storeVectors_local {keep : List Kept} (hne : keep ≠ []) (hkeep : ∀ kept ∈ keep, kept.2.localOnly = true) :
    (storeVectors upload keep).Only Call.Local := by
  have hsensitivity : embedSensitivity upload keep = "pii" := by
    obtain ⟨kept, rest, rfl⟩ := List.exists_cons_of_ne_nil hne
    simp [embedSensitivity, hkeep kept List.mem_cons_self]
  rw [storeVectors]
  apply Prog.Only.bind
  · apply Prog.only_call
    simp [Call.Local, Call.sensitivity?, hsensitivity]
  · intro vectors
    apply (Prog.only_ofExcept _).bind
    intro size
    apply Prog.Only.bind
    · rw [ensureCollection]
      apply (Prog.only_call (Call.local_of_none rfl)).bind
      intro found
      split
      · trivial
      · apply (Prog.only_call (Call.local_of_none rfl)).bind
        intro _
        exact Prog.only_call (Call.local_of_none rfl)
    · intro _
      apply (Prog.only_ofExcept _).bind
      intro _
      exact Prog.only_call (Call.local_of_none rfl)

/-- The pipeline after the text is known is local under the policy. -/
theorem ingestText_local (hpolicy : upload.piiPolicy = "allow-local-only") (existingHashes : List String)
    (text : String) (usedOcr : Bool) : (ingestText libraries upload existingHashes text usedOcr).Only Call.Local := by
  rw [ingestText]
  cases hpolicies : chunkPolicies libraries upload (freshChunks text existingHashes) with
  | error error => trivial
  | ok policies =>
    simp only [Prog.ofExcept, Prog.done_bind]
    split
    · trivial
    · rename_i hkeep
      apply Prog.Only.bind
      · apply storeVectors_local
        · simpa using hkeep
        · intro kept hkept
          exact localOnly_of_chunkPolicies hpolicy hpolicies kept (List.mem_of_mem_filter hkept)
      · intro _
        trivial

/-- What is recorded after the pipeline is sent to no model. -/
theorem recordOutcome_local (documentId : ℕ) (outcome : IngestOutcome) :
    (recordOutcome documentId outcome).Only Call.Local := by
  rw [recordOutcome]
  apply Prog.Only.bind
  · rw [recordChunks]
    split
    · trivial
    · exact Prog.only_call (Call.local_of_none rfl)
  · intro _
    apply (Prog.only_call (Call.local_of_none rfl)).bind
    intro _
    trivial

/-- A pipeline that is local stays so with its error handling. -/
theorem orMarkError_local {documentId : ℕ} {pipeline : Coroutine IngestOutcome} (h : pipeline.Only Call.Local) :
    (orMarkError documentId pipeline).Only Call.Local := by
  apply h.attempt.bind
  intro result
  cases result with
  | ok outcome => trivial
  | error error =>
    apply (Prog.only_call (Call.local_of_none rfl)).bind
    intro _
    trivial

/-- A document that the vision model reads is sent under the sensitivity of its collection. -/
theorem sensitivity_of_visionReads
    (h : (ingestDocument libraries upload).OnlyGiven (Stored upload.objectKey data) Call.Local)
    (hreads : VisionReads libraries upload data) : upload.sensitivity = "pii" := by
  obtain ⟨extracted, level, hextracted, hocr, hlevel, hfloor⟩ := hreads
  simp only [ingestDocument, Prog.onlyGiven_call_bind] at h
  have hmade := (h.2 data fun _ _ h => (Except.ok.inj h).symm).2 [] trivial
  rw [runIngestion, uploadText, hextracted] at hmade
  simp only [Prog.ofExcept, Prog.done_bind, hocr, if_true, ocrImage, hlevel, if_pos hfloor] at hmade
  exact hmade.1 _ rfl

/-- A document that the vision model reads as `pii` only is sent as `pii` in every call. -/
theorem ingestDocument_local (hpolicy : upload.piiPolicy = "allow-local-only")
    (h : VisionReads libraries upload data → upload.sensitivity = "pii") :
    (ingestDocument libraries upload).OnlyGiven (Stored upload.objectKey data) Call.Local := by
  simp only [ingestDocument, Prog.onlyGiven_call_bind]
  refine ⟨Call.local_of_none rfl, fun bytes hbytes => ⟨Call.local_of_none rfl, fun hashes _ => ?_⟩⟩
  obtain rfl : bytes = data := hbytes rfl bytes rfl
  apply Prog.Only.given
  apply Prog.Only.bind
  · apply orMarkError_local
    rw [runIngestion]
    apply (uploadText_local h).bind
    intro read
    exact ingestText_local hpolicy hashes read.1 read.2
  · intro outcome
    exact recordOutcome_local upload.documentId outcome

/-- A document of a collection for local models is sent as `pii` in every call that is made while it
is ingested, exactly when the vision model does not read it under another sensitivity. -/
theorem ingestDocument_local_iff (hpolicy : upload.piiPolicy = "allow-local-only") :
    (ingestDocument libraries upload).OnlyGiven (Stored upload.objectKey data) Call.Local ↔
      (VisionReads libraries upload data → upload.sensitivity = "pii") := by
  constructor
  · exact sensitivity_of_visionReads
  · exact ingestDocument_local hpolicy

/-- A scan in an internal collection. -/
def internalScan : Upload := ⟨0, 0, "0/scan.png", "scan.png", "internal", "allow-local-only"⟩

/-- Libraries that write the name of a sensitivity in capitals. -/
def scanLibraries : Libraries where
  py := ⟨fun _ => "", fun s => s, fun _ => .error ⟨.valueError, ""⟩, fun _ => .error ⟨.valueError, ""⟩⟩
  upper s := if s = "internal" then "INTERNAL" else s
  pdfPages _ := .ok []
  docxParagraphs _ := .ok []
  scanText _ := .ok []

/-- The vision model reads it. -/
theorem internalScan_visionReads : VisionReads scanLibraries internalScan [] := by
  refine ⟨⟨"", true⟩, 1, ?_, rfl, ?_, by decide⟩
  · have hextension : extension scanLibraries "scan.png" = ".png" := by decide
    rw [extractText, internalScan, hextension]
    rfl
  · rfl

/-- A text file of the same collection is sent as `pii`. -/
theorem internalText_local :
    (ingestDocument scanLibraries { internalScan with filename := "note.txt" }).OnlyGiven
      (Stored "0/scan.png" []) Call.Local := by
  have hextension : extension scanLibraries "note.txt" = ".txt" := by decide
  apply (ingestDocument_local_iff rfl).mpr
  rintro ⟨extracted, level, hextracted, hocr, -, -⟩
  rw [extractText, internalScan, hextension] at hextracted
  cases hextracted
  cases hocr

/-- A scan of an internal collection for local models is sent to the vision model as `internal`. -/
theorem internalScan_not_local :
    ¬ (ingestDocument scanLibraries internalScan).OnlyGiven (Stored internalScan.objectKey []) Call.Local := by
  intro h
  have hsensitivity := sensitivity_of_visionReads h internalScan_visionReads
  revert hsensitivity
  decide

end FleetWorkflow.Rag
