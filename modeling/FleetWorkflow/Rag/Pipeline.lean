import FleetWorkflow.Rag.Extract

/-!
# Ingestion

The pipeline of one upload, from its bytes to its vectors, and the task around it, which reads the
bytes and the digests that are already embedded and records the rows and the status.
-/

namespace FleetWorkflow.Rag

open Python Async

variable (libraries : Libraries)

/-- What one run of the pipeline did. -/
structure IngestOutcome where
  chunksEmbedded : ℕ
  chunksSkipped : ℕ
  chunksBlocked : ℕ
  usedOcr : Bool
  persistedChunks : List PersistedChunk

/-- What is uploaded, and under which rules. -/
structure Upload where
  documentId : ℕ
  collectionId : ℕ
  objectKey : String
  filename : String
  sensitivity : String
  piiPolicy : String

/-- The text of an upload, and whether it was read as a scan. -/
def uploadText (upload : Upload) (data : Bytes) : Coroutine (String × Bool) := do
  let extracted ← Prog.ofExcept (extractText libraries data upload.filename)
  if extracted.needsOcr then
    let result ← ocrImage libraries data upload.sensitivity
    return (result.text, true)
  else return (extracted.text, false)

/-- A chunk that the policy lets pass, with the text that is embedded. -/
abbrev Kept := Chunk × PolicyResult

/-- The policy applied to every chunk. -/
def chunkPolicies (upload : Upload) (chunks : List Chunk) : Except Exc (List Kept) :=
  chunks.mapM fun chunk => do
    return (chunk, ← applyPiiPolicy libraries.scanText upload.piiPolicy chunk.content)

/-- The sensitivity under which the chunks are embedded. -/
def embedSensitivity (upload : Upload) (keep : List Kept) : String :=
  if keep.any fun kept => kept.2.localOnly then "pii" else upload.sensitivity

/-- The sensitivity that a masked chunk had. -/
def originalSensitivity (upload : Upload) (kept : Kept) : Option String :=
  if kept.2.redacted then some upload.sensitivity else none

/-- The vector of a chunk with its payload. -/
def pointOf (upload : Upload) (kept : Kept) (vector : Vector) : Point where
  id := pointIdFor kept.1.contentSha256
  vector := vector
  payload := ⟨upload.documentId, kept.1.contentSha256, kept.2.text, kept.2.redacted,
    originalSensitivity upload kept⟩

/-- The row of a chunk. -/
def persistedOf (upload : Upload) (kept : Kept) : PersistedChunk where
  contentSha256 := kept.1.contentSha256
  qdrantPointId := pointIdFor kept.1.contentSha256
  tokens := (splitWords kept.2.text).length
  redacted := kept.2.redacted
  originalSensitivity := originalSensitivity upload kept

theorem persistedOf_qdrantPointId (upload : Upload) (kept : Kept) :
    (persistedOf upload kept).qdrantPointId = pointIdFor kept.1.contentSha256 := rfl

/-- `ensure_collection(client, name, vector_size=...)`. -/
def ensureCollection (name : String) (vectorSize : ℕ) : Coroutine Unit := do
  if ← await (.collectionExists name) then return ()
  else
    await (.createCollection name vectorSize)
    await (.createPayloadIndex name "content")

/-- `len(response.vectors[0])`. -/
def vectorSize : List Vector → Except Exc ℕ
  | [] => .error ⟨.indexError, "list index out of range"⟩
  | vector :: _ => .ok vector.length

/-- `zip(keep, response.vectors, strict=True)`, for its check. -/
def sameLength (keep : List Kept) (vectors : List Vector) : Except Exc Unit :=
  if vectors.length < keep.length then .error ⟨.valueError, "zip() argument 2 is shorter than argument 1"⟩
  else if keep.length < vectors.length then .error ⟨.valueError, "zip() argument 2 is longer than argument 1"⟩
  else .ok ()

/-- Embed the chunks that the policy lets pass and store their vectors. -/
def storeVectors (upload : Upload) (keep : List Kept) : Coroutine Unit := do
  let name := collectionName upload.collectionId
  let vectors ← await (.embeddings name (keep.map fun kept => kept.1.contentSha256)
    (keep.map fun kept => kept.2.text) (embedSensitivity upload keep))
  let size ← Prog.ofExcept (vectorSize vectors)
  ensureCollection name size
  Prog.ofExcept (sameLength keep vectors)
  await (.upsert name (List.zipWith (pointOf upload) keep vectors))

/-- The chunks of a text that are not embedded yet. -/
def freshChunks (text : String) (existingHashes : List String) : List Chunk :=
  dedupChunks (chunkText defaultMaxTokens text) existingHashes

/-- The pipeline after the text is known. -/
def ingestText (upload : Upload) (existingHashes : List String) (text : String) (usedOcr : Bool) :
    Coroutine IngestOutcome := do
  let skipped := (chunkText defaultMaxTokens text).length - (freshChunks text existingHashes).length
  let policies ← Prog.ofExcept (chunkPolicies libraries upload (freshChunks text existingHashes))
  let blocked := policies.countP fun kept => kept.2.blocked
  let keep := policies.filter fun kept => !kept.2.blocked
  if keep.isEmpty then return ⟨0, skipped, blocked, usedOcr, []⟩
  else
    storeVectors upload keep
    return ⟨keep.length, skipped, blocked, usedOcr, keep.map (persistedOf upload)⟩

/-- `run_ingestion(...)`. -/
def runIngestion (upload : Upload) (data : Bytes) (existingHashes : List String) : Coroutine IngestOutcome := do
  let (text, usedOcr) ← uploadText libraries upload data
  ingestText libraries upload existingHashes text usedOcr

/-- `_record_chunks(...)`. -/
def recordChunks (documentId : ℕ) (chunks : List PersistedChunk) : Coroutine Unit :=
  if chunks.isEmpty then return () else await (.insertChunks documentId chunks)

/-- What the pipeline returns, or the status `error` and its exception. -/
def orMarkError (documentId : ℕ) (pipeline : Coroutine IngestOutcome) : Coroutine IngestOutcome := do
  match ← pipeline.attempt with
  | .ok outcome => return outcome
  | .error error =>
    await (.updateDocument documentId "error" "error")
    .raise error

/-- Record what was stored, and that the document is ready. -/
def recordOutcome (documentId : ℕ) (outcome : IngestOutcome) : Coroutine IngestOutcome := do
  recordChunks documentId outcome.persistedChunks
  await (.updateDocument documentId "ready" (if outcome.usedOcr then "done" else "not_needed"))
  return outcome

/-- `ingest_document(...)`. -/
def ingestDocument (upload : Upload) : Coroutine IngestOutcome := do
  let data ← await (.getObject upload.objectKey)
  let existing ← await (.chunkHashes upload.documentId)
  let outcome ← orMarkError upload.documentId (runIngestion libraries upload data existing)
  recordOutcome upload.documentId outcome

end FleetWorkflow.Rag
