import FleetWorkflow.Async.Prog
import FleetWorkflow.Rag.Pii

/-!
# The calls of the retrieval service

What ingestion and deletion wait for: the object store, the vector store, the rows of documents and
chunks, and the models. A transaction is one call. The embedding call also names the collection and
the digests that are embedded; they are not sent.
-/

namespace FleetWorkflow.Rag

open Python Async

/-- An embedding. -/
abbrev Vector := List PyFloat

/-- What the vector store keeps with a vector. -/
structure Payload where
  documentId : ℕ
  contentSha256 : String
  content : String
  redacted : Bool
  originalSensitivity : Option String
deriving DecidableEq

/-- A vector under its id. -/
structure Point where
  id : String
  vector : Vector
  payload : Payload

/-- A chunk that was embedded and upserted. -/
structure PersistedChunk where
  contentSha256 : String
  qdrantPointId : String
  tokens : ℕ
  redacted : Bool
  originalSensitivity : Option String

/-- A row of `documents`; times are in microseconds. -/
structure DocumentRow where
  id : ℕ
  collectionId : ℕ
  uri : String
  status : String
  ocrStatus : String
  createdAt : ℤ

/-- A row of `chunks`. -/
structure ChunkRow where
  documentId : ℕ
  contentSha256 : String
  qdrantPointId : String
  tokens : ℕ
  redacted : Bool
  originalSensitivity : Option String

/-- A document with the retention of its collection. -/
structure RetentionRow where
  documentId : ℕ
  collectionId : ℕ
  uri : String
  retentionDays : ℤ
  createdAt : ℤ

/-- What a coroutine of the retrieval service can wait for. -/
inductive Call where
  | getObject (key : String)
  | removeObject (key : String)
  | chunkHashes (documentId : ℕ)
  | insertChunks (documentId : ℕ) (chunks : List PersistedChunk)
  | updateDocument (documentId : ℕ) (status ocrStatus : String)
  | deleteDocument (documentId : ℕ)
  | retentionRows
  | collectionExists (name : String)
  | createCollection (name : String) (vectorSize : ℕ)
  | createPayloadIndex (name fieldName : String)
  | upsert (name : String) (points : List Point)
  | deletePoints (name : String) (documentId : ℕ)
  | reasoning (messages : List Json) (sensitivity : String)
  | tesseract (image : Bytes)
  | embeddings (name : String) (hashes : List String) (texts : List String) (sensitivity : String)

/-- What each call returns. -/
@[reducible] def Reply : Call → Type
  | .getObject _ => Bytes
  | .chunkHashes _ => List String
  | .retentionRows => List RetentionRow
  | .collectionExists _ => Bool
  | .reasoning _ _ => Option String
  | .tesseract _ => String
  | .embeddings _ _ _ _ => List Vector
  | _ => Unit

/-- A coroutine of the retrieval service. -/
abbrev Coroutine := Prog Call Reply Exc

/-- Await one call. -/
abbrev await (c : Call) : Coroutine (Reply c) := Prog.call c

/-- The name of the vector collection of a collection. -/
def collectionName (collectionId : ℕ) : String := "fleet_" ++ Nat.repr collectionId

/-- The id under which a content digest is stored. -/
def pointIdFor (contentSha256 : String) : String := uuid5 namespaceOid contentSha256

end FleetWorkflow.Rag
