import Mathlib.Logic.Function.Basic
import FleetWorkflow.Rag.Calls
import FleetWorkflow.Store.KeyedRows

/-!
# The stores of the retrieval service

The rows of documents and chunks, the vector collections, the objects, and what each call does to
them. A call is answered, refused without an effect, or has its effect while its reply is lost. The
surroundings decide which, and they reply for the models.
-/

namespace FleetWorkflow.Rag

open Python Async Store

/-- A collection of vectors of one size, under their ids. -/
structure VectorCollection where
  vectorSize : ℕ
  points : String → Option (Vector × Payload)

/-- Everything that outlives a task; `embedded` records which digest was embedded for which collection,
and no call reads it. -/
structure Stores where
  documents : KeyedRows DocumentRow ℕ DocumentRow.id
  chunks : KeyedRows ChunkRow String ChunkRow.qdrantPointId
  retentionDays : ℕ → Option ℤ
  vectors : String → Option VectorCollection
  objects : String → Option Bytes
  embedded : List (String × String)

/-- What happens to a call. -/
inductive Given (ρ : Type) where
  | answered (reply : ρ)
  | refused (error : Exc)
  | lost (reply : ρ) (error : Exc)

/-- The row of a chunk of a document. -/
def PersistedChunk.row (chunk : PersistedChunk) (documentId : ℕ) : ChunkRow :=
  ⟨documentId, chunk.contentSha256, chunk.qdrantPointId, chunk.tokens, chunk.redacted, chunk.originalSensitivity⟩

/-- The row with another status. -/
def DocumentRow.withStatus (row : DocumentRow) (status ocrStatus : String) : DocumentRow :=
  { row with status := status, ocrStatus := ocrStatus }

theorem DocumentRow.withStatus_id (row : DocumentRow) (status ocrStatus : String) :
    (row.withStatus status ocrStatus).id = row.id := rfl

/-- The row with another status if it has the id. -/
def DocumentRow.markedIf (documentId : ℕ) (status ocrStatus : String) (row : DocumentRow) : DocumentRow :=
  if row.id = documentId then row.withStatus status ocrStatus else row

theorem DocumentRow.markedIf_id (documentId : ℕ) (status ocrStatus : String) (row : DocumentRow) :
    (row.markedIf documentId status ocrStatus).id = row.id := by
  unfold markedIf
  split <;> rfl

/-- The answer of the vector store for a collection that is not there. -/
def missingCollection (name : String) : Exc :=
  ⟨.unexpectedResponse, "Not found: Collection " ++ name ++ " doesn't exist!"⟩

namespace VectorCollection

/-- Put a point in place, over one with its id. -/
def put (collection : VectorCollection) (point : Point) : VectorCollection :=
  ⟨collection.vectorSize, Function.update collection.points point.id (some (point.vector, point.payload))⟩

/-- Put points in place, one after another. -/
def upsert (collection : VectorCollection) (points : List Point) : VectorCollection :=
  points.foldl put collection

/-- Drop the points of a document. -/
def deletePoints (collection : VectorCollection) (documentId : ℕ) : VectorCollection :=
  ⟨collection.vectorSize, fun id => (collection.points id).filter fun stored => stored.2.documentId ≠ documentId⟩

end VectorCollection

namespace Stores

variable (s : Stores)

/-- The rows of the retention query: documents of collections that do not keep them forever. -/
def retentionRows : List RetentionRow := s.documents.rows.filterMap fun row =>
  (s.retentionDays row.collectionId).map fun days => ⟨row.id, row.collectionId, row.uri, days, row.createdAt⟩

/-- Some chunk would get a new row. -/
def addsChunk (chunks : List PersistedChunk) : Bool :=
  chunks.any fun chunk => chunk.qdrantPointId ∉ s.chunks.rows.map ChunkRow.qdrantPointId

/-- What a call does to the stores and what it returns, if it is carried out; `given` replies for the
models. -/
def carryOut : (c : Call) → Reply c → Except Exc (Stores × Reply c)
  | .getObject key, _ =>
    match s.objects key with
    | some data => .ok (s, data)
    | none => .error ⟨.noSuchKey, "The specified key does not exist."⟩
  | .removeObject key, _ => .ok ({ s with objects := Function.update s.objects key none }, ())
  | .chunkHashes documentId, _ =>
    .ok (s, (s.chunks.rows.filter fun row => row.documentId = documentId).map ChunkRow.contentSha256)
  | .insertChunks documentId chunks, _ =>
    if (s.documents.find documentId).isNone && s.addsChunk chunks then .error ⟨.integrityError, "IntegrityError"⟩
    else
      let rows := chunks.foldl (fun rows chunk => rows.addIfNew (chunk.row documentId)) s.chunks
      .ok ({ s with chunks := rows }, ())
  | .updateDocument documentId status ocrStatus, _ =>
    let documents := s.documents.update (DocumentRow.markedIf documentId status ocrStatus)
      (DocumentRow.markedIf_id documentId status ocrStatus)
    .ok ({ s with documents := documents }, ())
  | .deleteDocument documentId, _ =>
    .ok ({ s with chunks := s.chunks.deleteWhere fun row => row.documentId = documentId
                  documents := s.documents.deleteWhere fun row => row.id = documentId }, ())
  | .retentionRows, _ => .ok (s, s.retentionRows)
  | .collectionExists name, _ => .ok (s, (s.vectors name).isSome)
  | .createCollection name vectorSize, _ =>
    if (s.vectors name).isSome then
      .error ⟨.unexpectedResponse, "Wrong input: Collection " ++ name ++ " already exists!"⟩
    else .ok ({ s with vectors := Function.update s.vectors name (some ⟨vectorSize, fun _ => none⟩) }, ())
  | .createPayloadIndex name _, _ =>
    if (s.vectors name).isSome then .ok (s, ()) else .error (missingCollection name)
  | .upsert name points, _ =>
    match s.vectors name with
    | none => .error (missingCollection name)
    | some collection =>
      if points.any fun point => point.vector.length ≠ collection.vectorSize then
        .error ⟨.unexpectedResponse, "Wrong input: Vector dimension error"⟩
      else .ok ({ s with vectors := Function.update s.vectors name (some (collection.upsert points)) }, ())
  | .deletePoints name documentId, _ =>
    match s.vectors name with
    | none => .error (missingCollection name)
    | some collection =>
      .ok ({ s with vectors := Function.update s.vectors name (some (collection.deletePoints documentId)) }, ())
  | .reasoning _ _, given => .ok (s, given)
  | .tesseract _, given => .ok (s, given)
  | .embeddings name hashes _ _, given =>
    .ok ({ s with embedded := s.embedded ++ hashes.map fun hash => (name, hash) }, given)

/-- Answer a call as the surroundings say. -/
def respond (c : Call) : Given (Reply c) → Stores × Except Exc (Reply c)
  | .refused error => (s, .error error)
  | .lost reply error =>
    match s.carryOut c reply with
    | .ok (s', _) => (s', .error error)
    | .error error' => (s, .error error')
  | .answered reply =>
    match s.carryOut c reply with
    | .ok (s', reply') => (s', .ok reply')
    | .error error => (s, .error error)

variable {s}

/-- A call leaves the stores as they are and fails, or it is carried out, and its reply may be lost. -/
theorem respond_inv {s' : Stores} {c : Call} {given : Given (Reply c)} {reply : Except Exc (Reply c)}
    (h : s.respond c given = (s', reply)) :
    (s' = s ∧ ∃ error, reply = .error error) ∨
      ∃ given' reply', s.carryOut c given' = .ok (s', reply') ∧ (reply = .ok reply' ∨ ∃ error, reply = .error error) := by
  cases given with
  | refused error =>
    cases h
    exact .inl ⟨rfl, error, rfl⟩
  | lost reply' error =>
    simp only [respond] at h
    cases hout : s.carryOut c reply' with
    | error error' =>
      rw [hout] at h
      cases h
      exact .inl ⟨rfl, error', rfl⟩
    | ok out =>
      rw [hout] at h
      cases h
      exact .inr ⟨reply', out.2, hout, .inr ⟨error, rfl⟩⟩
  | answered reply' =>
    simp only [respond] at h
    cases hout : s.carryOut c reply' with
    | error error' =>
      rw [hout] at h
      cases h
      exact .inl ⟨rfl, error', rfl⟩
    | ok out =>
      rw [hout] at h
      cases h
      exact .inr ⟨reply', out.2, hout, .inl rfl⟩

/-- A call that is answered was carried out. -/
theorem carryOut_of_ok {s' : Stores} {c : Call} {given : Given (Reply c)} {reply : Reply c}
    (h : s.respond c given = (s', .ok reply)) : ∃ given', s.carryOut c given' = .ok (s', reply) := by
  rcases respond_inv h with ⟨-, error, herror⟩ | ⟨given', reply', hout, hreply | ⟨error, herror⟩⟩
  · cases herror
  · cases hreply
    exact ⟨given', hout⟩
  · cases herror

/-- A call that is not refused and does not fail is carried out. -/
theorem carryOut_of_not_refused {s' : Stores} {c : Call} {given : Given (Reply c)} {reply : Except Exc (Reply c)}
    (h : s.respond c given = (s', reply)) (hgiven : ∀ error, given ≠ .refused error)
    (hcarried : ∀ given', ∃ out, s.carryOut c given' = .ok out) :
    ∃ given' reply', s.carryOut c given' = .ok (s', reply') := by
  cases given with
  | refused error => exact absurd rfl (hgiven error)
  | lost reply' error =>
    obtain ⟨out, hout⟩ := hcarried reply'
    simp only [respond, hout] at h
    cases h
    exact ⟨reply', out.2, hout⟩
  | answered reply' =>
    obtain ⟨out, hout⟩ := hcarried reply'
    simp only [respond, hout] at h
    cases h
    exact ⟨reply', out.2, hout⟩

/-- A call that fails, and whose reply is not lost, was not carried out. -/
theorem eq_of_error {s' : Stores} {c : Call} {given : Given (Reply c)} {error : Exc}
    (h : s.respond c given = (s', .error error)) (hgiven : ∀ reply error, given ≠ .lost reply error) : s' = s := by
  cases given with
  | refused error =>
    cases h
    rfl
  | lost reply error => exact absurd rfl (hgiven reply error)
  | answered reply =>
    simp only [respond] at h
    cases hout : s.carryOut c reply with
    | error error' =>
      rw [hout] at h
      cases h
      rfl
    | ok out =>
      rw [hout] at h
      cases h

/-- A vector collection holds a vector under an id. -/
def Holds (s : Stores) (name id : String) (stored : Vector × Payload) : Prop :=
  ∃ collection, s.vectors name = some collection ∧ collection.points id = some stored

end Stores

/-! ## Worlds -/

/-- What the surroundings do at each tick. -/
abbrev Surroundings := ℕ → (c : Call) → Given (Reply c)

/-- The stores, and how many calls were answered so far. -/
structure World where
  tick : ℕ
  stores : Stores

/-- Answer one call. -/
def World.answer (surroundings : Surroundings) (w : World) (c : Call) : World × Except Exc (Reply c) :=
  let answered := w.stores.respond c (surroundings w.tick c)
  (⟨w.tick + 1, answered.1⟩, answered.2)

/-- What an answer does to the stores. -/
theorem World.respond_of_answer {surroundings : Surroundings} {w w' : World} {c : Call} {reply : Except Exc (Reply c)}
    (h : w.answer surroundings c = (w', reply)) :
    w.stores.respond c (surroundings w.tick c) = (w'.stores, reply) := by
  cases h
  rfl

/-- A reply of the models; the stores reply for themselves. -/
def plainReply : (c : Call) → Reply c
  | .getObject _ => []
  | .chunkHashes _ | .retentionRows => []
  | .collectionExists _ => false
  | .reasoning _ _ => none
  | .tesseract _ => ""
  | .embeddings _ _ texts _ => texts.map fun _ => [.decimal false 1 0]
  | .removeObject _ | .insertChunks _ _ | .updateDocument _ _ _ | .deleteDocument _ | .createCollection _ _
  | .createPayloadIndex _ _ | .upsert _ _ | .deletePoints _ _ => ()

/-- Surroundings in which every call is answered. -/
def Surroundings.calm : Surroundings := fun _ c => .answered (plainReply c)

end FleetWorkflow.Rag
