import FleetWorkflow.Api.Collections
import FleetWorkflow.Rag.Stores

/-!
# Uploads

The upload of a document: its object is put under a key made of its digest, its row is inserted, and
its ingestion is queued. A file whose digest has a row in its collection is not stored again; the
answer is the row that is there.
-/

namespace FleetWorkflow.Api

open Python Async Store

/-- The columns of a document that the retrieval service does not read. -/
structure Filing where
  sha256 : String
  subjectHash : Option String

/-- The documents of the platform: the stores of the retrieval service, and the filing of each document. -/
structure Archive where
  stores : Rag.Stores
  filing : ℕ → Filing

/-- `DocumentOut`. -/
structure DocumentOut where
  id : ℕ
  collectionId : ℕ
  uri : String
  sha256 : String
  ocrStatus : String
  status : String
  subjectHash : Option String

/-- `DocumentOut.model_validate(row)`. -/
def Archive.out (archive : Archive) (row : Rag.DocumentRow) : DocumentOut :=
  ⟨row.id, row.collectionId, row.uri, (archive.filing row.id).sha256, row.ocrStatus, row.status,
    (archive.filing row.id).subjectHash⟩

/-- The job that ingests a document. -/
structure IngestJob where
  documentId : ℕ
  collectionId : ℕ
  objectKey : String
  filename : String
  sensitivity : String
  piiPolicy : String

/-- What an upload can wait for; adding a row, with its commit and its refresh, is one call. -/
inductive DocumentCall where
  | getCollection (collectionId : ℕ)
  | findDocument (collectionId : ℕ) (sha256 : String)
  | bucketExists
  | makeBucket
  | putObject (key : String) (data : Bytes)
  | insertDocument (collectionId : ℕ) (uri sha256 : String) (subjectHash : Option String)
  | createPool
  | enqueueJob (job : IngestJob)
  | closePool

/-- What each call returns. -/
@[reducible] def DocumentCall.Reply : DocumentCall → Type
  | getCollection _ => Option Collection
  | findDocument _ _ => Option DocumentOut
  | bucketExists => Bool
  | insertDocument _ _ _ _ => DocumentOut
  | _ => Unit

/-- A coroutine of the upload router. -/
abbrev Uploading := Prog DocumentCall DocumentCall.Reply Exc

/-- Await one call. -/
abbrev awaitDocument (c : DocumentCall) : Uploading c.Reply := Prog.call c

/-- An upload. -/
structure Upload where
  collectionId : ℕ
  data : Bytes
  filename : Option String
  subjectHash : Option String

/-- `_sha256_bytes(data)`. -/
def Upload.digest (upload : Upload) : String := sha256 upload.data

/-- `file.filename or "upload.bin"`. -/
def Upload.name (upload : Upload) : String :=
  match upload.filename with
  | some name => if name = "" then "upload.bin" else name
  | none => "upload.bin"

section Uploads

variable (py : Builtins)

/-- The part of a file name from its last dot on, in lower case. -/
def extension (filename : String) : String :=
  if '.' ∈ filename.toList then
    py.lower (String.ofList ('.' :: (filename.toList.reverse.takeWhile (· ≠ '.')).reverse))
  else ""

/-- `_object_key(collection_id=..., sha256=..., filename=...)`. -/
def objectKey (collectionId : ℕ) (sha256 filename : String) : String :=
  Nat.repr collectionId ++ "/" ++ sha256 ++ extension py filename

/-- Make the bucket if it is not there. -/
def ensureBucket : Uploading Unit := do
  if ← awaitDocument .bucketExists then return () else awaitDocument .makeBucket

/-- Queue the ingestion of a document; the pool is closed in any case. -/
def enqueueIngestion (job : IngestJob) : Uploading Unit := do
  awaitDocument .createPool
  (awaitDocument (.enqueueJob job)).withCleanup (awaitDocument .closePool)

/-- The part of an upload that stores a new file. -/
def storeUpload (upload : Upload) (collection : Collection) : Uploading DocumentOut := do
  let key := objectKey py upload.collectionId upload.digest upload.name
  ensureBucket
  awaitDocument (.putObject key upload.data)
  let row ← awaitDocument (.insertDocument upload.collectionId key upload.digest upload.subjectHash)
  enqueueIngestion ⟨row.id, upload.collectionId, key, upload.name, collection.sensitivity, collection.piiPolicy⟩
  return row

/-- `POST /v1/documents`. -/
def uploadDocument (upload : Upload) : Uploading DocumentOut := do
  match ← awaitDocument (.getCollection upload.collectionId) with
  | none => .raise ⟨.http 404, "collection not found"⟩
  | some collection =>
    match ← awaitDocument (.findDocument upload.collectionId upload.digest) with
    | some existing => return existing
    | none => storeUpload py upload collection

end Uploads

/-! ## Answering an upload -/

/-- What uploads read and write; document ids below `nextDocument` have been given out. -/
structure UploadWorld where
  archive : Archive
  nextDocument : ℕ
  collections : CollectionTable
  bucket : Bool
  queue : List IngestJob
  tick : ℕ

/-- The row and the filing of a new document. -/
def Archive.insert (archive : Archive) (row : Rag.DocumentRow) (filing : Filing) : Archive where
  stores := { archive.stores with documents := archive.stores.documents.addIfNew row }
  filing := Function.update archive.filing row.id filing

/-- Put an object in place. -/
def Archive.putObject (archive : Archive) (key : String) (data : Bytes) : Archive :=
  { archive with stores := { archive.stores with objects := Function.update archive.stores.objects key (some data) } }

/-- The rows of a collection with a digest. -/
def Archive.rowsOf (archive : Archive) (collectionId : ℕ) (sha256 : String) : List Rag.DocumentRow :=
  archive.stores.documents.rows.filter fun row =>
    row.collectionId = collectionId && (archive.filing row.id).sha256 = sha256

namespace UploadWorld

variable (w : UploadWorld)

/-- What a call does and what it returns, if it is carried out at a time. -/
def carryOut (now : ℤ) : (c : DocumentCall) → Except Exc (UploadWorld × c.Reply)
  | .getCollection collectionId => .ok (w, w.collections.row collectionId)
  | .findDocument collectionId sha256 =>
    match w.archive.rowsOf collectionId sha256 with
    | [] => .ok (w, none)
    | [row] => .ok (w, some (w.archive.out row))
    | _ => .error ⟨.multipleResults, "Multiple rows were found when one or none was required"⟩
  | .bucketExists => .ok (w, w.bucket)
  | .makeBucket => .ok ({ w with bucket := true }, ())
  | .putObject key data =>
    if w.bucket then .ok ({ w with archive := w.archive.putObject key data }, ())
    else .error ⟨.external, "The specified bucket does not exist"⟩
  | .insertDocument collectionId uri sha256 subjectHash =>
    if (w.collections.row collectionId).isNone || !(w.archive.rowsOf collectionId sha256).isEmpty then
      .error ⟨.integrityError, "IntegrityError"⟩
    else
      let row : Rag.DocumentRow := ⟨w.nextDocument, collectionId, uri, "queued", "pending", now⟩
      let archive := w.archive.insert row ⟨sha256, subjectHash⟩
      .ok ({ w with archive := archive, nextDocument := w.nextDocument + 1 }, archive.out row)
  | .createPool => .ok (w, ())
  | .enqueueJob job => .ok ({ w with queue := w.queue ++ [job] }, ())
  | .closePool => .ok (w, ())

/-- Answer a call at a time: it is answered, or refused without an effect, or its reply is lost. -/
def respond (now : ℤ) (c : DocumentCall) : Rag.Given Unit → UploadWorld × Except Exc c.Reply
  | .refused error => (w, .error error)
  | .lost _ error =>
    match w.carryOut now c with
    | .ok (w', _) => (w', .error error)
    | .error error' => (w, .error error')
  | .answered _ =>
    match w.carryOut now c with
    | .ok (w', reply) => (w', .ok reply)
    | .error error => (w, .error error)

end UploadWorld

/-- What happens to the calls of uploads at each tick, and the time of each tick. -/
structure UploadSurroundings where
  given : ℕ → DocumentCall → Rag.Given Unit
  clock : ℕ → ℤ

/-- Answer one call. -/
def UploadWorld.answer (surroundings : UploadSurroundings) (w : UploadWorld) (c : DocumentCall) :
    UploadWorld × Except Exc c.Reply :=
  let answered := w.respond (surroundings.clock w.tick) c (surroundings.given w.tick c)
  ({ answered.1 with tick := w.tick + 1 }, answered.2)

end FleetWorkflow.Api
