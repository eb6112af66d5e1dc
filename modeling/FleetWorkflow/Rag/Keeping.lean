import FleetWorkflow.Rag.Calls
import FleetWorkflow.Rag.Ingestion

/-!
# Deletion and retention

The deletion of one document from the three stores, vectors and object first, and the purge of the
documents that have outlived the retention of their collection.
-/

namespace FleetWorkflow.Rag

open Python Async

/-- Which document is deleted, and where its vectors and its object are. -/
structure Location where
  documentId : ℕ
  collectionId : ℕ
  uri : String

/-- `delete_document_fully(...)`; a failure of the object store is ignored. -/
def deleteDocumentFully (location : Location) : Coroutine Unit := do
  await (.deletePoints (collectionName location.collectionId) location.documentId)
  discard (await (.removeObject location.uri)).attempt
  await (.deleteDocument location.documentId)

/-- A day in microseconds. -/
def dayMicroseconds : ℤ := 86400000000

/-- `dt.timedelta(days=days)`. -/
def timedeltaDays (days : ℤ) : Except Exc ℤ :=
  if days.natAbs ≤ 999999999 then .ok (days * dayMicroseconds)
  else .error ⟨.overflowError, "days=" ++ toString days ++ "; must have magnitude <= 999999999"⟩

/-- `is_expired(created_at=..., retention_days=..., now=...)`. -/
def isExpired (createdAt : ℤ) (retentionDays : Option ℤ) (now : ℤ) : Except Exc Bool :=
  match retentionDays with
  | none => .ok false
  | some days => do return (← timedeltaDays days) ≤ now - createdAt

/-- Where the document of a row is. -/
def RetentionRow.location (row : RetentionRow) : Location := ⟨row.documentId, row.collectionId, row.uri⟩

/-- Where a document is. -/
def DocumentRow.location (row : DocumentRow) : Location := ⟨row.id, row.collectionId, row.uri⟩

/-- The loop of `purge_expired` over the rows of the query; `purged` are the documents deleted so far. -/
def purgeRows (now : ℤ) (purged : List ℕ) : List RetentionRow → Coroutine (List ℕ)
  | [] => return purged
  | row :: rest => do
    if ← Prog.ofExcept (isExpired row.createdAt (some row.retentionDays) now) then
      deleteDocumentFully row.location
      purgeRows now (purged ++ [row.documentId]) rest
    else purgeRows now purged rest

/-- `purge_expired(...)`: the ids of the purged documents. -/
def purgeExpired (now : ℤ) : Coroutine (List ℕ) := do
  let rows ← await .retentionRows
  purgeRows now [] rows

/-!
## What an ingestion keeps

An ingestion stores vectors and rows of chunks, and it marks its document. It drops no document and
changes no object.
-/

open Store

/-- Where the documents are. -/
def Stores.locations (s : Stores) : List Location := s.documents.rows.map DocumentRow.location

/-- The calls that drop neither a document nor an object. -/
def Keeps : Call → Prop
  | .removeObject _ | .deleteDocument _ => False
  | _ => True

/-- The documents are where they were, and the objects are the same. -/
structure SamePlaces (s s' : Stores) : Prop where
  locations : s'.locations = s.locations
  objects : s'.objects = s.objects

theorem SamePlaces.refl (s : Stores) : SamePlaces s s := ⟨rfl, rfl⟩

theorem SamePlaces.trans {s s' s'' : Stores} (h : SamePlaces s s') (h' : SamePlaces s' s'') : SamePlaces s s'' :=
  ⟨h'.locations.trans h.locations, h'.objects.trans h.objects⟩

/-- Marking a document leaves it where it is. -/
theorem locations_update (s : Stores) (documentId : ℕ) (status ocrStatus : String) :
    (s.documents.update (DocumentRow.markedIf documentId status ocrStatus)
        (DocumentRow.markedIf_id documentId status ocrStatus)).rows.map DocumentRow.location = s.locations := by
  have hsame : DocumentRow.location ∘ DocumentRow.markedIf documentId status ocrStatus = DocumentRow.location := by
    funext row
    simp only [Function.comp_apply, DocumentRow.markedIf]
    split <;> rfl
  rw [KeyedRows.update, List.map_map, hsame, Stores.locations]

/-- A call that drops nothing leaves the documents and the objects in their places. -/
theorem samePlaces_respond {s s' : Stores} {c : Call} (hc : Keeps c) {given : Given (Reply c)}
    {reply : Except Exc (Reply c)} (h : s.respond c given = (s', reply)) : SamePlaces s s' := by
  rcases Stores.respond_inv h with ⟨rfl, -⟩ | ⟨given', reply', hout, -⟩
  · exact .refl s'
  · cases c with
    | removeObject _ | deleteDocument _ => exact hc.elim
    | updateDocument documentId status ocrStatus =>
      cases hout
      exact ⟨locations_update s documentId status ocrStatus, rfl⟩
    | _ =>
      simp only [Stores.carryOut] at hout
      try split at hout
      all_goals try split at hout
      all_goals cases hout
      all_goals exact ⟨rfl, rfl⟩

/-- A coroutine that drops nothing leaves the documents and the objects in their places. -/
theorem samePlaces_run {α : Type} {p : Coroutine α} (hp : p.Only Keeps) (surroundings : Surroundings) (w : World) :
    SamePlaces w.stores (p.run (World.answer surroundings) w).1.stores := by
  induction p generalizing w with
  | done value => exact .refl w.stores
  | raise error => exact .refl w.stores
  | await c next ih =>
    cases hanswer : w.answer surroundings c with
    | mk w' reply =>
      have hsame := samePlaces_respond hp.1 (World.respond_of_answer hanswer)
      rw [Prog.run, hanswer]
      exact hsame.trans (ih reply (hp.2 reply) w')

/-- Reading drops nothing. -/
theorem keeps_of_reads {c : Call} (h : Reads c) : Keeps c := by
  cases c with
  | removeObject _ | deleteDocument _ => exact h.elim
  | _ => trivial

section Ingestion

variable (libraries : Libraries) (upload : Upload)

theorem keeps_storeVectors (keep : List Kept) : (storeVectors upload keep).Only Keeps := by
  have hensure : ∀ name size, (ensureCollection name size).Only Keeps := by
    intro name size
    apply (Prog.only_call trivial).bind
    intro found
    cases found with
    | true => trivial
    | false => exact (Prog.only_call trivial).bind fun _ => Prog.only_call trivial
  apply (Prog.only_call trivial).bind
  intro vectors
  apply (Prog.only_ofExcept _).bind
  intro size
  apply (hensure _ size).bind
  intro ensured
  exact (Prog.only_ofExcept _).bind fun _ => Prog.only_call trivial

theorem keeps_ingestText (existing : List String) (text : String) (usedOcr : Bool) :
    (ingestText libraries upload existing text usedOcr).Only Keeps := by
  apply (Prog.only_ofExcept _).bind
  intro policies
  cases hkeep : (policies.filter fun kept => !kept.2.blocked).isEmpty with
  | true =>
    simp only [hkeep, if_true]
    trivial
  | false =>
    simp only [hkeep]
    exact (keeps_storeVectors upload _).bind fun _ => trivial

theorem keeps_recordOutcome (documentId : ℕ) (outcome : IngestOutcome) :
    (recordOutcome documentId outcome).Only Keeps := by
  have hrecord : (recordChunks documentId outcome.persistedChunks).Only Keeps := by
    unfold recordChunks
    split
    · trivial
    · exact Prog.only_call trivial
  exact hrecord.bind fun _ => (Prog.only_call trivial).bind fun _ => trivial

/-- An ingestion drops neither a document nor an object. -/
theorem keeps_ingestDocument : (ingestDocument libraries upload).Only Keeps := by
  apply (Prog.only_call trivial).bind
  intro data
  apply (Prog.only_call trivial).bind
  intro existing
  have hrun : (runIngestion libraries upload data existing).Only Keeps := by
    apply ((only_uploadText libraries upload data).mono fun c => keeps_of_reads).bind
    intro read
    exact keeps_ingestText libraries upload existing read.1 read.2
  refine Prog.Only.bind ?_ (keeps_recordOutcome upload.documentId)
  apply hrun.attempt.bind
  intro result
  cases result with
  | ok outcome => trivial
  | error error => exact (Prog.only_call trivial).bind fun _ => trivial

end Ingestion

end FleetWorkflow.Rag
