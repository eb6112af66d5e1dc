import FleetWorkflow.Rag.Dedup
import FleetWorkflow.Rag.Purge

/-!
# What can be retrieved

Runs of ingestions and deletions. A row of a chunk names a point by the digest of the chunk alone, in every
collection, so that documents with a chunk in common share its row and, in one collection, its point: the
second gets no row, and what happens to the one happens to the other.
-/

namespace FleetWorkflow.Rag

open Python Async Store Flow

/-- A task of the service. -/
inductive Task where
  | ingest (upload : Upload)
  | delete (location : Location)

/-- The document of a task. -/
def Task.documentId : Task → ℕ
  | .ingest upload => upload.documentId
  | .delete location => location.documentId

variable (libraries : Libraries) (surroundings : Surroundings)

/-- Perform a task. -/
def Task.perform : Task → World → World
  | .ingest upload, w => ((ingestDocument libraries upload).run (World.answer surroundings) w).1
  | .delete location, w => ((deleteDocumentFully location).run (World.answer surroundings) w).1

/-- Perform tasks one after another. -/
def perform (tasks : List Task) (w : World) : World :=
  tasks.foldl (fun w task => task.perform libraries surroundings w) w

/-! ## What should hold -/

/-- The row of a chunk names a point of its document and its content, in the collection of the document. -/
def Retrievable (s : Stores) (row : ChunkRow) : Prop :=
  ∃ collectionId, (row.documentId, collectionId) ∈ s.homes ∧
    ∃ stored, s.Holds (collectionName collectionId) row.qdrantPointId stored ∧
      stored.2.documentId = row.documentId ∧ stored.2.contentSha256 = row.contentSha256

/-- Every row of a chunk is retrievable. -/
def AllRetrievable (s : Stores) : Prop := ∀ row ∈ s.chunks.rows, Retrievable s row

/-- An ingestion read a text and recorded its rows. -/
def RecordedText (upload : Upload) (text : String) (w : World) : Prop :=
  (∃ w₁ existing usedOcr,
    (readText libraries upload).run (World.answer surroundings) w = (w₁, .ok (existing, text, usedOcr))) ∧
    ∃ outcome, ((ingestRecorded libraries upload).run (World.answer surroundings) w).2 = .ok outcome

/-- The rows of other documents are kept, with all they name. -/
def KeepsOthers (documentId : ℕ) (s s' : Stores) : Prop :=
  ∀ row ∈ s.chunks.rows, row.documentId ≠ documentId → row ∈ s'.chunks.rows ∧
    ∀ collectionId, (row.documentId, collectionId) ∈ s.homes → (row.documentId, collectionId) ∈ s'.homes ∧
      ∀ stored, s.Holds (collectionName collectionId) row.qdrantPointId stored →
        stored.2.documentId = row.documentId → s'.Holds (collectionName collectionId) row.qdrantPointId stored

/-- The document is there. -/
def Present (documentId : ℕ) (s : Stores) : Prop := ∃ collectionId, (documentId, collectionId) ∈ s.homes

/-- After some tasks every row of a chunk is retrievable, and as long as a document is there, every chunk of a text of it
that was recorded has a row. A document is ready only if one of its texts was recorded, unless it was ready before. No
task changes what the rows of another document name. -/
structure KeepsRetrieval (tasks : List Task) (w : World) : Prop where
  retrievable : AllRetrievable (perform libraries surroundings tasks w).stores
  recorded : ∀ earlier upload later text, tasks = earlier ++ .ingest upload :: later →
    RecordedText libraries surroundings upload text (perform libraries surroundings earlier w) →
      Present upload.documentId (perform libraries surroundings tasks w).stores →
        ChunksRecorded libraries upload text (perform libraries surroundings tasks w).stores
  ready : ∀ id ∈ (perform libraries surroundings tasks w).stores.readyIds, id ∈ w.stores.readyIds ∨
    ∃ earlier upload later text, tasks = earlier ++ .ingest upload :: later ∧ upload.documentId = id ∧
      RecordedText libraries surroundings upload text (perform libraries surroundings earlier w)
  others : ∀ earlier task later, tasks = earlier ++ task :: later →
    KeepsOthers task.documentId (perform libraries surroundings earlier w).stores
      (task.perform libraries surroundings (perform libraries surroundings earlier w)).stores

/-! ## When it holds -/

/-- The collection is that of the document. -/
def AtHome (documentId collectionId : ℕ) (s : Stores) : Prop := ∀ home, (documentId, home) ∈ s.homes → home = collectionId

/-- The deletion of a document that has chunks does not end between its vectors and its rows. -/
def DeletesAtOnce (location : Location) (w : World) (c : Call) : Prop :=
  (∃ row ∈ w.stores.chunks.rows, row.documentId = location.documentId) →
    match c with
    | .deletePoints name id => ∀ reply error, surroundings w.tick (.deletePoints name id) ≠ .lost reply error
    | .deleteDocument id => ∀ error, surroundings w.tick (.deleteDocument id) ≠ .refused error
    | _ => True

/-- The text of an ingestion shares no chunk with a row, and a deletion does both or nothing. -/
def TaskMeets : Task → World → Prop
  | .ingest upload, w => AtHome upload.documentId upload.collectionId w.stores ∧
    ∀ w₁ existing text usedOcr,
      (readText libraries upload).run (World.answer surroundings) w = (w₁, .ok (existing, text, usedOcr)) →
        Separate libraries upload existing text w.stores
  | .delete location, w => AtHome location.documentId location.collectionId w.stores ∧
    (deleteDocumentFully location).Along (World.answer surroundings) (DeletesAtOnce surroundings location) w

/-- Each task of a run does so. -/
def AllTasksMeet : List Task → World → Prop
  | [], _ => True
  | task :: rest, w =>
    TaskMeets libraries surroundings task w ∧ AllTasksMeet rest (task.perform libraries surroundings w)

variable {libraries surroundings} {upload : Upload} {location : Location} {w w₁ : World} {text : String}
  {s s₁ s' : Stores}

/-! ## An ingestion -/

section Ingestion

attribute [local irreducible] freshChunks

/-- Storing separate chunks keeps every row and what it names. -/
theorem TextStored.keepsRows {keep : List Kept} (h : TextStored upload keep s s')
    (hunnamed : ∀ row ∈ s.chunks.rows, row.qdrantPointId ∉ pointIds keep) {row : ChunkRow} (hrow : row ∈ s.chunks.rows)
    (name : String) (stored : Vector × Payload) :
    s'.Holds name row.qdrantPointId stored ↔ s.Holds name row.qdrantPointId stored :=
  h.points name row.qdrantPointId stored fun hpoint => hunnamed row hrow hpoint.2

/-- Storing separate chunks keeps every row retrievable. -/
theorem TextStored.allRetrievable {keep : List Kept} (h : TextStored upload keep s s') (hretrievable : AllRetrievable s)
    (hunnamed : ∀ row ∈ s.chunks.rows, row.qdrantPointId ∉ pointIds keep)
    (hfaithful : ∀ kept ∈ keep, ∀ other ∈ keep, pointIdFor kept.1.contentSha256 = pointIdFor other.1.contentSha256 →
      kept.1.contentSha256 = other.1.contentSha256)
    (hhome : AtHome upload.documentId upload.collectionId s) : AllRetrievable s' := by
  intro row hrow
  rcases h.added row hrow with hold | ⟨⟨kept, hkept, rfl⟩, ⟨collectionId, hcollection⟩, hpoints⟩
  · obtain ⟨collectionId, hcollection, stored, hholds, hstored⟩ := hretrievable row hold
    refine ⟨collectionId, h.homes ▸ hcollection, stored, ?_, hstored⟩
    exact (h.keepsRows hunnamed hold _ stored).mpr hholds
  · have hsame := hhome collectionId hcollection
    subst hsame
    obtain ⟨stored, hholds, hdocument, other, hother, hid, hdigest⟩ := hpoints kept hkept
    refine ⟨upload.collectionId, h.homes ▸ hcollection, stored, hholds, hdocument, ?_⟩
    rw [hdigest]
    exact hfaithful other hother kept hkept hid

/-- What an ingestion does before it marks its document ready. -/
theorem exists_textStored (hstep : TaskMeets libraries surroundings (.ingest upload) w) :
    ∃ keep, TextStored upload keep w.stores
        ((ingestRecorded libraries upload).run (World.answer surroundings) w).1.stores ∧
      (∀ row ∈ w.stores.chunks.rows, row.qdrantPointId ∉ pointIds keep) ∧
      ∀ kept ∈ keep, ∀ other ∈ keep, pointIdFor kept.1.contentSha256 = pointIdFor other.1.contentSha256 →
        kept.1.contentSha256 = other.1.contentSha256 := by
  cases hread : (readText libraries upload).run (World.answer surroundings) w with
  | mk w₁ result =>
    cases result with
    | error error =>
      refine ⟨[], (run_ingestRecorded_of_error hread).2.1, fun row _ => List.not_mem_nil, fun kept hkept => ?_⟩
      cases hkept
    | ok read =>
      obtain ⟨existing, text, usedOcr⟩ := read
      obtain ⟨hunnamed, hfaithful⟩ := hstep.2 w₁ existing text usedOcr hread
      have hstored := (run_storeText libraries surroundings upload existing text usedOcr w₁).1
      rw [← run_ingestRecorded hread, stores_of_readText hread] at hstored
      exact ⟨_, hstored, hunnamed, hfaithful⟩

/-- Only an ingestion that read a text records it. -/
theorem recordedText_of_ok {outcome : IngestOutcome}
    (h : ((ingestRecorded libraries upload).run (World.answer surroundings) w).2 = .ok outcome) :
    ∃ text, RecordedText libraries surroundings upload text w := by
  cases hread : (readText libraries upload).run (World.answer surroundings) w with
  | mk w₁ result =>
    cases result with
    | error error =>
      obtain ⟨error', herror⟩ := (run_ingestRecorded_of_error hread).1
      cases herror.symm.trans h
    | ok read =>
      obtain ⟨existing, text, usedOcr⟩ := read
      exact ⟨text, ⟨w₁, existing, usedOcr, hread⟩, outcome, h⟩

/-- A recorded text has the rows of its chunks. -/
theorem chunksRecorded_of_recordedText (hstep : TaskMeets libraries surroundings (.ingest upload) w)
    (h : RecordedText libraries surroundings upload text w) :
    ChunksRecorded libraries upload text
      ((ingestRecorded libraries upload).run (World.answer surroundings) w).1.stores := by
  obtain ⟨⟨w₁, existing, usedOcr, hread⟩, outcome, houtcome⟩ := h
  have hseparate := hstep.2 w₁ existing text usedOcr hread
  have hexisting := existing_of_readText hread
  obtain ⟨hstored, hok⟩ := run_storeText libraries surroundings upload existing text usedOcr w₁
  rw [← run_ingestRecorded hread] at hstored hok
  rw [stores_of_readText hread] at hstored
  obtain ⟨⟨policies, hpolicies⟩, htaken⟩ := hok outcome houtcome
  subst hexisting
  exact chunksRecorded_of_idsTaken hpolicies hseparate hstored htaken

end Ingestion

/-! ## A task -/

/-- A task keeps what it should. -/
structure TaskKept (documentId : ℕ) (s s' : Stores) : Prop where
  retrievable : AllRetrievable s'
  others : KeepsOthers documentId s s'
  homes : ∀ home ∈ s'.homes, home ∈ s.homes
  rows : ∀ row ∈ s.chunks.rows, row ∈ s'.chunks.rows ∨ ∀ collectionId, (row.documentId, collectionId) ∉ s'.homes

/-- Marking a document ready keeps all that is stored. -/
theorem TaskKept.markedReady {documentId : ℕ} (h : TaskKept documentId s s₁) (hmarked : MarkedReady documentId s₁ s') :
    TaskKept documentId s s' := by
  have hholds : ∀ name id stored, s'.Holds name id stored ↔ s₁.Holds name id stored := by
    intro name id stored
    rw [Stores.Holds, hmarked.vectors]
    exact Iff.rfl
  constructor
  · intro row hrow
    rw [hmarked.chunks] at hrow
    obtain ⟨collectionId, hcollection, stored, hstored, hpoint⟩ := h.retrievable row hrow
    exact ⟨collectionId, hmarked.homes ▸ hcollection, stored, (hholds _ _ _).mpr hstored, hpoint⟩
  · intro row hrow hother
    obtain ⟨hkept, hpoint⟩ := h.others row hrow hother
    refine ⟨hmarked.chunks ▸ hkept, fun collectionId hcollection => ?_⟩
    obtain ⟨hhome, hstored⟩ := hpoint collectionId hcollection
    exact ⟨hmarked.homes ▸ hhome, fun stored hheld hdocument => (hholds _ _ _).mpr (hstored stored hheld hdocument)⟩
  · intro home hhome
    exact h.homes home (hmarked.homes ▸ hhome)
  · intro row hrow
    rw [hmarked.chunks, hmarked.homes]
    exact h.rows row hrow

/-- An ingestion of separate chunks keeps what it should, and makes a document ready only when it recorded a text. -/
theorem taskKept_ingest (hstep : TaskMeets libraries surroundings (.ingest upload) w)
    (hretrievable : AllRetrievable w.stores) :
    TaskKept upload.documentId w.stores ((Task.ingest upload).perform libraries surroundings w).stores ∧
      ∀ id ∈ ((Task.ingest upload).perform libraries surroundings w).stores.readyIds, id ∈ w.stores.readyIds ∨
        id = upload.documentId ∧ ∃ text, RecordedText libraries surroundings upload text w := by
  obtain ⟨keep, hstored, hunnamed, hfaithful⟩ := exists_textStored hstep
  have hkept : TaskKept upload.documentId w.stores
      ((ingestRecorded libraries upload).run (World.answer surroundings) w).1.stores := by
    constructor
    · exact hstored.allRetrievable hretrievable hunnamed hfaithful hstep.1
    · intro row hrow _
      refine ⟨hstored.kept row hrow, fun collectionId hcollection => ⟨hstored.homes ▸ hcollection, ?_⟩⟩
      intro stored hholds _
      exact (hstored.keepsRows hunnamed hrow _ stored).mpr hholds
    · intro home hhome
      exact hstored.homes ▸ hhome
    · intro row hrow
      exact .inl (hstored.kept row hrow)
  rcases run_ingestDocument libraries surroundings upload w with
    ⟨outcome, houtcome, hmarked, -⟩ | ⟨error, -, hrun⟩
  · refine ⟨hkept.markedReady hmarked, fun id hid => ?_⟩
    rcases hmarked.ready id hid with hbefore | hdocument
    · exact .inl (hstored.ready id hbefore)
    · exact .inr ⟨hdocument, recordedText_of_ok houtcome⟩
  · simp only [Task.perform, hrun]
    exact ⟨hkept, fun id hid => .inl (hstored.ready id hid)⟩

/-! ## A deletion -/

variable (surroundings location) in
/-- A deletion deletes its document only, whatever fails. -/
theorem deletesOnly_deletion (w : World) :
    DeletesOnly (· = location.documentId) w.stores
      ((deleteDocumentFully location).run (World.answer surroundings) w).1.stores := by
  have hrun : ∀ {p : Coroutine Unit}, p.Only (DeletesCall (· = location.documentId)) → ∀ w : World,
      DeletesOnly (· = location.documentId) w.stores (p.run (World.answer surroundings) w).1.stores := by
    intro p hp
    induction p with
    | done value => exact fun w => .refl _ w.stores
    | raise error => exact fun w => .refl _ w.stores
    | await c next ih =>
      intro w
      have hfirst := deletesOnly_respond hp.1 (World.respond_of_answer (rfl : w.answer surroundings c = _))
      exact hfirst.trans (ih _ (hp.2 _) _)
  exact hrun (only_deleteDocumentFully location rfl) w

/-- Deleting the rows of a document, unless it is refused, leaves none. -/
theorem rows_of_deleteDocument {documentId : ℕ} {given : Given (Reply (.deleteDocument documentId))}
    {reply : Except Exc Unit} (h : s.respond (.deleteDocument documentId) given = (s', reply))
    (hgiven : ∀ error, given ≠ .refused error) :
    (∀ row ∈ s'.documents.rows, row.id ≠ documentId) ∧ ∀ row ∈ s'.chunks.rows, row.documentId ≠ documentId := by
  obtain ⟨given', reply', hout⟩ := Stores.carryOut_of_not_refused h hgiven fun given' => ⟨_, rfl⟩
  cases hout
  constructor
  · intro row hrow
    simpa using ((s.documents.mem_deleteWhere _ row).mp hrow).2
  · intro row hrow
    simpa using ((s.chunks.mem_deleteWhere _ row).mp hrow).2

/-- The deletion of a document that has chunks leaves neither its row nor theirs, or changes nothing. -/
theorem deletion_atOnce (hown : ∃ row ∈ w.stores.chunks.rows, row.documentId = location.documentId)
    (halong : (deleteDocumentFully location).Along (World.answer surroundings) (DeletesAtOnce surroundings location) w) :
    ((∀ row ∈ ((deleteDocumentFully location).run (World.answer surroundings) w).1.stores.documents.rows,
          row.id ≠ location.documentId) ∧
        ∀ row ∈ ((deleteDocumentFully location).run (World.answer surroundings) w).1.stores.chunks.rows,
          row.documentId ≠ location.documentId) ∨
      ((deleteDocumentFully location).run (World.answer surroundings) w).1.stores = w.stores := by
  obtain ⟨hfirst, hrest⟩ := halong
  rw [run_deleteDocumentFully]
  cases hpoints : w.answer surroundings (.deletePoints (collectionName location.collectionId) location.documentId) with
  | mk w₁ reply =>
    rw [hpoints] at hrest
    have hrespond := World.respond_of_answer hpoints
    cases reply with
    | error error => exact .inr (Stores.eq_of_error hrespond (hfirst hown))
    | ok value =>
      obtain ⟨-, hchunks, -, -⟩ := deletePoints_spec hrespond
      cases hremove : w₁.answer surroundings (.removeObject location.uri) with
      | mk w₂ removed =>
        obtain ⟨-, hchunks₂, -, -⟩ := removeObject_spec (World.respond_of_answer hremove)
        have hlast : DeletesAtOnce surroundings location w₂ (.deleteDocument location.documentId) := by
          have hafter := hrest.2
          rw [hremove] at hafter
          cases removed with
          | error error => exact hafter.1
          | ok _ => exact hafter.1
        have hgiven : ∀ error, surroundings w₂.tick (.deleteDocument location.documentId) ≠ .refused error := by
          apply hlast
          rw [hchunks₂, hchunks]
          exact hown
        dsimp only
        rw [hremove]
        cases hdelete : w₂.answer surroundings (.deleteDocument location.documentId) with
        | mk w₃ deleted => exact .inl (rows_of_deleteDocument (World.respond_of_answer hdelete) hgiven)

/-- A deletion that does both or nothing keeps what it should, and makes no document ready. -/
theorem taskKept_delete (hstep : TaskMeets libraries surroundings (.delete location) w)
    (hretrievable : AllRetrievable w.stores) :
    TaskKept location.documentId w.stores ((Task.delete location).perform libraries surroundings w).stores ∧
      ∀ id ∈ ((Task.delete location).perform libraries surroundings w).stores.readyIds, id ∈ w.stores.readyIds := by
  have hdeletes := deletesOnly_deletion surroundings location w
  have hatOnce := fun hown => deletion_atOnce hown hstep.2
  simp only [Task.perform]
  generalize ((deleteDocumentFully location).run (World.answer surroundings) w).1.stores = s' at hdeletes hatOnce ⊢
  have hhomes : ∀ id collectionId, id ≠ location.documentId → (id, collectionId) ∈ w.stores.homes →
      (id, collectionId) ∈ s'.homes := by
    intro id collectionId hother hhome
    obtain ⟨row, hrow, heq⟩ := List.mem_map.mp hhome
    obtain ⟨rfl, rfl⟩ := Prod.mk.inj heq
    exact List.mem_map.mpr ⟨row, ((hdeletes.kept row.id hother).rows row rfl).mpr hrow, rfl⟩
  have hothers : KeepsOthers location.documentId w.stores s' := by
    intro row hrow hother
    refine ⟨((hdeletes.kept _ hother).chunks row rfl).mpr hrow, fun collectionId hcollection => ⟨?_, ?_⟩⟩
    · exact hhomes _ collectionId hother hcollection
    · intro stored hholds hdocument
      exact ((hdeletes.kept _ hother).vectors _ _ stored hdocument).mpr hholds
  refine ⟨⟨?_, hothers, ?_, ?_⟩, ?_⟩
  · intro row hrow
    have hbefore := hdeletes.chunks row hrow
    obtain ⟨collectionId, hcollection, stored, hholds, hdocument, hdigest⟩ := hretrievable row hbefore
    by_cases hown : row.documentId = location.documentId
    · rcases hatOnce ⟨row, hbefore, hown⟩ with ⟨-, hgone⟩ | hsame
      · exact absurd hown (hgone row hrow)
      · rw [hsame]
        exact hretrievable row hbefore
    · obtain ⟨-, hpoint⟩ := hothers row hbefore hown
      obtain ⟨hhome, hstored⟩ := hpoint collectionId hcollection
      exact ⟨collectionId, hhome, stored, hstored stored hholds hdocument, hdocument, hdigest⟩
  · intro home hhome
    obtain ⟨row, hrow, rfl⟩ := List.mem_map.mp hhome
    exact List.mem_map.mpr ⟨row, hdeletes.rows row hrow, rfl⟩
  · intro row hrow
    by_cases hown : row.documentId = location.documentId
    · rcases hatOnce ⟨row, hrow, hown⟩ with ⟨hgone, -⟩ | hsame
      · refine .inr fun collectionId hcollection => ?_
        obtain ⟨document, hdocument, heq⟩ := List.mem_map.mp hcollection
        exact hgone document hdocument ((Prod.mk.inj heq).1.trans hown)
      · rw [hsame]
        exact .inl hrow
    · exact .inl (hothers row hrow hown).1
  · intro id hid
    obtain ⟨row, hrow, rfl⟩ := List.mem_map.mp hid
    obtain ⟨hmem, hready⟩ := List.mem_filter.mp hrow
    exact List.mem_map.mpr ⟨row, List.mem_filter.mpr ⟨hdeletes.rows row hmem, hready⟩, rfl⟩

/-! ## Runs -/

/-- A task that meets its condition keeps what it should. -/
theorem taskKept {task : Task} (hstep : TaskMeets libraries surroundings task w) (hretrievable : AllRetrievable w.stores) :
    TaskKept task.documentId w.stores (task.perform libraries surroundings w).stores := by
  cases task with
  | ingest upload => exact (taskKept_ingest hstep hretrievable).1
  | delete location => exact (taskKept_delete hstep hretrievable).1

/-- A task makes a document ready only by recording a text of it. -/
theorem ready_of_task {task : Task} (hstep : TaskMeets libraries surroundings task w)
    (hretrievable : AllRetrievable w.stores) {id : ℕ} (hid : id ∈ (task.perform libraries surroundings w).stores.readyIds) :
    id ∈ w.stores.readyIds ∨ ∃ upload text, task = .ingest upload ∧ upload.documentId = id ∧
      RecordedText libraries surroundings upload text w := by
  cases task with
  | ingest upload =>
    rcases (taskKept_ingest hstep hretrievable).2 id hid with hbefore | ⟨hdocument, text, hrecorded⟩
    · exact .inl hbefore
    · exact .inr ⟨upload, text, rfl, hdocument.symm, hrecorded⟩
  | delete location => exact .inl ((taskKept_delete hstep hretrievable).2 id hid)

/-- A task that recorded a text has the rows of its chunks. -/
theorem chunksRecorded_of_task (hstep : TaskMeets libraries surroundings (.ingest upload) w)
    (h : RecordedText libraries surroundings upload text w) :
    ChunksRecorded libraries upload text ((Task.ingest upload).perform libraries surroundings w).stores := by
  have hrecorded := chunksRecorded_of_recordedText hstep h
  rcases run_ingestDocument libraries surroundings upload w with ⟨outcome, -, hmarked, -⟩ | ⟨error, -, hrun⟩
  · intro chunk hchunk policy hpolicy hpasses
    simp only [Task.perform, hmarked.chunks]
    exact hrecorded chunk hchunk policy hpolicy hpasses
  · simp only [Task.perform, hrun]
    exact hrecorded

/-- Recorded chunks stay recorded as long as their document is there. -/
theorem ChunksRecorded.of_taskKept {documentId : ℕ} (h : Present upload.documentId s → ChunksRecorded libraries upload text s)
    (hkept : TaskKept documentId s s') (hpresent : Present upload.documentId s') :
    ChunksRecorded libraries upload text s' := by
  obtain ⟨collectionId, hcollection⟩ := hpresent
  intro chunk hchunk policy hpolicy hpasses
  obtain ⟨row, hrow, hdocument, hdigest⟩ := h ⟨collectionId, hkept.homes _ hcollection⟩ chunk hchunk policy hpolicy hpasses
  rcases hkept.rows row hrow with hkeptRow | hgone
  · exact ⟨row, hkeptRow, hdocument, hdigest⟩
  · exact absurd hcollection (hdocument ▸ hgone collectionId)

/-- The same over tasks. -/
theorem ChunksRecorded.perform (tasks : List Task)
    (h : Present upload.documentId w.stores → ChunksRecorded libraries upload text w.stores)
    (hretrievable : AllRetrievable w.stores) (hsteps : AllTasksMeet libraries surroundings tasks w)
    (hpresent : Present upload.documentId (perform libraries surroundings tasks w).stores) :
    ChunksRecorded libraries upload text (Rag.perform libraries surroundings tasks w).stores := by
  induction tasks generalizing w with
  | nil => exact h hpresent
  | cons task rest ih =>
    have hkept := taskKept hsteps.1 hretrievable
    exact ih (fun hthere => .of_taskKept h hkept hthere) hkept.retrievable hsteps.2 hpresent

/-- Over every sequence of ingestions and deletions, whatever the surroundings do: if no text that is read shares a chunk
with a row of another document, and no deletion of a document that has chunks ends between its vectors and its rows, then
the rows and the points stay together. -/
theorem perform_keepsRetrieval (libraries : Libraries) (surroundings : Surroundings) (tasks : List Task) (w : World)
    (hstart : AllRetrievable w.stores) (hsteps : AllTasksMeet libraries surroundings tasks w) :
    KeepsRetrieval libraries surroundings tasks w := by
  induction tasks generalizing w with
  | nil =>
    refine ⟨hstart, ?_, fun id hid => .inl hid, ?_⟩
    · intro earlier upload later text hsplit
      simp at hsplit
    · intro earlier task later hsplit
      simp at hsplit
  | cons first rest ih =>
    have hkept := taskKept hsteps.1 hstart
    have hrest := ih _ hkept.retrievable hsteps.2
    refine ⟨hrest.retrievable, ?_, ?_, ?_⟩
    · intro earlier upload later text hsplit hrecorded hpresent
      cases earlier with
      | nil =>
        obtain ⟨rfl, rfl⟩ : first = .ingest upload ∧ rest = later := by simpa using hsplit
        exact .perform rest (fun _ => chunksRecorded_of_task hsteps.1 hrecorded) hkept.retrievable hsteps.2 hpresent
      | cons first' earlier =>
        obtain ⟨rfl, hrest'⟩ : first = first' ∧ rest = earlier ++ .ingest upload :: later := by simpa using hsplit
        exact hrest.recorded earlier upload later text hrest' hrecorded hpresent
    · intro id hid
      rcases hrest.ready id hid with hbefore | ⟨earlier, upload, later, text, hsplit, hdocument, hrecorded⟩
      · rcases ready_of_task hsteps.1 hstart hbefore with hstartReady | ⟨upload, text, rfl, hdocument, hrecorded⟩
        · exact .inl hstartReady
        · exact .inr ⟨[], upload, rest, text, rfl, hdocument, hrecorded⟩
      · exact .inr ⟨first :: earlier, upload, later, text, congrArg _ hsplit, hdocument, hrecorded⟩
    · intro earlier task later hsplit
      cases earlier with
      | nil =>
        obtain ⟨rfl, rfl⟩ : first = task ∧ rest = later := by simpa using hsplit
        exact hkept.others
      | cons first' earlier =>
        obtain ⟨rfl, hrest'⟩ : first = first' ∧ rest = earlier ++ task :: later := by simpa using hsplit
        exact hrest.others earlier task later hrest'

/-! ## A document and its copy -/

/-- Where the second document is. -/
def locationB : Location := ⟨1, 0, "0/b.txt"⟩

/-- The first document is ingested and the second is deleted, and the first keeps its chunk. -/
theorem perform_keepsRetrieval_delete :
    ChunksRecorded plainLibraries uploadA "a"
      (perform plainLibraries .calm [.ingest uploadA, .delete locationB] ⟨0, twoCopies⟩).stores := by
  have hingest : TaskMeets plainLibraries .calm (.ingest uploadA) ⟨0, twoCopies⟩ := by
    refine ⟨fun home hhome => ?_, fun w₁ existing text usedOcr hread => ?_⟩
    · have hhomes : twoCopies.homes = [(0, 0), (1, 0)] := rfl
      rw [hhomes] at hhome
      simpa [uploadA] using hhome
    · exact separate_of_unrepeated (ingestsOnce_uploadA w₁ existing text usedOcr hread).1
  have hcalm : ∀ w c, DeletesAtOnce .calm locationB w c := by
    intro w c _
    cases c with
    | deletePoints name id => exact fun reply error h => by cases h
    | deleteDocument id => exact fun error h => by cases h
    | _ => trivial
  have hdelete : TaskMeets plainLibraries .calm (.delete locationB)
      ((Task.ingest uploadA).perform plainLibraries .calm ⟨0, twoCopies⟩) := by
    refine ⟨fun home hhome => ?_, hcalm _ _, hcalm _ _, hcalm _ _, trivial⟩
    have hhomes : ((Task.ingest uploadA).perform plainLibraries .calm ⟨0, twoCopies⟩).stores.homes =
        [(0, 0), (1, 0)] := rfl
    rw [hhomes] at hhome
    simpa [locationB] using hhome
  exact (perform_keepsRetrieval plainLibraries .calm [.ingest uploadA, .delete locationB] ⟨0, twoCopies⟩
    (fun row hrow => by cases hrow) ⟨hingest, hdelete, trivial⟩).recorded [] uploadA [.delete locationB] "a" rfl
    ⟨⟨_, _, _, rfl⟩, _, rfl⟩ ⟨0, List.mem_singleton_self _⟩

/-- Both documents are ingested. -/
def copiesIngested : Stores := (perform plainLibraries .calm [.ingest uploadA, .ingest uploadB] ⟨0, twoCopies⟩).stores

/-- Then the second is deleted. -/
def copyDeleted : Stores :=
  (perform plainLibraries .calm [.ingest uploadA, .ingest uploadB, .delete locationB] ⟨0, twoCopies⟩).stores

/-- The second document is ready without a row for its chunk, and when it is deleted the row of the first, which is ready,
names no point. -/
theorem perform_loses_copy :
    (1 ∈ copiesIngested.readyIds ∧ ¬ ChunksRecorded plainLibraries uploadB "a\n" copiesIngested) ∧
      ∃ row ∈ copyDeleted.chunks.rows, row.documentId ∈ copyDeleted.readyIds ∧ ¬ Retrievable copyDeleted row := by
  have hdocuments : copiesIngested.chunks.rows.map ChunkRow.documentId = [0] := by decide +kernel
  have hremaining : copyDeleted.chunks.rows.map ChunkRow.documentId = [0] := by decide +kernel
  have hhomes : copyDeleted.homes = [(0, 0)] := by decide +kernel
  have hpoints : (copyDeleted.chunks.rows.all fun row =>
      ((copyDeleted.vectors (collectionName 0)).bind fun collection => collection.points row.qdrantPointId).isNone) =
        true := by decide +kernel
  refine ⟨⟨by decide +kernel, fun hrecorded => ?_⟩, ?_⟩
  · obtain ⟨row, hrow, hdocument, -⟩ := hrecorded ⟨"a"⟩ (by decide) ⟨"a", false, false, false⟩ rfl rfl
    have hmem := List.mem_map_of_mem (f := ChunkRow.documentId) hrow
    rw [hdocuments, hdocument] at hmem
    simp [uploadB] at hmem
  · obtain ⟨row, hrow, hdocument⟩ : ∃ row ∈ copyDeleted.chunks.rows, row.documentId = 0 := by
      rw [← List.mem_map, hremaining]
      exact List.mem_singleton_self _
    refine ⟨row, hrow, ?_, ?_⟩
    · rw [hdocument]
      decide +kernel
    · rintro ⟨collectionId, hcollection, stored, ⟨collection, hfound, hstored⟩, -⟩
      rw [hhomes, hdocument] at hcollection
      obtain rfl : collectionId = 0 := by simpa using hcollection
      have hnone := List.all_eq_true.mp hpoints row hrow
      simp [hfound, hstored] at hnone

end FleetWorkflow.Rag
