import FleetWorkflow.Api.Linkage

/-!
# Retried uploads

An upload may fail at any of its calls, and so may the ingestion that it queues, which a worker takes from the queue and
runs once. The same bytes are then uploaded to the same collection again, and every call of the second upload is answered.
It looks for a row of their digest, whatever the status of the row is.
-/

namespace FleetWorkflow.Api

open Python Async Store

/-- The arguments of a job. -/
def IngestJob.upload (job : IngestJob) : Rag.Upload :=
  ⟨job.documentId, job.collectionId, job.objectKey, job.filename, job.sensitivity, job.piiPolicy⟩

namespace UploadWorld

variable (py : Builtins) (libraries : Rag.Libraries) (w : UploadWorld)

/-- What is left by an upload. -/
def afterUpload (surroundings : UploadSurroundings) (upload : Upload) : UploadWorld :=
  ((uploadDocument py upload).run (answer surroundings) w).1

/-- A worker takes a job from the queue and runs it; a job that raises is not run again. -/
def work (services : Rag.Surroundings) (position : ℕ) : UploadWorld :=
  match w.queue[position]? with
  | none => w
  | some job =>
    let ran := (Rag.ingestDocument libraries job.upload).run (Rag.World.answer services) ⟨w.tick, w.archive.stores⟩
    { w with archive := ⟨ran.1.stores, w.archive.filing⟩, queue := w.queue.eraseIdx position, tick := ran.1.tick }

/-- Workers take jobs one after another. -/
def workAll (runs : List (Rag.Surroundings × ℕ)) : UploadWorld :=
  runs.foldl (fun w run => w.work libraries run.1 run.2) w

/-- The document of an upload is ready. -/
def IsReady (upload : Upload) : Prop :=
  ∃ row ∈ w.archive.rowsOf upload.collectionId upload.digest, row.status = "ready"

/-- The ingestion of the document of an upload is queued. -/
def InProgress (upload : Upload) : Prop :=
  ∃ row ∈ w.archive.rowsOf upload.collectionId upload.digest, ∃ job ∈ w.queue, job.documentId = row.id

/-- An upload queues the ingestion of its document. -/
def Queues (surroundings : UploadSurroundings) (upload : Upload) : Prop :=
  ∃ row ∈ (w.afterUpload py surroundings upload).archive.rowsOf upload.collectionId upload.digest, ∃ job,
    (w.afterUpload py surroundings upload).queue = w.queue ++ [job] ∧ job.documentId = row.id

/-- An upload queues the ingestion of its document, unless the document is ready or its ingestion is queued already. -/
def Retries (surroundings : UploadSurroundings) (upload : Upload) : Prop :=
  ¬ w.IsReady upload → ¬ w.InProgress upload → w.Queues py surroundings upload

/-- The calls of an upload of a new file before its row is inserted. -/
def callsBeforeCommit (upload : Upload) : List DocumentCall :=
  [.getCollection upload.collectionId, .findDocument upload.collectionId upload.digest, .bucketExists] ++
    (if w.bucket then [] else [.makeBucket]) ++ [.putObject (upload.key py) upload.data]

/-- The call that inserts the row of a new file. -/
abbrev commitCall (upload : Upload) : DocumentCall :=
  .insertDocument upload.collectionId (upload.key py) upload.digest upload.subjectHash

/-- Of the calls that are made from a tick on, and the insertion after them, one of the calls is not answered or the
insertion is refused. -/
def FailsFrom (surroundings : UploadSurroundings) (commit : DocumentCall) : ℕ → List DocumentCall → Prop
  | tick, [] => ∃ error, surroundings.given tick commit = .refused error
  | tick, c :: rest => surroundings.given tick c ≠ .answered () ∨ FailsFrom surroundings commit (tick + 1) rest

/-- An upload of a new file fails before its row is committed. -/
def FailsBeforeCommit (surroundings : UploadSurroundings) (upload : Upload) : Prop :=
  FailsFrom surroundings (commitCall py upload) w.tick (w.callsBeforeCommit py upload)

end UploadWorld

section Retries

variable {py : Builtins} {libraries : Rag.Libraries} {surroundings : UploadSurroundings} {upload : Upload}
  {w w' : UploadWorld}

/-- The part of an upload from the putting of its object on. -/
def fileUpload (py : Builtins) (upload : Upload) (collection : Collection) : Uploading DocumentOut := do
  awaitDocument (.putObject (upload.key py) upload.data)
  let row ← awaitDocument (UploadWorld.commitCall py upload)
  enqueueIngestion
    ⟨row.id, upload.collectionId, upload.key py, upload.name, collection.sensitivity, collection.piiPolicy⟩
  return row

/-- Storing a new file makes the bucket and files the object. -/
theorem storeUpload_eq (collection : Collection) :
    storeUpload py upload collection = ensureBucket >>= fun _ => fileUpload py upload collection := rfl

/-! ## Calls -/

/-- A call that is answered is carried out. -/
theorem answer_of_answered {c : DocumentCall} {reply : c.Reply} (hgiven : surroundings.given w.tick c = .answered ())
    (hout : w.carryOut (surroundings.clock w.tick) c = .ok (w', reply)) :
    w.answer surroundings c = ({ w' with tick := w.tick + 1 }, .ok reply) := by
  simp only [UploadWorld.answer, UploadWorld.respond, hgiven, hout]

/-- A call that is not answered fails. -/
theorem answer_of_not_answered {c : DocumentCall} (hgiven : surroundings.given w.tick c ≠ .answered ()) :
    ∃ w' error, w.answer surroundings c = (w', .error error) := by
  simp only [UploadWorld.answer, UploadWorld.respond]
  cases hcase : surroundings.given w.tick c with
  | answered reply => exact absurd hcase hgiven
  | refused error => exact ⟨_, error, rfl⟩
  | lost reply error =>
    cases w.carryOut (surroundings.clock w.tick) c with
    | ok out => exact ⟨_, error, rfl⟩
    | error error' => exact ⟨_, error', rfl⟩

/-- The documents with a digest are as they were. -/
theorem SameArchive.rowsOf (h : SameArchive w w') (collectionId : ℕ) (sha256 : String) :
    w'.archive.rowsOf collectionId sha256 = w.archive.rowsOf collectionId sha256 := by
  rw [h.archive]

/-- A call before the insertion leaves the rows. -/
theorem rowsOf_answer {c : DocumentCall} (hc : c.Quiet ∨ ∃ key data, c = .putObject key data) {reply : Except Exc c.Reply}
    (h : w.answer surroundings c = (w', reply)) (collectionId : ℕ) (sha256 : String) :
    w'.archive.rowsOf collectionId sha256 = w.archive.rowsOf collectionId sha256 := by
  rcases hc with hquiet | ⟨key, data, rfl⟩
  · exact (answer_quiet hquiet h).rowsOf collectionId sha256
  · rcases answer_putObject h with ⟨hsame, -⟩ | ⟨harchive, -⟩
    · exact hsame.rowsOf collectionId sha256
    · rw [harchive]
      rfl

/-- A coroutine of quiet calls leaves the rows. -/
theorem sameArchive_run {α : Type} {p : Uploading α} (hp : p.Only DocumentCall.Quiet) (w : UploadWorld) :
    SameArchive w (p.run (UploadWorld.answer surroundings) w).1 := by
  have hensures : (uploadProtocol surroundings).Ensures (fun _ w'' => SameArchive w w'') p w := ensures_quiet hp (.refl w)
  exact (hensures.run id (fun _ => True) (fun w c _ _ => ⟨rfl, trivial⟩) trivial).1

/-- A call before the insertion, at the start of an upload: the upload goes on, or it ends with the rows as they were. -/
theorem rowsOf_run_before {commit c : DocumentCall} (hc : c.Quiet ∨ ∃ key data, c = .putObject key data) {reply : c.Reply}
    {f : c.Reply → Uploading DocumentOut} {calls : List DocumentCall} {collectionId : ℕ} {sha256 : String}
    (hunknown : w.archive.rowsOf collectionId sha256 = [])
    (hout : w.carryOut (surroundings.clock w.tick) c = .ok (w', reply))
    (hrest : ((f reply).run (UploadWorld.answer surroundings) { w' with tick := w.tick + 1 }).1.archive.rowsOf
      collectionId sha256 = [] ↔ UploadWorld.FailsFrom surroundings commit (w.tick + 1) calls) :
    ((awaitDocument c >>= f).run (UploadWorld.answer surroundings) w).1.archive.rowsOf collectionId sha256 = [] ↔
      UploadWorld.FailsFrom surroundings commit w.tick (c :: calls) := by
  rw [Prog.run_bind, Prog.run_call, UploadWorld.FailsFrom]
  by_cases hgiven : surroundings.given w.tick c = .answered ()
  · rw [answer_of_answered hgiven hout, or_iff_right (not_not.mpr hgiven)]
    exact hrest
  · obtain ⟨w₁, error, hanswer⟩ := answer_of_not_answered hgiven
    rw [hanswer]
    exact iff_of_true ((rowsOf_answer hc hanswer collectionId sha256).trans hunknown) (.inl hgiven)

/-- A row that is inserted is found. -/
theorem mem_rowsOf_insert (archive : Archive) (row : Rag.DocumentRow) (filing : Filing)
    (hnew : ∀ earlier ∈ archive.stores.documents.rows, earlier.id ≠ row.id) :
    row ∈ (archive.insert row filing).rowsOf row.collectionId filing.sha256 := by
  apply mem_rowsOf.mpr
  refine ⟨?_, rfl, by simp [Archive.insert]⟩
  exact (KeyedRows.mem_addIfNew _ _ _).mpr (.inr ⟨rfl, hnew⟩)

/-- In sound documents the next id is new. -/
theorem Sound.next_new (hsound : Sound py w) : ∀ earlier ∈ w.archive.stores.documents.rows, earlier.id ≠ w.nextDocument := by
  intro earlier hearlier
  have hfresh := hsound.fresh earlier.location (mem_locations.mpr ⟨earlier, hearlier, rfl⟩)
  exact Nat.ne_of_lt hfresh

/-- The insertion, and what follows it: the row is there unless the insertion is refused. -/
theorem rowsOf_run_commit (hnew : ∀ earlier ∈ w.archive.stores.documents.rows, earlier.id ≠ w.nextDocument)
    (hcollection : (w.collections.row upload.collectionId).isSome)
    (hunknown : w.archive.rowsOf upload.collectionId upload.digest = []) (f : DocumentOut → Uploading DocumentOut)
    (hf : ∀ row, (f row).Only DocumentCall.Quiet) :
    ((awaitDocument (UploadWorld.commitCall py upload) >>= f).run (UploadWorld.answer surroundings) w).1.archive.rowsOf
        upload.collectionId upload.digest = [] ↔
      ∃ error, surroundings.given w.tick (UploadWorld.commitCall py upload) = .refused error := by
  have hnone : (w.collections.row upload.collectionId).isNone = false := by
    rw [← Option.not_isSome, hcollection]
    rfl
  let row : Rag.DocumentRow :=
    ⟨w.nextDocument, upload.collectionId, upload.key py, "queued", "pending", surroundings.clock w.tick⟩
  let archive := w.archive.insert row ⟨upload.digest, upload.subjectHash⟩
  have hout : w.carryOut (surroundings.clock w.tick) (UploadWorld.commitCall py upload) =
      .ok ({ w with archive := archive, nextDocument := w.nextDocument + 1 }, archive.out row) := by
    simp [UploadWorld.carryOut, hnone, hunknown, archive, row]
  have hfound : row ∈ archive.rowsOf upload.collectionId upload.digest := mem_rowsOf_insert w.archive row _ hnew
  rw [Prog.run_bind, Prog.run_call]
  cases hgiven : surroundings.given w.tick (UploadWorld.commitCall py upload) with
  | refused error =>
    simp only [UploadWorld.answer, UploadWorld.respond, hgiven]
    exact ⟨fun _ => ⟨error, rfl⟩, fun _ => hunknown⟩
  | lost reply error =>
    simp only [UploadWorld.answer, UploadWorld.respond, hgiven, hout]
    refine ⟨fun hnil => ?_, fun h => by cases h.choose_spec⟩
    rw [hnil] at hfound
    cases hfound
  | answered reply =>
    simp only [answer_of_answered hgiven hout]
    refine ⟨fun hnil => ?_, fun h => by cases h.choose_spec⟩
    rw [(sameArchive_run (hf _) _).rowsOf] at hnil
    simp only at hnil
    rw [hnil] at hfound
    cases hfound

/-- After the upload of a new file there is no row of it exactly when the upload failed before the commit of the row. -/
theorem rowsOf_afterUpload (hnew : ∀ earlier ∈ w.archive.stores.documents.rows, earlier.id ≠ w.nextDocument)
    (hcollection : (w.collections.row upload.collectionId).isSome)
    (hunknown : w.archive.rowsOf upload.collectionId upload.digest = []) :
    (w.afterUpload py surroundings upload).archive.rowsOf upload.collectionId upload.digest = [] ↔
      w.FailsBeforeCommit py surroundings upload := by
  obtain ⟨collection, hrow⟩ := Option.isSome_iff_exists.mp hcollection
  have hput (tick : ℕ) : ((fileUpload py upload collection).run (UploadWorld.answer surroundings)
      { w with bucket := true, tick := tick }).1.archive.rowsOf upload.collectionId upload.digest = [] ↔
        UploadWorld.FailsFrom surroundings (UploadWorld.commitCall py upload) tick
          [.putObject (upload.key py) upload.data] := by
    apply rowsOf_run_before
    · exact .inr ⟨_, _, rfl⟩
    · exact hunknown
    · rfl
    · apply rowsOf_run_commit
      · exact hnew
      · exact hcollection
      · exact hunknown
      · intro row
        exact (only_enqueueIngestion _).bind fun _ => Prog.only_pure _
  rw [UploadWorld.afterUpload, UploadWorld.FailsBeforeCommit, UploadWorld.callsBeforeCommit]
  apply rowsOf_run_before
  · exact .inl trivial
  · exact hunknown
  · simp only [UploadWorld.carryOut, hrow]
    rfl
  apply rowsOf_run_before
  · exact .inl trivial
  · exact hunknown
  · simp only [UploadWorld.carryOut]
    rw [show Archive.rowsOf w.archive _ _ = [] from hunknown]
  simp only [storeUpload_eq, ensureBucket, Prog.bind_assoc]
  apply rowsOf_run_before
  · exact .inl trivial
  · exact hunknown
  · rfl
  by_cases hbucket : w.bucket = true
  · simp only [hbucket, if_true, Prog.pure_eq, Prog.done_bind]
    exact hput _
  · simp only [hbucket]
    apply rowsOf_run_before
    · exact .inl trivial
    · exact hunknown
    · rfl
    · exact hput _

/-! ## Workers -/

/-- Nothing has a digest when no place is filed under it. -/
theorem rowsOf_eq_nil {archive : Archive} {collectionId : ℕ} {sha256 : String} : archive.rowsOf collectionId sha256 = [] ↔
    ∀ location ∈ archive.locations, location.collectionId = collectionId →
      (archive.filing location.documentId).sha256 ≠ sha256 := by
  rw [List.eq_nil_iff_forall_not_mem]
  constructor
  · intro h location hlocation hcollection hdigest
    obtain ⟨row, hrow, rfl⟩ := mem_locations.mp hlocation
    exact h row (mem_rowsOf.mpr ⟨hrow, hcollection, hdigest⟩)
  · intro h row hrow
    obtain ⟨hmem, hcollection, hdigest⟩ := mem_rowsOf.mp hrow
    exact h row.location (mem_locations.mpr ⟨row, hmem, rfl⟩) hcollection hdigest

/-- What workers leave of a world. -/
structure SamePlatform (w w' : UploadWorld) : Prop where
  locations : w'.archive.locations = w.archive.locations
  filing : w'.archive.filing = w.archive.filing
  next : w'.nextDocument = w.nextDocument
  collections : w'.collections = w.collections

/-- A worker leaves the places of the documents. -/
theorem samePlatform_work (libraries : Rag.Libraries) (w : UploadWorld) (services : Rag.Surroundings) (position : ℕ) :
    SamePlatform w (w.work libraries services position) := by
  rw [UploadWorld.work]
  cases w.queue[position]? with
  | none => exact ⟨rfl, rfl, rfl, rfl⟩
  | some job =>
    have hsame := Rag.samePlaces_run (Rag.keeps_ingestDocument libraries job.upload) services ⟨w.tick, w.archive.stores⟩
    exact ⟨hsame.locations, rfl, rfl, rfl⟩

/-- Workers leave the places of the documents. -/
theorem samePlatform_workAll (libraries : Rag.Libraries) (w : UploadWorld) (runs : List (Rag.Surroundings × ℕ)) :
    SamePlatform w (w.workAll libraries runs) := by
  induction runs generalizing w with
  | nil => exact ⟨rfl, rfl, rfl, rfl⟩
  | cons run rest ih =>
    have hstep := samePlatform_work libraries w run.1 run.2
    have hrest := ih (w.work libraries run.1 run.2)
    exact ⟨hrest.locations.trans hstep.locations, hrest.filing.trans hstep.filing, hrest.next.trans hstep.next,
      hrest.collections.trans hstep.collections⟩

/-! ## The second upload -/

/-- No call changes the collections. -/
theorem collections_answer (w : UploadWorld) (c : DocumentCall) :
    (w.answer surroundings c).1.collections = w.collections := by
  cases hanswer : w.answer surroundings c with
  | mk w' reply =>
    have hcarried : ∀ w₁ reply', w.carryOut (surroundings.clock w.tick) c = .ok (w₁, reply') →
        w₁.collections = w.collections := by
      intro w₁ reply' hout
      cases c with
      | findDocument collectionId sha256 =>
        simp only [UploadWorld.carryOut] at hout
        split at hout <;> cases hout <;> rfl
      | putObject key data =>
        simp only [UploadWorld.carryOut] at hout
        split at hout <;> cases hout
        rfl
      | insertDocument collectionId uri sha256 subjectHash =>
        simp only [UploadWorld.carryOut] at hout
        split at hout <;> cases hout
        rfl
      | _ =>
        cases hout
        rfl
    simp only [UploadWorld.answer, UploadWorld.respond] at hanswer
    cases hout : w.carryOut (surroundings.clock w.tick) c with
    | error error => cases hgiven : surroundings.given w.tick c <;> simp only [hgiven, hout] at hanswer <;> cases hanswer <;> rfl
    | ok out =>
      cases hgiven : surroundings.given w.tick c <;> simp only [hgiven, hout] at hanswer <;> cases hanswer
      · exact hcarried out.1 out.2 hout
      · rfl
      · exact hcarried out.1 out.2 hout

/-- No upload changes the collections. -/
theorem collections_run {α : Type} (p : Uploading α) (w : UploadWorld) :
    (p.run (UploadWorld.answer surroundings) w).1.collections = w.collections := by
  induction p generalizing w with
  | done value => rfl
  | raise error => rfl
  | await c next ih => exact (ih _ _).trans (collections_answer w c)

/-- An upload of a file with a row queues nothing. -/
theorem queue_afterUpload_known (hanswered : ∀ tick c, surroundings.given tick c = .answered ())
    (hcollection : (w.collections.row upload.collectionId).isSome)
    (hknown : w.archive.rowsOf upload.collectionId upload.digest ≠ []) :
    (w.afterUpload py surroundings upload).queue = w.queue := by
  obtain ⟨collection, hrow⟩ := Option.isSome_iff_exists.mp hcollection
  have hfirst : w.answer surroundings (.getCollection upload.collectionId) =
      ({ w with tick := w.tick + 1 }, .ok (some collection)) := by
    simp [UploadWorld.answer, UploadWorld.respond, UploadWorld.carryOut, hanswered, hrow]
  rw [UploadWorld.afterUpload, uploadDocument, Prog.run_bind, Prog.run_call, hfirst]
  simp only
  rw [Prog.run_bind, Prog.run_call]
  cases hrows : w.archive.rowsOf upload.collectionId upload.digest with
  | nil => exact absurd hrows hknown
  | cons row rest =>
    cases rest with
    | nil =>
      simp only [UploadWorld.answer, UploadWorld.respond, UploadWorld.carryOut, hanswered, hrows]
      rfl
    | cons second others => simp only [UploadWorld.answer, UploadWorld.respond, UploadWorld.carryOut, hanswered, hrows]

/-- A call at the start of a coroutine whose calls are answered. -/
theorem run_answered (hanswered : ∀ tick c, surroundings.given tick c = .answered ()) {α : Type} {c : DocumentCall}
    {reply : c.Reply} (f : c.Reply → Uploading α) (hout : w.carryOut (surroundings.clock w.tick) c = .ok (w', reply)) :
    (awaitDocument c >>= f).run (UploadWorld.answer surroundings) w =
      (f reply).run (UploadWorld.answer surroundings) { w' with tick := w.tick + 1 } := by
  rw [Prog.run_bind, Prog.run_call, answer_of_answered (hanswered _ _) hout]

/-- Queueing an ingestion appends its job. -/
theorem run_enqueueIngestion (hanswered : ∀ tick c, surroundings.given tick c = .answered ()) (w : UploadWorld) (job : IngestJob) :
    (enqueueIngestion job).run (UploadWorld.answer surroundings) w =
      ({ w with queue := w.queue ++ [job], tick := w.tick + 3 }, .ok ()) := by
  have hpool : w.carryOut (surroundings.clock w.tick) .createPool = .ok (w, ()) := rfl
  rw [enqueueIngestion, run_answered hanswered _ hpool]
  simp [Prog.withCleanup, Prog.run_bind, Prog.run_attempt, Prog.run_call, UploadWorld.answer, UploadWorld.respond,
    UploadWorld.carryOut, hanswered, Nat.add_assoc, Prog.run]

/-- A file that is put and has no row is filed, and its ingestion is queued. -/
theorem queue_fileUpload (hanswered : ∀ tick c, surroundings.given tick c = .answered ()) (hbucket : w.bucket = true)
    (hnew : ∀ earlier ∈ w.archive.stores.documents.rows, earlier.id ≠ w.nextDocument)
    (hcollection : (w.collections.row upload.collectionId).isSome)
    (hunknown : w.archive.rowsOf upload.collectionId upload.digest = []) (collection : Collection) :
    ∃ row ∈ ((fileUpload py upload collection).run (UploadWorld.answer surroundings) w).1.archive.rowsOf
        upload.collectionId upload.digest, ∃ job,
      ((fileUpload py upload collection).run (UploadWorld.answer surroundings) w).1.queue = w.queue ++ [job] ∧
        job.documentId = row.id := by
  have hnone : (w.collections.row upload.collectionId).isNone = false := by
    rw [← Option.not_isSome, hcollection]
    rfl
  have hunknown' : (w.archive.putObject (upload.key py) upload.data).rowsOf upload.collectionId upload.digest = [] :=
    hunknown
  let row : Rag.DocumentRow :=
    ⟨w.nextDocument, upload.collectionId, upload.key py, "queued", "pending", surroundings.clock (w.tick + 1)⟩
  let archive := (w.archive.putObject (upload.key py) upload.data).insert row ⟨upload.digest, upload.subjectHash⟩
  have hput : w.carryOut (surroundings.clock w.tick) (.putObject (upload.key py) upload.data) =
      .ok ({ w with archive := w.archive.putObject (upload.key py) upload.data }, ()) := by
    simp [UploadWorld.carryOut, hbucket]
  have hinsert : UploadWorld.carryOut
      { w with archive := w.archive.putObject (upload.key py) upload.data, tick := w.tick + 1 }
      (surroundings.clock (w.tick + 1)) (UploadWorld.commitCall py upload) =
        .ok ({ w with archive := archive, nextDocument := w.nextDocument + 1, tick := w.tick + 1 }, archive.out row) := by
    simp [UploadWorld.carryOut, hnone, hunknown', archive, row]
  rw [fileUpload, run_answered hanswered _ hput, run_answered hanswered _ hinsert, Prog.run_bind,
    run_enqueueIngestion hanswered]
  refine ⟨row, mem_rowsOf_insert _ row _ hnew, ?_⟩
  exact ⟨⟨w.nextDocument, upload.collectionId, upload.key py, upload.name, collection.sensitivity, collection.piiPolicy⟩,
    rfl, rfl⟩

/-- An upload of a new file files it and queues its ingestion. -/
theorem queues_of_new (hanswered : ∀ tick c, surroundings.given tick c = .answered ())
    (hnew : ∀ earlier ∈ w.archive.stores.documents.rows, earlier.id ≠ w.nextDocument)
    (hcollection : (w.collections.row upload.collectionId).isSome)
    (hunknown : w.archive.rowsOf upload.collectionId upload.digest = []) : w.Queues py surroundings upload := by
  obtain ⟨collection, hrow⟩ := Option.isSome_iff_exists.mp hcollection
  have hcollections : w.carryOut (surroundings.clock w.tick) (.getCollection upload.collectionId) =
      .ok (w, some collection) := by
    simp [UploadWorld.carryOut, hrow]
  have hrows : UploadWorld.carryOut { w with tick := w.tick + 1 } (surroundings.clock (w.tick + 1))
      (.findDocument upload.collectionId upload.digest) = .ok ({ w with tick := w.tick + 1 }, none) := by
    simp [UploadWorld.carryOut, hunknown]
  have hexists : UploadWorld.carryOut { w with tick := w.tick + 1 + 1 } (surroundings.clock (w.tick + 1 + 1)) .bucketExists =
      .ok ({ w with tick := w.tick + 1 + 1 }, w.bucket) := rfl
  rw [UploadWorld.Queues, UploadWorld.afterUpload, uploadDocument, run_answered hanswered _ hcollections]
  simp only
  rw [run_answered hanswered _ hrows]
  simp only [storeUpload_eq, ensureBucket, Prog.bind_assoc]
  rw [run_answered hanswered _ hexists]
  by_cases hbucket : w.bucket = true
  · simp only [hbucket, if_true, Prog.pure_eq, Prog.done_bind]
    apply queue_fileUpload hanswered
    · rfl
    · exact hnew
    · exact hcollection
    · exact hunknown
  · have hmake : UploadWorld.carryOut { w with bucket := false, tick := w.tick + 1 + 1 + 1 }
        (surroundings.clock (w.tick + 1 + 1 + 1)) .makeBucket =
          .ok ({ w with bucket := true, tick := w.tick + 1 + 1 + 1 }, ()) := rfl
    simp only [hbucket, Bool.false_eq_true, if_false]
    rw [run_answered hanswered _ hmake]
    apply queue_fileUpload hanswered
    · rfl
    · exact hnew
    · exact hcollection
    · exact hunknown

/-! ## Retries -/

variable (py libraries)

/-- An upload of a file that its collection does not have, whose calls may fail at any point; any number of ingestions that
workers take from the queue, whose calls may fail at any point; and a second upload of the same bytes to the collection,
whose calls are answered. The second upload queues the ingestion of the document, unless the document is ready or its
ingestion is queued, exactly when one of these holds or the first upload failed before it committed the row. -/
theorem retries_iff (w : UploadWorld) (hsound : Sound py w) (first second : UploadSurroundings)
    (runs : List (Rag.Surroundings × ℕ)) (upload again : Upload) (hcollection : (w.collections.row upload.collectionId).isSome)
    (hunknown : w.archive.rowsOf upload.collectionId upload.digest = [])
    (hsame : again.collectionId = upload.collectionId ∧ again.data = upload.data)
    (hanswered : ∀ tick c, second.given tick c = .answered ()) :
    ((w.afterUpload py first upload).workAll libraries runs).Retries py second again ↔
      ((w.afterUpload py first upload).workAll libraries runs).IsReady again ∨
        ((w.afterUpload py first upload).workAll libraries runs).InProgress again ∨ w.FailsBeforeCommit py first upload := by
  have hsound₁ : Sound py (w.afterUpload py first upload) := hsound.course (course_uploadDocument first py upload w)
  have hworkers := samePlatform_workAll libraries (w.afterUpload py first upload) runs
  generalize hleft : (w.afterUpload py first upload).workAll libraries runs = left at hworkers ⊢
  have hsound₂ : Sound py left := hsound₁.of_same hworkers.locations hworkers.filing hworkers.next
  have hdigest : again.digest = upload.digest := by rw [Upload.digest, Upload.digest, hsame.2]
  have hrows : left.archive.rowsOf again.collectionId again.digest = [] ↔ w.FailsBeforeCommit py first upload := by
    rw [← rowsOf_afterUpload hsound.next_new hcollection hunknown, hsame.1, hdigest, rowsOf_eq_nil, rowsOf_eq_nil,
      hworkers.locations, hworkers.filing]
  have hcollection₂ : (left.collections.row again.collectionId).isSome := by
    rw [hworkers.collections, UploadWorld.afterUpload, collections_run, hsame.1]
    exact hcollection
  by_cases hnew : left.archive.rowsOf again.collectionId again.digest = []
  · apply iff_of_true
    · exact fun _ _ => queues_of_new hanswered hsound₂.next_new hcollection₂ hnew
    · exact .inr (.inr (hrows.mp hnew))
  · have hqueue : ¬ left.Queues py second again := by
      rintro ⟨row, -, job, hjob, -⟩
      rw [queue_afterUpload_known hanswered hcollection₂ hnew] at hjob
      simp at hjob
    rw [UploadWorld.Retries]
    have hfiled : ¬ w.FailsBeforeCommit py first upload := mt hrows.mpr hnew
    tauto

/-- A document that is neither ready nor queued, and has a row, is not queued again. -/
theorem not_retries_of_row {w : UploadWorld} (hanswered : ∀ tick c, surroundings.given tick c = .answered ())
    (hcollection : (w.collections.row upload.collectionId).isSome) (row : Rag.DocumentRow)
    (hrows : w.archive.rowsOf upload.collectionId upload.digest = [row]) (hstatus : row.status ≠ "ready")
    (hqueue : w.queue = []) : ¬ w.Retries py surroundings upload := by
  intro hretries
  have hready : ¬ w.IsReady upload := by
    simp [UploadWorld.IsReady, hrows, hstatus]
  have hprogress : ¬ w.InProgress upload := by
    simp [UploadWorld.InProgress, hqueue]
  obtain ⟨-, -, job, hjob, -⟩ := hretries hready hprogress
  rw [queue_afterUpload_known hanswered hcollection (by simp [hrows])] at hjob
  simp at hjob

end Retries

/-! ## Three failures -/

/-- The reply of the object store is lost. -/
def lostObject : UploadSurroundings where
  given _ c := match c with
    | .putObject _ _ => .lost () ⟨.external, "Connection reset by peer"⟩
    | _ => .answered ()
  clock _ := 0

/-- The queue cannot be reached. -/
def brokenQueue : UploadSurroundings where
  given _ c := match c with
    | .enqueueJob _ => .refused ⟨.external, "Connection refused"⟩
    | _ => .answered ()
  clock _ := 0

/-- The embedding model cannot be reached. -/
def brokenModel : Rag.Surroundings := fun _ c =>
  match c with
  | .embeddings _ _ _ _ => .refused ⟨.gateway, "gateway unreachable"⟩
  | c => .answered (Rag.plainReply c)

/-- A text file. -/
def oneFile : Upload := ⟨0, [97], some "cv.txt", none⟩

/-- An upload that fails after its object is stored can be retried. -/
theorem retries_lostObject :
    ((onePlatform.afterUpload lowerCase lostObject oneFile).workAll Rag.plainLibraries []).Retries lowerCase
      calmSetting.uploads oneFile := by
  apply (retries_iff lowerCase Rag.plainLibraries onePlatform sound_onePlatform lostObject calmSetting.uploads [] oneFile
    oneFile rfl rfl ⟨rfl, rfl⟩ fun _ _ => rfl).mpr
  refine .inr (.inr ?_)
  simp [UploadWorld.FailsBeforeCommit, UploadWorld.callsBeforeCommit, UploadWorld.FailsFrom, lostObject, onePlatform]

/-- The row of the file. -/
def fileRow (status ocrStatus : String) : Rag.DocumentRow := ⟨0, 0, oneFile.key lowerCase, status, ocrStatus, 0⟩

/-- The rows of the file where its row is the only one. -/
theorem rowsOf_fileRow {archive : Archive} {status ocrStatus : String}
    (hrows : archive.stores.documents.rows = [fileRow status ocrStatus]) (hfiling : (archive.filing 0).sha256 = oneFile.digest) :
    archive.rowsOf oneFile.collectionId oneFile.digest = [fileRow status ocrStatus] := by
  have hdigest : (archive.filing (fileRow status ocrStatus).id).sha256 = oneFile.digest := hfiling
  rw [Archive.rowsOf, hrows, List.filter_cons_of_pos]
  · rfl
  · rw [hdigest]
    simp [fileRow, oneFile]

-- The second case runs an ingestion, which compares keys made of digests.
set_option maxRecDepth 20000 in
/-- An upload whose job is not queued, and one whose ingestion raises, are not retried. -/
theorem not_retries_queue_model :
    ¬ ((onePlatform.afterUpload lowerCase brokenQueue oneFile).workAll Rag.plainLibraries []).Retries lowerCase
        calmSetting.uploads oneFile ∧
      ¬ ((onePlatform.afterUpload lowerCase calmSetting.uploads oneFile).workAll Rag.plainLibraries
        [(brokenModel, 0)]).Retries lowerCase calmSetting.uploads oneFile := by
  constructor
  · apply not_retries_of_row lowerCase (fun _ _ => rfl) rfl (fileRow "queued" "pending")
    · exact rowsOf_fileRow rfl rfl
    · decide
    · rfl
  · apply not_retries_of_row lowerCase (fun _ _ => rfl) rfl (fileRow "error" "error")
    · exact rowsOf_fileRow rfl rfl
    · decide
    · rfl

end FleetWorkflow.Api
