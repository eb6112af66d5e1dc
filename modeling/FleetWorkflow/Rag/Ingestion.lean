import FleetWorkflow.Flow.Fallible
import FleetWorkflow.Rag.Pipeline
import FleetWorkflow.Rag.Stores

/-!
# The parts of an ingestion

An ingestion first reads: the bytes, the digests that are already embedded, and the text. Then it stores
the vectors and the rows, and at last it marks the document ready. The parts are named here, so that
results can speak of the text that an ingestion read and of an ingestion that recorded its rows.
-/

namespace FleetWorkflow.Rag

open Python Async Store Flow

variable (libraries : Libraries) (upload : Upload)

/-- What an ingestion reads: the digests that are embedded, the text, and whether it was a scan. -/
def readText : Coroutine (List String × String × Bool) := do
  let data ← await (.getObject upload.objectKey)
  let existing ← await (.chunkHashes upload.documentId)
  let (text, usedOcr) ← uploadText libraries upload data
  return (existing, text, usedOcr)

/-- The chunks of a text that are embedded: those that are not yet, and that the policy lets pass. -/
def keptChunks (existing : List String) (text : String) : List Kept :=
  match chunkPolicies libraries upload (freshChunks text existing) with
  | .ok policies => policies.filter fun kept => !kept.2.blocked
  | .error _ => []

/-- Record the rows of an outcome. -/
def thenRecord (outcome : IngestOutcome) : Coroutine IngestOutcome := do
  recordChunks upload.documentId outcome.persistedChunks
  return outcome

/-- An ingestion after the text is read, up to its rows. -/
def storeText (existing : List String) (text : String) (usedOcr : Bool) : Coroutine IngestOutcome :=
  orMarkError upload.documentId (ingestText libraries upload existing text usedOcr) >>= thenRecord upload

/-- An ingestion up to its rows. -/
def ingestRecorded : Coroutine IngestOutcome := do
  let data ← await (.getObject upload.objectKey)
  let existing ← await (.chunkHashes upload.documentId)
  let outcome ← orMarkError upload.documentId (runIngestion libraries upload data existing)
  thenRecord upload outcome

/-- Mark a document ready. -/
def markReady (outcome : IngestOutcome) : Coroutine IngestOutcome := do
  await (.updateDocument upload.documentId "ready" (if outcome.usedOcr then "done" else "not_needed"))
  return outcome

/-- An ingestion records its rows and then marks its document ready. -/
theorem ingestDocument_eq : ingestDocument libraries upload = ingestRecorded libraries upload >>= markReady upload := by
  simp only [ingestDocument, ingestRecorded, recordOutcome, thenRecord, markReady, Prog.bind_assoc, Prog.pure_eq,
    Prog.done_bind]

/-! ## Reading -/

/-- The calls that read. -/
def Reads : Call → Prop
  | .getObject _ | .chunkHashes _ | .retentionRows | .collectionExists _ | .reasoning _ _ | .tesseract _ => True
  | _ => False

/-- A reading call leaves the stores as they are. -/
theorem respond_of_reads {s : Stores} {c : Call} (hc : Reads c) (given : Given (Reply c)) :
    (s.respond c given).1 = s := by
  cases hrespond : s.respond c given with
  | mk s' reply =>
    rcases Stores.respond_inv hrespond with ⟨rfl, -⟩ | ⟨given', reply', hout, -⟩
    · rfl
    · cases c with
      | getObject key =>
        simp only [Stores.carryOut] at hout
        split at hout <;> cases hout
        rfl
      | chunkHashes _ | retentionRows | collectionExists _ | reasoning _ _ | tesseract _ =>
        cases hout
        rfl
      | _ => exact hc.elim

/-- Reading leaves the stores as they are. -/
theorem run_reads {α : Type} {p : Coroutine α} (hp : p.Only Reads) (surroundings : Surroundings) (w : World) :
    (p.run (World.answer surroundings) w).1.stores = w.stores := by
  induction p generalizing w with
  | done value => rfl
  | raise error => rfl
  | await c next ih => exact (ih _ (hp.2 _) _).trans (respond_of_reads hp.1 _)

/-- The rule of reading at the start of a sequence. -/
theorem run_reads_bind {α β : Type} {p : Coroutine α} (hp : p.Only Reads) {f : α → Coroutine β}
    {surroundings : Surroundings} {w : World} {post : World × Except Exc β → Prop}
    (herror : ∀ w₁ error, w₁.stores = w.stores → p.run (World.answer surroundings) w = (w₁, .error error) →
      post (w₁, .error error))
    (hok : ∀ w₁ value, w₁.stores = w.stores → p.run (World.answer surroundings) w = (w₁, .ok value) →
      post ((f value).run (World.answer surroundings) w₁)) :
    post ((p >>= f).run (World.answer surroundings) w) := by
  have hreads := run_reads hp surroundings w
  cases hrun : p.run (World.answer surroundings) w with
  | mk w₁ result =>
    rw [hrun] at hreads
    cases result with
    | error error =>
      rw [Prog.run_bind_of_error (congrArg Prod.snd hrun), hrun]
      exact herror w₁ error hreads hrun
    | ok value =>
      rw [Prog.run_bind_of_ok (congrArg Prod.snd hrun), hrun]
      exact hok w₁ value hreads hrun

/-- Fetching an object reads. -/
theorem only_getObject (key : String) : (await (.getObject key)).Only Reads := Prog.only_call trivial

/-- Looking up the digests of a document reads. -/
theorem only_chunkHashes (documentId : ℕ) : (await (.chunkHashes documentId)).Only Reads := Prog.only_call trivial

/-- A reader that may fail reads. -/
theorem only_textOrNothing {reader : Coroutine String} (h : reader.Only Reads) :
    (textOrNothing reader).Only Reads := by
  refine h.attempt.bind fun result => ?_
  cases result <;> trivial

/-- The text of a scan is read. -/
theorem only_ocrImage (image : Bytes) (sensitivity : String) : (ocrImage libraries image sensitivity).Only Reads := by
  have hlocal : ∀ text : String, Prog.Only Reads (if text ≠ "" then return ⟨text, "vision-llm"⟩
      else do
        let text ← textOrNothing (await (.tesseract image))
        if text ≠ "" then return ⟨text, "tesseract"⟩ else return ⟨"", "none"⟩ : Coroutine OcrResult) := by
    intro text
    split
    · trivial
    · refine (only_textOrNothing (Prog.only_call trivial)).bind fun text => ?_
      split <;> trivial
  refine (Prog.only_ofExcept _).bind fun level => ?_
  by_cases hlevel : level < localOnlyFloor
  · have hvision : (tryVision image sensitivity).Only Reads := (Prog.only_call trivial).bind fun _ => trivial
    simp only [if_pos hlevel]
    exact (only_textOrNothing hvision).bind hlocal
  · simp only [if_neg hlevel]
    exact hlocal ""

/-- The text of an upload is read. -/
theorem only_uploadText (data : Bytes) : (uploadText libraries upload data).Only Reads := by
  refine (Prog.only_ofExcept _).bind fun extracted => ?_
  cases extracted.needsOcr with
  | false => trivial
  | true => exact (only_ocrImage libraries data upload.sensitivity).bind fun _ => trivial

/-- What an ingestion reads is read. -/
theorem only_readText : (readText libraries upload).Only Reads := by
  refine (only_getObject upload.objectKey).bind fun data => ?_
  refine (only_chunkHashes upload.documentId).bind fun existing => ?_
  exact (only_uploadText libraries upload data).bind fun _ => trivial

/-- The digests of the chunks of a document. -/
def Stores.hashesOf (s : Stores) (documentId : ℕ) : List String :=
  (s.chunks.rows.filter fun row => row.documentId = documentId).map ChunkRow.contentSha256

variable {libraries upload} {surroundings : Surroundings} {w w₁ : World} {existing : List String} {text : String}
  {usedOcr : Bool}

/-- The digests that an ingestion reads are those of its document. -/
theorem existing_of_readText
    (h : (readText libraries upload).run (World.answer surroundings) w = (w₁, .ok (existing, text, usedOcr))) :
    existing = w.stores.hashesOf upload.documentId := by
  obtain ⟨w₂, data, hdata, h⟩ := Prog.run_bind_eq_ok h
  obtain ⟨w₃, hashes, hhashes, h⟩ := Prog.run_bind_eq_ok h
  obtain ⟨w₄, read, -, h⟩ := Prog.run_bind_eq_ok h
  have hread : hashes = existing := congrArg Prod.fst (Except.ok.inj (Prod.mk.inj h).2)
  have hsame : w₂.stores = w.stores := by
    have hreads := run_reads (only_getObject upload.objectKey) surroundings w
    rw [hdata] at hreads
    exact hreads
  rw [Prog.run_call] at hhashes
  obtain ⟨given, hout⟩ := Stores.carryOut_of_ok (World.respond_of_answer hhashes)
  have hhashes' : w₂.stores.hashesOf upload.documentId = hashes := (Prod.mk.inj (Except.ok.inj hout)).2
  rw [← hread, ← hhashes', hsame]

/-- Marking errors does not matter for a part that returns. -/
theorem run_orMarkError_bind {β : Type} {documentId : ℕ} {p : Coroutine β} {f : β → Coroutine IngestOutcome}
    {value : β} (h : p.run (World.answer surroundings) w = (w₁, .ok value)) :
    (orMarkError documentId (p >>= f)).run (World.answer surroundings) w =
      (orMarkError documentId (f value)).run (World.answer surroundings) w₁ := by
  have hbind : (p >>= f).run (World.answer surroundings) w = (f value).run (World.answer surroundings) w₁ := by
    rw [Prog.run_bind_of_ok (congrArg Prod.snd h), h]
  unfold orMarkError
  rw [Prog.run_bind_of_ok (congrArg Prod.snd (Prog.run_attempt _ _ _)), Prog.run_attempt,
    Prog.run_bind_of_ok (congrArg Prod.snd (Prog.run_attempt _ _ _)), Prog.run_attempt, hbind]

/-- A pipeline that has its text goes on with it. -/
theorem run_orMarkError_runIngestion {data : Bytes}
    (h : (uploadText libraries upload data).run (World.answer surroundings) w = (w₁, .ok (text, usedOcr))) :
    (orMarkError upload.documentId (runIngestion libraries upload data existing)).run (World.answer surroundings) w =
      (orMarkError upload.documentId (ingestText libraries upload existing text usedOcr)).run
        (World.answer surroundings) w₁ := by
  unfold runIngestion
  rw [run_orMarkError_bind h]

/-- An ingestion that has read its text goes on with it. -/
theorem run_ingestRecorded
    (h : (readText libraries upload).run (World.answer surroundings) w = (w₁, .ok (existing, text, usedOcr))) :
    (ingestRecorded libraries upload).run (World.answer surroundings) w =
      (storeText libraries upload existing text usedOcr).run (World.answer surroundings) w₁ := by
  obtain ⟨w₂, data, hdata, h⟩ := Prog.run_bind_eq_ok h
  obtain ⟨w₃, hashes, hhashes, h⟩ := Prog.run_bind_eq_ok h
  obtain ⟨w₄, ⟨text', usedOcr'⟩, hread, h⟩ := Prog.run_bind_eq_ok h
  obtain ⟨rfl, rfl, rfl, rfl⟩ : w₄ = w₁ ∧ hashes = existing ∧ text' = text ∧ usedOcr' = usedOcr := by
    have hresult := Prod.mk.inj h
    simpa using hresult
  unfold ingestRecorded storeText
  rw [Prog.run_bind_of_ok (congrArg Prod.snd hdata), hdata]
  dsimp only
  rw [Prog.run_bind_of_ok (congrArg Prod.snd hhashes), hhashes]
  dsimp only
  rw [Prog.run_bind, run_orMarkError_runIngestion hread, Prog.run_bind]

end FleetWorkflow.Rag
