import FleetWorkflow.Api.Erasure
import FleetWorkflow.Rag.Dedup
import FleetWorkflow.Rag.Keeping

/-!
# The subject of an upload

A history of uploads, with ingestions between them, and the erasure of a subject after it. An upload
whose digest has a row is answered with that row and whatever subject the row was filed under. As long
as that is the subject of the upload, every answer stays linked to its subject; otherwise the erasure of
one subject leaves what it uploaded, or takes what another one did.
-/

namespace FleetWorkflow.Api

open Python Async Store Flow

/-! ## Keys -/

/-- A number is written without a slash. -/
theorem slash_notMem_repr (n : ℕ) : '/' ∉ (Nat.repr n).toList := by
  intro h
  rw [Nat.toList_repr] at h
  have hdigit := Nat.isDigit_of_mem_toDigits (by decide) (by decide) h
  simp at hdigit

/-- A text is determined up to its first slash. -/
theorem eq_of_append_slash {start start' rest rest' : List Char} (h : '/' ∉ start) (h' : '/' ∉ start')
    (heq : start ++ '/' :: rest = start' ++ '/' :: rest') : start = start' ∧ rest = rest' := by
  induction start generalizing start' with
  | nil =>
    cases start' with
    | nil => simpa using heq
    | cons c others =>
      simp only [List.nil_append, List.cons_append, List.cons.injEq] at heq
      exact absurd List.mem_cons_self (heq.1 ▸ h')
  | cons c others ih =>
    cases start' with
    | nil =>
      simp only [List.nil_append, List.cons_append, List.cons.injEq] at heq
      exact absurd List.mem_cons_self (heq.1 ▸ h)
    | cons c' others' =>
      simp only [List.cons_append, List.cons.injEq] at heq
      obtain ⟨rfl, hrest⟩ := ih (List.not_mem_of_not_mem_cons h) (List.not_mem_of_not_mem_cons h') heq.2
      exact ⟨by rw [heq.1], hrest⟩

/-- The key of an object tells its collection and its digest. -/
theorem objectKey_inj {py : Builtins} {collectionId collectionId' : ℕ} {digest digest' filename filename' : String}
    (hlength : digest.toList.length = 64) (hlength' : digest'.toList.length = 64)
    (h : objectKey py collectionId digest filename = objectKey py collectionId' digest' filename') :
    collectionId = collectionId' ∧ digest = digest' := by
  have hchars := congrArg String.toList h
  have hslash : "/".toList = ['/'] := rfl
  simp only [objectKey, String.toList_append, List.append_assoc, hslash, List.singleton_append] at hchars
  obtain ⟨hcollection, hrest⟩ := eq_of_append_slash (slash_notMem_repr _) (slash_notMem_repr _) hchars
  obtain ⟨hdigest, -⟩ := List.append_inj hrest (hlength.trans hlength'.symm)
  rw [Nat.toList_repr, Nat.toList_repr] at hcollection
  constructor
  · simpa using congrArg (fun digits => Nat.ofDigitChars 10 digits 0) hcollection
  · exact String.ext hdigest

/-! ## One call -/

/-- The documents are as they were. -/
structure SameArchive (w w' : UploadWorld) : Prop where
  archive : w'.archive = w.archive
  next : w'.nextDocument = w.nextDocument

theorem SameArchive.refl (w : UploadWorld) : SameArchive w w := ⟨rfl, rfl⟩

theorem SameArchive.trans {w w' w'' : UploadWorld} (h : SameArchive w w') (h' : SameArchive w' w'') :
    SameArchive w w'' :=
  ⟨h'.archive.trans h.archive, h'.next.trans h.next⟩

/-- The calls that neither put an object nor insert a row. -/
def DocumentCall.Quiet : DocumentCall → Prop
  | putObject _ _ | insertDocument _ _ _ _ => False
  | _ => True

section Calls

variable {surroundings : UploadSurroundings} {w w' : UploadWorld}

/-- A call leaves the documents as they are and fails, or it is carried out, and its reply may be lost. -/
theorem answer_inv {c : DocumentCall} {reply : Except Exc c.Reply} (h : w.answer surroundings c = (w', reply)) :
    (SameArchive w w' ∧ ∃ error, reply = .error error) ∨
      ∃ w₁ reply', w.carryOut (surroundings.clock w.tick) c = .ok (w₁, reply') ∧ SameArchive w₁ w' ∧
        (reply = .ok reply' ∨ ∃ error, reply = .error error) := by
  unfold UploadWorld.answer UploadWorld.respond at h
  cases hout : w.carryOut (surroundings.clock w.tick) c with
  | error error =>
    left
    cases hgiven : surroundings.given w.tick c <;>
    · simp only [hout, hgiven] at h
      cases h
      exact ⟨⟨rfl, rfl⟩, _, rfl⟩
  | ok out =>
    cases hgiven : surroundings.given w.tick c with
    | refused error =>
      simp only [hgiven] at h
      cases h
      exact .inl ⟨⟨rfl, rfl⟩, error, rfl⟩
    | lost reply' error =>
      simp only [hout, hgiven] at h
      cases h
      exact .inr ⟨out.1, out.2, rfl, ⟨rfl, rfl⟩, .inr ⟨error, rfl⟩⟩
    | answered reply' =>
      simp only [hout, hgiven] at h
      cases h
      exact .inr ⟨out.1, out.2, rfl, ⟨rfl, rfl⟩, .inl rfl⟩

/-- A quiet call changes no document. -/
theorem answer_quiet {c : DocumentCall} (hc : c.Quiet) {reply : Except Exc c.Reply}
    (h : w.answer surroundings c = (w', reply)) : SameArchive w w' := by
  rcases answer_inv h with ⟨hsame, -⟩ | ⟨w₁, reply', hout, hsame, -⟩
  · exact hsame
  · refine SameArchive.trans ?_ hsame
    cases c with
    | putObject key data => exact hc.elim
    | insertDocument collectionId uri sha256 subjectHash => exact hc.elim
    | findDocument collectionId sha256 =>
      simp only [UploadWorld.carryOut] at hout
      split at hout <;> cases hout <;> exact .refl w
    | _ =>
      cases hout
      exact ⟨rfl, rfl⟩

/-- What is found for a digest. -/
theorem answer_findDocument {collectionId : ℕ} {sha256 : String} {found : Option DocumentOut}
    (h : w.answer surroundings (.findDocument collectionId sha256) = (w', .ok found)) :
    (found = none ∧ w.archive.rowsOf collectionId sha256 = []) ∨
      ∃ row, found = some (w.archive.out row) ∧ w.archive.rowsOf collectionId sha256 = [row] := by
  rcases answer_inv h with ⟨-, error, herror⟩ | ⟨w₁, reply', hout, -, hreply | ⟨error, herror⟩⟩
  · cases herror
  · cases hreply
    simp only [UploadWorld.carryOut] at hout
    split at hout
    · rename_i hrows
      cases hout
      exact .inl ⟨rfl, hrows⟩
    · rename_i row hrows
      cases hout
      exact .inr ⟨row, rfl, hrows⟩
    · cases hout
  · cases herror

/-- Putting an object changes nothing and fails, or the object is there. -/
theorem answer_putObject {key : String} {data : Bytes} {reply : Except Exc Unit}
    (h : w.answer surroundings (.putObject key data) = (w', reply)) :
    (SameArchive w w' ∧ ∃ error, reply = .error error) ∨
      (w'.archive = w.archive.putObject key data ∧ w'.nextDocument = w.nextDocument) := by
  rcases answer_inv h with hsame | ⟨w₁, reply', hout, hsame, -⟩
  · exact .inl hsame
  · simp only [UploadWorld.carryOut] at hout
    split at hout <;> cases hout
    exact .inr ⟨hsame.archive, hsame.next⟩

/-- Inserting a row changes nothing and fails, or the row is there under the next id. -/
theorem answer_insertDocument {collectionId : ℕ} {uri sha256 : String} {subjectHash : Option String}
    {reply : Except Exc DocumentOut}
    (h : w.answer surroundings (.insertDocument collectionId uri sha256 subjectHash) = (w', reply)) :
    (SameArchive w w' ∧ ∃ error, reply = .error error) ∨
      ∃ row : Rag.DocumentRow, row.location = ⟨w.nextDocument, collectionId, uri⟩ ∧
        w'.archive = w.archive.insert row ⟨sha256, subjectHash⟩ ∧ w'.nextDocument = w.nextDocument + 1 ∧
        (reply = .ok (w'.archive.out row) ∨ ∃ error, reply = .error error) := by
  rcases answer_inv h with hsame | ⟨w₁, reply', hout, hsame, hreply⟩
  · exact .inl hsame
  · simp only [UploadWorld.carryOut] at hout
    split at hout <;> cases hout
    right
    refine ⟨_, rfl, hsame.archive, hsame.next, ?_⟩
    rw [hsame.archive]
    exact hreply

end Calls

/-! ## One upload -/

/-- The key of the object of an upload. -/
def Upload.key (py : Builtins) (upload : Upload) : String :=
  objectKey py upload.collectionId upload.digest upload.name

/-- What an upload can do to the documents: nothing, finding the row that is answered or failing; leaving
an object without a row; or filing a document under the next id. -/
inductive Course (py : Builtins) (upload : Upload) (w : UploadWorld) : UploadWorld → Except Exc DocumentOut → Prop where
  | refused {w' : UploadWorld} {error : Exc} (same : SameArchive w w') : Course py upload w w' (.error error)
  | existing {w' : UploadWorld} (row : Rag.DocumentRow)
      (found : w.archive.rowsOf upload.collectionId upload.digest = [row]) (same : SameArchive w w') :
      Course py upload w w' (.ok (w.archive.out row))
  | abandoned {w' : UploadWorld} {error : Exc} (unknown : w.archive.rowsOf upload.collectionId upload.digest = [])
      (archive : w'.archive = w.archive.putObject (upload.key py) upload.data)
      (next : w'.nextDocument = w.nextDocument) : Course py upload w w' (.error error)
  | filed {w' : UploadWorld} {result : Except Exc DocumentOut} (row : Rag.DocumentRow)
      (unknown : w.archive.rowsOf upload.collectionId upload.digest = [])
      (location : row.location = ⟨w.nextDocument, upload.collectionId, upload.key py⟩)
      (archive : w'.archive =
        (w.archive.putObject (upload.key py) upload.data).insert row ⟨upload.digest, upload.subjectHash⟩)
      (next : w'.nextDocument = w.nextDocument + 1)
      (returned : ∀ out, result = .ok out → out = w'.archive.out row) : Course py upload w w' result

/-- The calls of an upload are answered as the surroundings say. -/
def uploadProtocol (surroundings : UploadSurroundings) :
    Protocol DocumentCall DocumentCall.Reply Exc UploadWorld where
  allowed _ _ := True
  answers w c reply w' := w.answer surroundings c = (w', reply)

section Uploads

variable {surroundings : UploadSurroundings} {py : Builtins} {upload : Upload} {w w' : UploadWorld}

/-- A coroutine of quiet calls changes no document. -/
theorem ensures_quiet {α : Type} {p : Uploading α} (hp : p.Only DocumentCall.Quiet) (hsame : SameArchive w w') :
    (uploadProtocol surroundings).Ensures (fun _ w'' => SameArchive w w'') p w' := by
  apply Protocol.ensures_only hp _ hsame
  intro g c hg hc
  exact ⟨trivial, fun reply g' hreply => hg.trans (answer_quiet hc hreply)⟩

theorem only_ensureBucket : ensureBucket.Only DocumentCall.Quiet := by
  apply (Prog.only_call trivial).bind
  intro found
  cases found with
  | true => trivial
  | false => exact Prog.only_call trivial

theorem only_enqueueIngestion (job : IngestJob) : (enqueueIngestion job).Only DocumentCall.Quiet := by
  apply (Prog.only_call trivial).bind
  intro pool
  exact (Prog.only_call trivial).withCleanup (Prog.only_call trivial)

/-- Storing a new file leaves the documents as they are, or an object without a row, or files it. -/
theorem ensures_storeUpload (collection : Collection)
    (hunknown : w.archive.rowsOf upload.collectionId upload.digest = []) (hsame : SameArchive w w') :
    (uploadProtocol surroundings).Ensures (fun result w'' => Course py upload w w'' result)
      (storeUpload py upload collection) w' := by
  apply Protocol.ensures_bind.mpr
  apply (ensures_quiet only_ensureBucket hsame).mono
  rintro (error | ⟨⟨⟩⟩) w₁ hsame₁
  · exact .refused hsame₁
  apply Protocol.ensures_call_bind trivial
  rintro reply w₂ hput
  rcases answer_putObject hput with ⟨hsame₂, error, rfl⟩ | ⟨harchive₂, hnext₂⟩
  · exact .refused (hsame₁.trans hsame₂)
  rw [hsame₁.archive] at harchive₂
  rw [hsame₁.next] at hnext₂
  cases reply with
  | error error => exact .abandoned hunknown harchive₂ hnext₂
  | ok put =>
  apply Protocol.ensures_call_bind trivial
  rintro reply w₃ hinsert
  rcases answer_insertDocument hinsert with ⟨hsame₃, error, rfl⟩ | ⟨row, hlocation, harchive₃, hnext₃, hreply⟩
  · exact .abandoned hunknown (hsame₃.archive.trans harchive₂) (hsame₃.next.trans hnext₂)
  rw [hnext₂] at hlocation hnext₃
  rw [harchive₂] at harchive₃
  rcases hreply with rfl | ⟨error, rfl⟩
  · apply Protocol.ensures_bind.mpr
    apply (ensures_quiet (only_enqueueIngestion _) (.refl w₃)).mono
    rintro (error | ⟨⟨⟩⟩) w₄ hsame₄
    · exact .filed row hunknown hlocation (hsame₄.archive.trans harchive₃) (hsame₄.next.trans hnext₃) (by simp)
    · apply Course.filed row hunknown hlocation (hsame₄.archive.trans harchive₃) (hsame₄.next.trans hnext₃)
      intro out hout
      cases hout
      rw [hsame₄.archive]
  · exact .filed row hunknown hlocation harchive₃ hnext₃ (by simp)

/-- An upload follows one of the courses. -/
theorem ensures_uploadDocument (w : UploadWorld) :
    (uploadProtocol surroundings).Ensures (fun result w' => Course py upload w w' result)
      (uploadDocument py upload) w := by
  have hlookup : (DocumentCall.getCollection upload.collectionId).Quiet := trivial
  have hsearch : (DocumentCall.findDocument upload.collectionId upload.digest).Quiet := trivial
  apply Protocol.ensures_call_bind trivial
  rintro (error | collection) w₁ hcollection
  · exact .refused (answer_quiet hlookup hcollection)
  have hsame₁ := answer_quiet hlookup hcollection
  cases collection with
  | none => exact .refused hsame₁
  | some collection =>
    apply Protocol.ensures_call_bind trivial
    rintro (error | found) w₂ hfound
    · exact .refused (hsame₁.trans (answer_quiet hsearch hfound))
    have hsame₂ := hsame₁.trans (answer_quiet hsearch hfound)
    have hrows := answer_findDocument hfound
    rw [hsame₁.archive] at hrows
    rcases hrows with ⟨rfl, hunknown⟩ | ⟨row, rfl, hknown⟩
    · exact ensures_storeUpload collection hunknown hsame₂
    · exact .existing row hknown hsame₂

/-- What an upload can do, whatever happens to its calls. -/
theorem course_uploadDocument (surroundings : UploadSurroundings) (py : Builtins) (upload : Upload) (w : UploadWorld) :
    Course py upload w ((uploadDocument py upload).run (UploadWorld.answer surroundings) w).1
      ((uploadDocument py upload).run (UploadWorld.answer surroundings) w).2 := by
  have hensures : (uploadProtocol surroundings).Ensures (fun result w' => Course py upload w w' result)
      (uploadDocument py upload) w := ensures_uploadDocument w
  exact (hensures.run id (fun _ => True) (fun w c _ _ => ⟨rfl, trivial⟩) trivial).1

end Uploads

/-! ## The documents -/

/-- Where the documents are. -/
def Archive.locations (archive : Archive) : List Rag.Location := archive.stores.locations

/-- Every document has an id that was given out, and an object under a key of its own digest. -/
structure Sound (py : Builtins) (w : UploadWorld) : Prop where
  fresh : ∀ location ∈ w.archive.locations, location.documentId < w.nextDocument
  keyed : ∀ location ∈ w.archive.locations, ∃ filename,
    location.uri = objectKey py location.collectionId (w.archive.filing location.documentId).sha256 filename
  digest : ∀ location ∈ w.archive.locations, (w.archive.filing location.documentId).sha256.toList.length = 64
  unique : ∀ location ∈ w.archive.locations, ∀ other ∈ w.archive.locations,
    location.collectionId = other.collectionId →
      (w.archive.filing location.documentId).sha256 = (w.archive.filing other.documentId).sha256 → location = other

/-- Where the document of an answer is. -/
def DocumentOut.location (out : DocumentOut) : Rag.Location := ⟨out.id, out.collectionId, out.uri⟩

/-- The answer to an upload names a document with its content, filed under its subject if it has one. -/
structure Linked (archive : Archive) (upload : Upload) (out : DocumentOut) : Prop where
  present : out.location ∈ archive.locations
  object : archive.stores.objects out.uri = some upload.data
  subject : upload.subjectHash = none ∨ (archive.filing out.id).subjectHash = upload.subjectHash

/-- The document of a subject's upload is filed under the subject. -/
theorem Linked.filed {archive : Archive} {upload : Upload} {out : DocumentOut} (h : Linked archive upload out)
    {hash : String} (hsubject : upload.subjectHash = some hash) :
    (archive.filing out.id).subjectHash = some hash := by
  rcases h.subject with hnone | hsame
  · rw [hnone] at hsubject
    cases hsubject
  · rw [hsame, hsubject]

section Documents

variable {py : Builtins} {w w' : UploadWorld}

/-- Where the rows of a digest are. -/
theorem mem_rowsOf {archive : Archive} {collectionId : ℕ} {sha256 : String} {row : Rag.DocumentRow} :
    row ∈ archive.rowsOf collectionId sha256 ↔ row ∈ archive.stores.documents.rows ∧
      row.collectionId = collectionId ∧ (archive.filing row.id).sha256 = sha256 := by
  simp [Archive.rowsOf]

/-- A place is that of a row. -/
theorem mem_locations {archive : Archive} {location : Rag.Location} :
    location ∈ archive.locations ↔ ∃ row ∈ archive.stores.documents.rows, row.location = location := by
  simp [Archive.locations, Rag.Stores.locations]

/-- The places after a row with a new id is inserted. -/
theorem mem_locations_insert {archive : Archive} {row : Rag.DocumentRow} {filing : Filing}
    (hnew : ∀ location ∈ archive.locations, location.documentId ≠ row.id) {location : Rag.Location} :
    location ∈ (archive.insert row filing).locations ↔ location ∈ archive.locations ∨ location = row.location := by
  have hfree : ∀ earlier ∈ archive.stores.documents.rows, earlier.id ≠ row.id := fun earlier hearlier =>
    hnew earlier.location (mem_locations.mpr ⟨earlier, hearlier, rfl⟩)
  rw [mem_locations, mem_locations]
  simp only [Archive.insert, KeyedRows.mem_addIfNew]
  constructor
  · rintro ⟨other, hother | ⟨rfl, -⟩, rfl⟩
    · exact .inl ⟨other, hother, rfl⟩
    · exact .inr rfl
  · rintro (⟨other, hother, rfl⟩ | rfl)
    · exact ⟨other, .inl hother, rfl⟩
    · exact ⟨row, .inr ⟨rfl, hfree⟩, rfl⟩

/-- The object of a new file is under a key of no other document. -/
theorem key_notMem (hsound : Sound py w) {upload : Upload}
    (hunknown : w.archive.rowsOf upload.collectionId upload.digest = []) :
    ∀ location ∈ w.archive.locations, location.uri ≠ upload.key py := by
  intro location hlocation hkey
  obtain ⟨filename, huri⟩ := hsound.keyed location hlocation
  rw [huri] at hkey
  obtain ⟨hcollection, hdigest⟩ :=
    objectKey_inj (hsound.digest location hlocation) (length_sha256 upload.data) hkey
  obtain ⟨row, hrow, rfl⟩ := mem_locations.mp hlocation
  have hmem : row ∈ w.archive.rowsOf upload.collectionId upload.digest := mem_rowsOf.mpr ⟨hrow, hcollection, hdigest⟩
  rw [hunknown] at hmem
  exact List.not_mem_nil hmem

/-- An upload that files nothing keeps the documents sound. -/
theorem Sound.of_same (hsound : Sound py w) (hlocations : w'.archive.locations = w.archive.locations)
    (hfiling : w'.archive.filing = w.archive.filing) (hnext : w'.nextDocument = w.nextDocument) : Sound py w' := by
  obtain ⟨hfresh, hkeyed, hdigest, hunique⟩ := hsound
  rw [← hlocations, ← hnext] at hfresh
  rw [← hlocations, ← hfiling] at hkeyed hdigest hunique
  exact ⟨hfresh, hkeyed, hdigest, hunique⟩

/-- Every course keeps the documents sound. -/
theorem Sound.course (hsound : Sound py w) {upload : Upload} {result : Except Exc DocumentOut}
    (hcourse : Course py upload w w' result) : Sound py w' := by
  cases hcourse with
  | refused same => exact hsound.of_same (by rw [same.archive]) (by rw [same.archive]) same.next
  | existing row found same => exact hsound.of_same (by rw [same.archive]) (by rw [same.archive]) same.next
  | abandoned unknown archive next => exact hsound.of_same (by rw [archive]; rfl) (by rw [archive]; rfl) next
  | filed row unknown location archive next returned =>
    have hid : row.id = w.nextDocument := congrArg Rag.Location.documentId location
    have hnew : ∀ other ∈ (w.archive.putObject (upload.key py) upload.data).locations, other.documentId ≠ row.id := by
      intro other hother
      have hless := hsound.fresh other hother
      omega
    have hplaces : ∀ other, other ∈ w'.archive.locations ↔ other ∈ w.archive.locations ∨ other = row.location := by
      intro other
      rw [archive]
      exact mem_locations_insert hnew
    have hold : ∀ other ∈ w.archive.locations,
        w'.archive.filing other.documentId = w.archive.filing other.documentId := by
      intro other hother
      rw [archive]
      exact Function.update_of_ne (hnew other hother) _ _
    have hfiled : w'.archive.filing row.location.documentId = ⟨upload.digest, upload.subjectHash⟩ := by
      rw [archive]
      exact Function.update_self _ _ _
    have hstranger : ∀ other ∈ w.archive.locations, other.collectionId = row.location.collectionId →
        (w.archive.filing other.documentId).sha256 ≠ upload.digest := by
      intro other hother hcollection hdigest
      rw [location] at hcollection
      obtain ⟨known, hknown, rfl⟩ := mem_locations.mp hother
      have hmem : known ∈ w.archive.rowsOf upload.collectionId upload.digest :=
        mem_rowsOf.mpr ⟨hknown, hcollection, hdigest⟩
      rw [unknown] at hmem
      exact List.not_mem_nil hmem
    refine ⟨?_, ?_, ?_, ?_⟩
    · intro other hother
      rw [next]
      rcases (hplaces other).mp hother with hother | rfl
      · have hless := hsound.fresh other hother
        omega
      · rw [location]
        exact Nat.lt_succ_self _
    · intro other hother
      rcases (hplaces other).mp hother with hother | rfl
      · rw [hold other hother]
        exact hsound.keyed other hother
      · rw [hfiled, location]
        exact ⟨upload.name, rfl⟩
    · intro other hother
      rcases (hplaces other).mp hother with hother | rfl
      · rw [hold other hother]
        exact hsound.digest other hother
      · rw [hfiled]
        exact length_sha256 upload.data
    · intro first hfirst second hsecond hcollection hdigest
      rcases (hplaces first).mp hfirst with hfirst | rfl
      · rcases (hplaces second).mp hsecond with hsecond | rfl
        · rw [hold first hfirst, hold second hsecond] at hdigest
          exact hsound.unique first hfirst second hsecond hcollection hdigest
        · rw [hold first hfirst, hfiled] at hdigest
          exact absurd hdigest (hstranger first hfirst hcollection)
      · rcases (hplaces second).mp hsecond with hsecond | rfl
        · rw [hold second hsecond, hfiled] at hdigest
          exact absurd hdigest.symm (hstranger second hsecond hcollection.symm)
        · rfl

/-- Every course keeps what is linked. -/
theorem Linked.course (hsound : Sound py w) {upload upload' : Upload} {result : Except Exc DocumentOut}
    {out : DocumentOut} (hlinked : Linked w.archive upload' out) (hcourse : Course py upload w w' result) :
    Linked w'.archive upload' out := by
  have hput : w.archive.rowsOf upload.collectionId upload.digest = [] →
      (w.archive.putObject (upload.key py) upload.data).stores.objects out.uri = some upload'.data := by
    intro hunknown
    have hother : out.uri ≠ upload.key py := key_notMem hsound hunknown out.location hlinked.present
    exact (Function.update_of_ne hother _ _).trans hlinked.object
  cases hcourse with
  | refused same =>
    rw [same.archive]
    exact hlinked
  | existing row found same =>
    rw [same.archive]
    exact hlinked
  | abandoned unknown archive next =>
    rw [archive]
    exact ⟨hlinked.present, hput unknown, hlinked.subject⟩
  | filed row unknown location archive next returned =>
    have hid : row.id = w.nextDocument := congrArg Rag.Location.documentId location
    have hless : out.id < w.nextDocument := hsound.fresh out.location hlinked.present
    have hnew : ∀ other ∈ (w.archive.putObject (upload.key py) upload.data).locations, other.documentId ≠ row.id := by
      intro other hother
      have hbelow := hsound.fresh other hother
      omega
    have hfiling : w'.archive.filing out.id = w.archive.filing out.id := by
      rw [archive]
      exact Function.update_of_ne (by omega) _ _
    refine ⟨?_, ?_, by rw [hfiling]; exact hlinked.subject⟩
    · rw [archive, mem_locations_insert hnew]
      exact .inl hlinked.present
    · rw [archive]
      exact hput unknown

/-- The upload would be answered with a row of its own content and its own subject, or with a new one. -/
def Agrees (w : UploadWorld) (upload : Upload) : Prop :=
  ∀ row ∈ w.archive.rowsOf upload.collectionId upload.digest,
    w.archive.stores.objects row.uri = some upload.data ∧
      (upload.subjectHash = none ∨ (w.archive.filing row.id).subjectHash = upload.subjectHash)

/-- An upload that agrees is linked when it is answered. -/
theorem Course.linked {upload : Upload} {out : DocumentOut} (hsound : Sound py w) (hagrees : Agrees w upload)
    (hcourse : Course py upload w w' (.ok out)) : Linked w'.archive upload out := by
  cases hcourse with
  | existing row found same =>
    have hmem : row ∈ w.archive.rowsOf upload.collectionId upload.digest := by
      rw [found]
      exact List.mem_singleton_self row
    obtain ⟨hobject, hsubject⟩ := hagrees row hmem
    rw [same.archive]
    exact ⟨mem_locations.mpr ⟨row, (mem_rowsOf.mp hmem).1, rfl⟩, hobject, hsubject⟩
  | filed row unknown location archive next returned =>
    obtain rfl := returned out rfl
    have hid : row.id = w.nextDocument := congrArg Rag.Location.documentId location
    have huri : row.uri = upload.key py := congrArg Rag.Location.uri location
    have hnew : ∀ other ∈ (w.archive.putObject (upload.key py) upload.data).locations, other.documentId ≠ row.id := by
      intro other hother
      have hless := hsound.fresh other hother
      omega
    have hfiled : w'.archive.filing row.id = ⟨upload.digest, upload.subjectHash⟩ := by
      rw [archive]
      exact Function.update_self _ _ _
    refine ⟨?_, ?_, .inr (congrArg Filing.subjectHash hfiled)⟩
    · rw [archive, mem_locations_insert hnew]
      exact .inr rfl
    · rw [archive]
      simp only [Archive.out, huri]
      exact Function.update_self _ _ _

end Documents

/-! ## A history -/

/-- What happens on the platform: uploads, and ingestions of documents. -/
inductive UploadStep where
  | upload (upload : Upload)
  | ingest (job : Rag.Upload)

/-- A platform, and the uploads so far that were answered with a document. -/
structure History where
  world : UploadWorld
  answered : List (Upload × DocumentOut)

/-- What surrounds a history: the calls of uploads and of ingestions, and the libraries. -/
structure UploadSetting where
  py : Builtins
  libraries : Rag.Libraries
  uploads : UploadSurroundings
  services : Rag.Surroundings

section Histories

variable (setting : UploadSetting)

/-- Run an upload. -/
def History.upload (history : History) (upload : Upload) : History :=
  let ran := (uploadDocument setting.py upload).run (UploadWorld.answer setting.uploads) history.world
  match ran.2 with
  | .ok out => ⟨ran.1, history.answered ++ [(upload, out)]⟩
  | .error _ => ⟨ran.1, history.answered⟩

/-- Run an ingestion. -/
def History.ingest (history : History) (job : Rag.Upload) : History :=
  let ran := (Rag.ingestDocument setting.libraries job).run (Rag.World.answer setting.services)
    ⟨history.world.tick, history.world.archive.stores⟩
  ⟨{ history.world with archive := ⟨ran.1.stores, history.world.archive.filing⟩, tick := ran.1.tick },
    history.answered⟩

/-- Take one step. -/
def History.step (history : History) : UploadStep → History
  | .upload upload => history.upload setting upload
  | .ingest job => history.ingest setting job

/-- Take steps one after another. -/
def History.steps (history : History) (steps : List UploadStep) : History := steps.foldl (History.step setting) history

/-- Every upload finds no row of its digest, or one of its own content and its own subject. -/
def AllAgree : List UploadStep → History → Prop
  | [], _ => True
  | step :: rest, history =>
    (∀ upload, step = .upload upload → Agrees history.world upload) ∧ AllAgree rest (history.step setting step)

/-- The documents are sound, and every answer is linked. -/
structure Linkage (py : Builtins) (history : History) : Prop where
  sound : Sound py history.world
  linked : ∀ success ∈ history.answered, Linked history.world.archive success.1 success.2

variable {setting}

/-- An upload that agrees keeps the linkage. -/
theorem Linkage.upload {history : History} (h : Linkage setting.py history) {upload : Upload}
    (hagrees : Agrees history.world upload) : Linkage setting.py (history.upload setting upload) := by
  have hcourse := course_uploadDocument setting.uploads setting.py upload history.world
  unfold History.upload
  generalize (uploadDocument setting.py upload).run (UploadWorld.answer setting.uploads) history.world = ran at hcourse ⊢
  obtain ⟨w', result⟩ := ran
  have hkept : ∀ success ∈ history.answered, Linked w'.archive success.1 success.2 := fun success hsuccess =>
    (h.linked success hsuccess).course h.sound hcourse
  cases result with
  | error error => exact ⟨h.sound.course hcourse, hkept⟩
  | ok out =>
    refine ⟨h.sound.course hcourse, ?_⟩
    simp only [List.mem_append, List.mem_singleton]
    rintro success (hsuccess | rfl)
    · exact hkept success hsuccess
    · exact hcourse.linked h.sound hagrees

/-- An ingestion keeps the linkage. -/
theorem Linkage.ingest {history : History} (h : Linkage setting.py history) (job : Rag.Upload) :
    Linkage setting.py (history.ingest setting job) := by
  have hsame := Rag.samePlaces_run (Rag.keeps_ingestDocument setting.libraries job) setting.services
    ⟨history.world.tick, history.world.archive.stores⟩
  refine ⟨h.sound.of_same hsame.locations rfl rfl, fun success hsuccess => ?_⟩
  have hlinked := h.linked success hsuccess
  refine ⟨?_, ?_, hlinked.subject⟩
  · have hplaces : (history.ingest setting job).world.archive.locations = history.world.archive.locations :=
      hsame.locations
    rw [hplaces]
    exact hlinked.present
  · have hobjects : (history.ingest setting job).world.archive.stores.objects =
      history.world.archive.stores.objects := hsame.objects
    rw [hobjects]
    exact hlinked.object

/-- Steps whose uploads agree keep the linkage. -/
theorem Linkage.steps {history : History} (h : Linkage setting.py history) (steps : List UploadStep)
    (hagree : AllAgree setting steps history) : Linkage setting.py (history.steps setting steps) := by
  induction steps generalizing history with
  | nil => exact h
  | cons step rest ih =>
    apply ih _ hagree.2
    cases step with
    | upload upload => exact h.upload (hagree.1 upload rfl)
    | ingest job => exact h.ingest job

end Histories

/-! ## The erasure of a subject -/

section Erasures

variable {py : Builtins} {answers : Rag.Answers}

/-- What a deletion that returns does to the objects, when removals are not refused. -/
theorem objects_deleteDocumentFully {w : SubjectWorld} {location : Rag.Location} {value : Unit}
    (hremoves : ∀ key error, answers (.removeObject key) ≠ .refused error)
    (h : (w.deleteDocumentFully answers location).2 = .ok value) :
    (w.deleteDocumentFully answers location).1.archive.stores.objects =
      Function.update w.archive.stores.objects location.uri none := by
  simp only [SubjectWorld.deleteDocumentFully, Rag.run_deleteDocumentFully] at h ⊢
  cases hpoints : w.archive.stores.answer answers
      (.deletePoints (Rag.collectionName location.collectionId) location.documentId) with
  | mk s₁ reply =>
    rw [hpoints] at h
    cases reply with
    | error error => cases h
    | ok deleted =>
      obtain ⟨-, -, hobjects, -⟩ := Rag.deletePoints_spec hpoints
      obtain ⟨-, hobjects', -⟩ := Rag.deleteDocument_spec
        (rfl : Rag.Stores.respond (s₁.answer answers (.removeObject location.uri)).1
          (.deleteDocument location.documentId) (answers (.deleteDocument location.documentId)) = _)
      refine hobjects'.trans ?_
      rw [← hobjects, Rag.Stores.answer]
      cases hgiven : answers (.removeObject location.uri) with
      | refused error => exact absurd hgiven (hremoves _ error)
      | lost reply error => rfl
      | answered reply => rfl

/-- What deletions that return do to the objects. -/
theorem objects_deleteEach (hremoves : ∀ key error, answers (.removeObject key) ≠ .refused error)
    (locations : List Rag.Location) (w : SubjectWorld) {value : Unit}
    (h : ((deleteEach locations).run (SubjectWorld.answer py answers) w).2 = .ok value) (key : String) :
    ((deleteEach locations).run (SubjectWorld.answer py answers) w).1.archive.stores.objects key =
      if key ∈ locations.map Rag.Location.uri then none else w.archive.stores.objects key := by
  induction locations generalizing w with
  | nil => rfl
  | cons location rest ih =>
    rw [run_deleteEach_cons] at h ⊢
    cases hdelete : (w.deleteDocumentFully answers location).2 with
    | error error =>
      rw [hdelete] at h
      cases h
    | ok deleted =>
      rw [hdelete] at h
      refine (ih _ h).trans ?_
      rw [objects_deleteDocumentFully hremoves hdelete, List.map_cons, Function.update_apply]
      by_cases hkey : key = location.uri
      · simp [hkey]
      · simp [hkey]

/-- An erasure that returns deletes each document of its subject. -/
theorem archive_erase {w w' : SubjectWorld} {hash : String} {result : ErasureResult}
    (h : w.erase py answers hash = (w', .ok result)) : ∃ w₁, w₁.archive = w.archive ∧
      (∃ value, ((deleteEach ((w.archive.documentsOf hash).map Rag.DocumentRow.location)).run
        (SubjectWorld.answer py answers) w₁).2 = .ok value) ∧
      w'.archive = ((deleteEach ((w.archive.documentsOf hash).map Rag.DocumentRow.location)).run
        (SubjectWorld.answer py answers) w₁).1.archive := by
  obtain ⟨w₁, deleted, hconversations, h⟩ := Prog.run_bind_eq_ok h
  obtain ⟨w₂, count, hdocuments, h⟩ := Prog.run_bind_eq_ok h
  obtain ⟨w₃, renamed, haudit, h⟩ := Prog.run_bind_eq_ok h
  cases h
  rw [Prog.run_call] at hconversations haudit
  have harchive : w₁.archive = w.archive := by
    simp only [SubjectWorld.answer] at hconversations
    split at hconversations
    · cases hconversations
      rfl
    · cases hconversations
  have hlast : w'.archive = w₂.archive := by
    cases haudit
    rfl
  rw [run_deleteDocuments] at hdocuments
  obtain ⟨hworld, hcount⟩ := Prod.mk.inj hdocuments
  obtain ⟨value, hvalue, -⟩ := map_eq_ok.mp hcount
  rw [harchive] at hworld hvalue
  exact ⟨w₁, harchive, ⟨value, hvalue⟩, by rw [hlast, ← hworld]⟩

/-- What an erasure should do to uploads: those of its subject leave nothing, those of others stay. -/
structure ErasesUploads (hash : String) (answered : List (Upload × DocumentOut)) (archive : Archive) : Prop where
  gone : ∀ success ∈ answered, success.1.subjectHash = some hash →
    Rag.NothingLeft success.2.location archive.stores
  kept : ∀ success ∈ answered, ∀ other, success.1.subjectHash = some other → other ≠ hash →
    Linked archive success.1 success.2

/-- Two documents with one key are one document. -/
theorem Sound.eq_of_uri {w : UploadWorld} (hsound : Sound py w) {location other : Rag.Location}
    (h : location ∈ w.archive.locations) (h' : other ∈ w.archive.locations) (huri : location.uri = other.uri) :
    location = other := by
  obtain ⟨filename, hkey⟩ := hsound.keyed location h
  obtain ⟨filename', hkey'⟩ := hsound.keyed other h'
  rw [hkey, hkey'] at huri
  obtain ⟨hcollection, hdigest⟩ := objectKey_inj (hsound.digest location h) (hsound.digest other h') huri
  exact hsound.unique location h other h' hcollection hdigest

/-- The documents of a subject. -/
theorem mem_documentsOf {archive : Archive} {hash : String} {location : Rag.Location} :
    location ∈ (archive.documentsOf hash).map Rag.DocumentRow.location ↔
      location ∈ archive.locations ∧ (archive.filing location.documentId).subjectHash = some hash := by
  rw [mem_locations]
  simp only [Archive.documentsOf, List.mem_map, List.mem_filter, decide_eq_true_eq]
  constructor
  · rintro ⟨row, ⟨hrow, hhash⟩, rfl⟩
    exact ⟨⟨row, hrow, rfl⟩, hhash⟩
  · rintro ⟨⟨row, hrow, rfl⟩, hhash⟩
    exact ⟨row, ⟨hrow, hhash⟩, rfl⟩

/-- An erasure of linked uploads does what it should. -/
theorem Linkage.erase {history : History} (h : Linkage py history)
    (hremoves : ∀ key error, answers (.removeObject key) ≠ .refused error) {records : Records} {hash : String}
    {w' : SubjectWorld} {result : ErasureResult}
    (herase : SubjectWorld.erase py answers ⟨records, history.world.archive⟩ hash = (w', .ok result)) :
    ErasesUploads hash history.answered w'.archive := by
  obtain ⟨w₁, harchive, ⟨value, hvalue⟩, hfinal⟩ := archive_erase herase
  have hdeleted := (deleteEach_spec py answers _ w₁).2 value hvalue
  have hobjects := objects_deleteEach hremoves _ w₁ hvalue
  rw [← hfinal] at hobjects
  constructor
  · intro success hsuccess hsubject
    have hlinked := h.linked success hsuccess
    have hfiled := hlinked.filed hsubject
    have hmem := mem_documentsOf.mpr ⟨hlinked.present, hfiled⟩
    have hpurged := hdeleted.purged _ hmem
    rw [← hfinal] at hpurged
    refine ⟨hpurged.vectors, ?_, hpurged.row, hpurged.chunks⟩
    rw [hobjects, if_pos]
    exact List.mem_map_of_mem hmem
  · intro success hsuccess other hsubject hother
    have hlinked := h.linked success hsuccess
    have hfiled := hlinked.filed hsubject
    have hstranger : success.2.uri ∉
        ((history.world.archive.documentsOf hash).map Rag.DocumentRow.location).map Rag.Location.uri := by
      intro hmem
      obtain ⟨location, hlocation, huri⟩ := List.mem_map.mp hmem
      obtain ⟨hplace, hhash⟩ := mem_documentsOf.mp hlocation
      obtain rfl := h.sound.eq_of_uri hplace hlinked.present huri
      exact hother (Option.some.inj (hfiled.symm.trans hhash))
    refine ⟨?_, ?_, ?_⟩
    · obtain ⟨row, hrow, hlocation⟩ := mem_locations.mp hlinked.present
      have hstays : ¬ ∃ location ∈ (history.world.archive.documentsOf hash).map Rag.DocumentRow.location,
          location.documentId = row.id := by
        rintro ⟨location, hmem, hid⟩
        have hhash := (mem_documentsOf.mp hmem).2
        have hsame : row.id = success.2.id := congrArg Rag.Location.documentId hlocation
        rw [hid, hsame, hfiled] at hhash
        exact hother (Option.some.inj hhash)
      have hkept := (hdeleted.only.kept row.id hstays).rows row rfl
      rw [← hfinal, harchive] at hkept
      exact mem_locations.mpr ⟨row, hkept.mpr hrow, hlocation⟩
    · rw [hobjects, if_neg hstranger, harchive]
      exact hlinked.object
    · rw [hfinal, hdeleted.filing, harchive]
      exact hlinked.subject

end Erasures

/-- A platform with one collection and no documents. -/
def onePlatform : UploadWorld where
  archive := ⟨⟨.empty, .empty, fun _ => none, fun _ => some ⟨1, fun _ => none⟩, fun _ => none, []⟩,
    fun _ => ⟨"", none⟩⟩
  nextDocument := 0
  collections := Table.empty.insert ⟨0, "cvs", none, "pii", none, "block"⟩ rfl
  bucket := true
  queue := []
  tick := 0

/-- Every call is answered. -/
def calmSetting : UploadSetting where
  py := lowerCase
  libraries := Rag.plainLibraries
  uploads := ⟨fun _ _ => .answered (), fun _ => 0⟩
  services := .calm

/-- Nobody has a conversation. -/
def noRecords : Records where
  conversations := .empty
  messages := .empty
  feedback := .empty
  users := .empty
  auditLog := .empty
  messages_convId _ h := by cases h
  feedback_messageId _ h := by cases h

/-- The same file, uploaded under a subject. -/
def uploadUnder (hash : String) : Upload := ⟨0, [1], some "cv.txt", some hash⟩

/-- A platform without documents is sound. -/
theorem sound_onePlatform : Sound lowerCase onePlatform := by
  have hnone : ∀ location, location ∉ onePlatform.archive.locations := fun _ => List.not_mem_nil
  exact ⟨fun location h => absurd h (hnone location), fun location h => absurd h (hnone location),
    fun location h => absurd h (hnone location), fun location h => absurd h (hnone location)⟩

/-- A file that has a row is answered with it. -/
theorem run_known {w : UploadWorld} {upload : Upload} {collection : Collection} {row : Rag.DocumentRow}
    (hcollection : w.collections.row upload.collectionId = some collection)
    (hknown : w.archive.rowsOf upload.collectionId upload.digest = [row]) :
    (uploadDocument lowerCase upload).run (UploadWorld.answer calmSetting.uploads) w =
      ({ w with tick := w.tick + 1 + 1 }, .ok (w.archive.out row)) := by
  have hfirst : w.answer calmSetting.uploads (.getCollection upload.collectionId) =
      ({ w with tick := w.tick + 1 }, .ok (w.collections.row upload.collectionId)) := rfl
  have hsecond : UploadWorld.answer calmSetting.uploads { w with tick := w.tick + 1 }
      (.findDocument upload.collectionId upload.digest) =
        ({ w with tick := w.tick + 1 + 1 }, .ok (some (w.archive.out row))) := by
    simp [UploadWorld.answer, UploadWorld.respond, UploadWorld.carryOut, calmSetting, hknown]
  rw [uploadDocument, Prog.run_bind, Prog.run_call, hfirst, hcollection]
  simp only
  rw [Prog.run_bind, Prog.run_call, hsecond]
  rfl

/-- The file is uploaded under one subject. -/
def oneUpload : History := History.step calmSetting ⟨onePlatform, []⟩ (.upload (uploadUnder "ada"))

/-- The row of the file. -/
def oneRow : Rag.DocumentRow := ⟨0, 0, (uploadUnder "ada").key lowerCase, "queued", "pending", 0⟩

/-- The file is uploaded again, under another subject. -/
def twoUploads : History := History.step calmSetting oneUpload (.upload (uploadUnder "bob"))

/-- The second upload is answered with the row of the first. -/
theorem twoUploads_eq : twoUploads.world.archive = oneUpload.world.archive ∧
    twoUploads.answered = oneUpload.answered ++ [(uploadUnder "bob", oneUpload.world.archive.out oneRow)] := by
  have hdocuments : oneUpload.world.archive.stores.documents.rows = [oneRow] := rfl
  have hdigest : (oneUpload.world.archive.filing oneRow.id).sha256 = (uploadUnder "bob").digest := rfl
  have hknown : oneUpload.world.archive.rowsOf 0 (uploadUnder "bob").digest = [oneRow] := by
    rw [Archive.rowsOf, hdocuments, List.filter_cons_of_pos]
    · rfl
    · rw [hdigest]
      simp [oneRow]
  have hstep : twoUploads = oneUpload.upload calmSetting (uploadUnder "bob") := rfl
  have hcollection : oneUpload.world.collections.row (uploadUnder "bob").collectionId =
      some ⟨0, "cvs", none, "pii", none, "block"⟩ := rfl
  have hpy : calmSetting.py = lowerCase := rfl
  rw [hstep, History.upload, hpy, run_known hcollection hknown]
  exact ⟨rfl, rfl⟩

end FleetWorkflow.Api
