import FleetWorkflow.Rag.Effects
import FleetWorkflow.Rag.Ingestion

/-!
# What an ingestion stores

The vectors go first, and then the rows. Nothing else is changed, whatever fails on the way, until the
document is marked.
-/

namespace FleetWorkflow.Rag

open Python Async Store Flow

attribute [local irreducible] freshChunks

/-! ## The parts of an ingestion -/

/-- The replies of the stores to calls of which a condition holds. -/
def storesProtocol (condition : Stores → (c : Call) → Given (Reply c) → Prop) : Protocol Call Reply Exc Stores where
  allowed _ _ := True
  answers s c reply s' := ∃ given, condition s c given ∧ s.respond c given = (s', reply)

/-- From the embedding up to the rows nothing fails: an embedding that is made gives a vector for each text, the
calls of the vector store return, and the rows are inserted. -/
def Completes (s : Stores) : (c : Call) → Given (Reply c) → Prop
  | .embeddings _ _ texts _, given =>
    (∃ error, given = .refused error) ∨ ∃ vectors, given = .answered vectors ∧ vectors.length = texts.length
  | .collectionExists name, given => ∃ s' reply, s.respond (.collectionExists name) given = (s', .ok reply)
  | .createCollection name size, given => ∃ s' reply, s.respond (.createCollection name size) given = (s', .ok reply)
  | .createPayloadIndex name field, given =>
    ∃ s' reply, s.respond (.createPayloadIndex name field) given = (s', .ok reply)
  | .upsert name points, given => ∃ s' reply, s.respond (.upsert name points) given = (s', .ok reply)
  | .insertChunks documentId _, given =>
    (s.documents.find documentId).isSome ∧ ∀ error, given ≠ .refused error
  | _, _ => True

/-- Each chunk has a point of its document, under its id, with the digest of a chunk of that id. -/
def PointsStored (upload : Upload) (keep : List Kept) (s : Stores) : Prop :=
  ∀ kept ∈ keep, ∃ stored, s.Holds (collectionName upload.collectionId) (pointIdFor kept.1.contentSha256) stored ∧
    stored.2.documentId = upload.documentId ∧
    ∃ other ∈ keep, pointIdFor other.1.contentSha256 = pointIdFor kept.1.contentSha256 ∧
      stored.2.contentSha256 = other.1.contentSha256

/-- What an upsert of the points of some chunks stores. -/
theorem pointsStored_of_upsert {upload : Upload} {keep : List Kept} {vectors : List Vector} {s : Stores}
    (hlength : sameLength keep vectors = .ok ())
    (h : ∀ id ∈ (List.zipWith (pointOf upload) keep vectors).map Point.id,
      ∃ point ∈ List.zipWith (pointOf upload) keep vectors, point.id = id ∧
        s.Holds (collectionName upload.collectionId) id (point.vector, point.payload)) :
    PointsStored upload keep s := by
  intro kept hkept
  rw [points_ids hlength] at h
  obtain ⟨point, hpoint, hid, hholds⟩ := h _ (List.mem_map.mpr ⟨kept, hkept, rfl⟩)
  obtain ⟨other, hother, vector, rfl⟩ := mem_points hpoint
  exact ⟨_, hholds, rfl, other, hother, hid, rfl⟩

section Parts

variable {condition : Stores → (c : Call) → Given (Reply c) → Prop}

/-- A call that returns has not failed. -/
theorem not_error_of_returns {s s' : Stores} {c : Call} {given : Given (Reply c)} {error : Exc}
    (h : ∃ s' reply, s.respond c given = (s', .ok reply)) : s.respond c given ≠ (s', .error error) := by
  obtain ⟨s₁, reply, hreturns⟩ := h
  intro herror
  cases hreturns.symm.trans herror

/-- Making sure of a collection makes these calls. -/
theorem only_ensureCollection (name : String) (size : ℕ) : (ensureCollection name size).Only EnsuresCollection := by
  refine Prog.Only.bind (Prog.only_call trivial) fun found => ?_
  cases found with
  | true => trivial
  | false => exact Prog.Only.bind (Prog.only_call trivial) fun _ => Prog.only_call trivial

/-- Making sure of a collection changes no point. -/
theorem ensures_ensureCollection (name : String) (ids : List String) (other : String) (size : ℕ) (s : Stores) :
    (storesProtocol condition).Ensures (fun _ s' => Beside name ids s s' ∧ s'.embedded = s.embedded)
      (ensureCollection other size) s := by
  refine Protocol.ensures_only (only_ensureCollection other size) ?_ ⟨.refl name ids s, rfl⟩
  rintro s₁ c ⟨hbeside, hembedded⟩ hc
  refine ⟨trivial, ?_⟩
  rintro reply s₂ ⟨given, -, hrespond⟩
  obtain ⟨hbeside₂, hembedded₂⟩ := ensuresCollection_spec hc hrespond
  exact ⟨hbeside.trans hbeside₂, hembedded₂.trans hembedded⟩

/-- Making sure of a collection completes. -/
theorem completes_ensureCollection (hcondition : ∀ s c given, condition s c given → Completes s c given)
    (name : String) (size : ℕ) (s : Stores) :
    (storesProtocol condition).Ensures (fun result _ => result = .ok ()) (ensureCollection name size) s := by
  apply Protocol.ensures_call_bind trivial
  rintro (error | found) s₁ ⟨given, hgiven, hrespond⟩
  · exact absurd hrespond (not_error_of_returns (hcondition _ _ _ hgiven))
  cases found with
  | true => rfl
  | false =>
    apply Protocol.ensures_call_bind trivial
    rintro (error | ⟨⟨⟩⟩) s₂ ⟨given₂, hgiven₂, hrespond₂⟩
    · exact absurd hrespond₂ (not_error_of_returns (hcondition _ _ _ hgiven₂))
    apply Protocol.ensures_call.mpr
    refine ⟨trivial, ?_⟩
    rintro (error | ⟨⟨⟩⟩) s₃ ⟨given₃, hgiven₃, hrespond₃⟩
    · exact absurd hrespond₃ (not_error_of_returns (hcondition _ _ _ hgiven₃))
    · rfl

/-- Storing the vectors of some chunks changes nothing but their points and what is embedded, and when it returns
each of them has its point. -/
theorem ensures_storeVectors (upload : Upload) (keep : List Kept) (s : Stores) :
    (storesProtocol condition).Ensures
      (fun result s' => Beside (collectionName upload.collectionId) (pointIds keep) s s' ∧
        (result = .ok () → PointsStored upload keep s'))
      (storeVectors upload keep) s := by
  apply Protocol.ensures_call_bind trivial
  rintro (error | vectors) s₁ ⟨given, -, hrespond⟩
  · exact ⟨(embeddings_spec hrespond).1, fun h => by cases h⟩
  have hbeside : Beside (collectionName upload.collectionId) (pointIds keep) s s₁ := (embeddings_spec hrespond).1
  apply Protocol.ensures_ofExcept_bind
  · intro error _
    exact ⟨hbeside, fun h => by cases h⟩
  intro size _
  apply Protocol.ensures_bind.mpr
  refine (ensures_ensureCollection (collectionName upload.collectionId) (pointIds keep) _ size s₁).mono ?_
  rintro (error | ⟨⟨⟩⟩) s₂ ⟨hbeside₂, -⟩
  · exact ⟨hbeside.trans hbeside₂, fun h => by cases h⟩
  apply Protocol.ensures_ofExcept_bind
  · intro error _
    exact ⟨hbeside.trans hbeside₂, fun h => by cases h⟩
  rintro ⟨⟩ hlength
  apply Protocol.ensures_call.mpr
  refine ⟨trivial, ?_⟩
  rintro reply s₃ ⟨given₃, -, hrespond₃⟩
  obtain ⟨hbeside₃, -, hpoints⟩ := upsert_spec hrespond₃
  rw [points_ids hlength] at hbeside₃
  exact ⟨hbeside.trans (hbeside₂.trans hbeside₃), fun h => pointsStored_of_upsert hlength (hpoints h)⟩

/-- The digests of some chunks, as they are embedded for a collection. -/
def embeddingsOf (upload : Upload) (keep : List Kept) : List (String × String) :=
  keep.map fun kept => (collectionName upload.collectionId, kept.1.contentSha256)

/-- When nothing fails after the embedding, storing the vectors of some chunks fails before it embeds them, or
embeds them once and returns. -/
theorem completes_storeVectors (hcondition : ∀ s c given, condition s c given → Completes s c given)
    (upload : Upload) {keep : List Kept} (hkeep : keep ≠ []) (s : Stores) :
    (storesProtocol condition).Ensures
      (fun result s' => (s'.embedded = s.embedded ∧ result ≠ .ok ()) ∨
        s'.embedded = s.embedded ++ embeddingsOf upload keep ∧ result = .ok ())
      (storeVectors upload keep) s := by
  apply Protocol.ensures_call_bind trivial
  rintro reply s₁ ⟨given, hgiven, hrespond⟩
  rcases hcondition _ _ _ hgiven with ⟨error, rfl⟩ | ⟨vectors, rfl, hlength⟩
  · cases hrespond
    exact .inl ⟨rfl, fun h => by cases h⟩
  cases hrespond
  have hlength : vectors.length = keep.length := by simpa using hlength
  apply Protocol.ensures_ofExcept_bind
  · intro error herror
    cases vectors with
    | nil => exact absurd (List.length_eq_zero_iff.mp hlength.symm) hkeep
    | cons vector rest => cases herror
  intro size _
  apply Protocol.ensures_bind.mpr
  refine ((ensures_ensureCollection "" [] _ size _).and (completes_ensureCollection hcondition _ size _)).mono ?_
  rintro result s₂ ⟨⟨-, hembedded⟩, rfl⟩
  apply Protocol.ensures_ofExcept_bind
  · intro error herror
    simp [sameLength, hlength] at herror
  intro _ _
  apply Protocol.ensures_call.mpr
  refine ⟨trivial, ?_⟩
  rintro (error | ⟨⟨⟩⟩) s₃ ⟨given₃, hgiven₃, hrespond₃⟩
  · exact absurd hrespond₃ (not_error_of_returns (hcondition _ _ _ hgiven₃))
  · refine .inr ⟨?_, rfl⟩
    rw [(upsert_spec hrespond₃).2.1, hembedded]
    simp [embeddingsOf]

variable (libraries : Libraries)

/-- The pipeline changes nothing but the points of the chunks it keeps and what is embedded. When it returns each
kept chunk has its point, and they are the chunks to record. -/
theorem ensures_ingestText (upload : Upload) (existing : List String) (text : String) (usedOcr : Bool) (s : Stores) :
    (storesProtocol condition).Ensures
      (fun result s' => Beside (collectionName upload.collectionId) (pointIds (keptChunks libraries upload existing text))
          s s' ∧
        ∀ outcome, result = .ok outcome →
          (∃ policies, chunkPolicies libraries upload (freshChunks text existing) = .ok policies) ∧
          outcome.persistedChunks = (keptChunks libraries upload existing text).map (persistedOf upload) ∧
          PointsStored upload (keptChunks libraries upload existing text) s')
      (ingestText libraries upload existing text usedOcr) s := by
  apply Protocol.ensures_ofExcept_bind
  · intro error _
    exact ⟨.refl _ _ s, fun outcome h => by cases h⟩
  intro policies hpolicies
  have hkeep : keptChunks libraries upload existing text = policies.filter fun kept => !kept.2.blocked := by
    simp only [keptChunks, hpolicies]
  dsimp only
  rw [← hkeep]
  cases hempty : (keptChunks libraries upload existing text).isEmpty with
  | true =>
    rw [List.isEmpty_iff] at hempty
    refine ⟨.refl _ _ s, ?_⟩
    rintro outcome ⟨⟩
    rw [hempty]
    exact ⟨⟨policies, hpolicies⟩, rfl, fun kept hkept => by cases hkept⟩
  | false =>
    apply Protocol.ensures_bind.mpr
    refine (ensures_storeVectors upload _ s).mono ?_
    rintro (error | ⟨⟨⟩⟩) s₁ ⟨hbeside, hpoints⟩
    · exact ⟨hbeside, fun outcome h => by cases h⟩
    · refine ⟨hbeside, ?_⟩
      rintro outcome ⟨⟩
      exact ⟨⟨policies, hpolicies⟩, rfl, hpoints rfl⟩

/-- When nothing fails after the embedding, the pipeline embeds nothing, or embeds the chunks it keeps and returns
them as the chunks to record. -/
theorem completes_ingestText (hcondition : ∀ s c given, condition s c given → Completes s c given)
    (upload : Upload) (existing : List String) (text : String) (usedOcr : Bool) (s : Stores) :
    (storesProtocol condition).Ensures
      (fun result s' => (s'.embedded = s.embedded ∧
          ∀ outcome, result = .ok outcome → keptChunks libraries upload existing text = []) ∨
        s'.embedded = s.embedded ++ embeddingsOf upload (keptChunks libraries upload existing text) ∧
          ∃ outcome, result = .ok outcome)
      (ingestText libraries upload existing text usedOcr) s := by
  apply Protocol.ensures_ofExcept_bind
  · intro error _
    exact .inl ⟨rfl, fun outcome h => by cases h⟩
  intro policies hpolicies
  have hkeep : keptChunks libraries upload existing text = policies.filter fun kept => !kept.2.blocked := by
    simp only [keptChunks, hpolicies]
  dsimp only
  rw [← hkeep]
  cases hempty : (keptChunks libraries upload existing text).isEmpty with
  | true => exact .inl ⟨rfl, fun _ _ => List.isEmpty_iff.mp hempty⟩
  | false =>
    apply Protocol.ensures_bind.mpr
    refine (completes_storeVectors hcondition upload (List.isEmpty_eq_false_iff.mp hempty) s).mono ?_
    rintro (error | ⟨⟨⟩⟩) s₁ (⟨hembedded, hfailed⟩ | ⟨hembedded, hreturned⟩)
    · exact .inl ⟨hembedded, fun outcome h => by cases h⟩
    · cases hreturned
    · exact absurd rfl hfailed
    · exact .inr ⟨hembedded, _, rfl⟩

/-- What an ingestion that keeps some chunks does to the stores before it marks its document ready. -/
structure TextStored (upload : Upload) (keep : List Kept) (s s' : Stores) : Prop where
  homes : s'.homes = s.homes
  ready : ∀ id ∈ s'.readyIds, id ∈ s.readyIds
  points : ∀ other id stored, ¬ (other = collectionName upload.collectionId ∧ id ∈ pointIds keep) →
    (s'.Holds other id stored ↔ s.Holds other id stored)
  kept : ∀ row ∈ s.chunks.rows, row ∈ s'.chunks.rows
  added : ∀ row ∈ s'.chunks.rows, row ∈ s.chunks.rows ∨
    (∃ kept ∈ keep, row = (persistedOf upload kept).row upload.documentId) ∧
      (∃ collectionId, (upload.documentId, collectionId) ∈ s.homes) ∧ PointsStored upload keep s'

section TextStored

variable {upload : Upload} {keep : List Kept} {s s₁ s' : Stores}

/-- Storing points only. -/
theorem TextStored.of_beside (h : Beside (collectionName upload.collectionId) (pointIds keep) s s') :
    TextStored upload keep s s' where
  homes := congrArg (fun documents => documents.rows.map fun row => (row.id, row.collectionId)) h.documents
  ready id hid := by
    rw [Stores.readyIds, h.documents] at hid
    exact hid
  points := h.points
  kept row hrow := h.chunks ▸ hrow
  added row hrow := .inl (h.chunks ▸ hrow)

/-- Marking an error after that. -/
theorem TextStored.mark_error {given : Given (Reply (.updateDocument upload.documentId "error" "error"))}
    {reply : Except Exc Unit} (h : Beside (collectionName upload.collectionId) (pointIds keep) s s₁)
    (hrespond : s₁.respond (.updateDocument upload.documentId "error" "error") given = (s', reply)) :
    TextStored upload keep s s' := by
  obtain ⟨hchunks, hvectors, -, hhomes, hready⟩ := updateDocument_spec hrespond
  have hstored := TextStored.of_beside h
  refine ⟨hhomes.trans hstored.homes, ?_, ?_, ?_, ?_⟩
  · intro id hid
    rcases hready id hid with hbefore | ⟨-, hstatus⟩
    · exact hstored.ready id hbefore
    · simp at hstatus
  · intro other id stored hother
    rw [Stores.Holds, hvectors]
    exact h.points other id stored hother
  · intro row hrow
    rw [hchunks]
    exact hstored.kept row hrow
  · intro row hrow
    rw [hchunks, h.chunks] at hrow
    exact .inl hrow

/-- Recording the rows after that. -/
theorem TextStored.record (h : Beside (collectionName upload.collectionId) (pointIds keep) s s₁)
    (hpoints : PointsStored upload keep s₁)
    (hadded : ChunksAdded upload.documentId (keep.map (persistedOf upload)) s₁ s') : TextStored upload keep s s' := by
  have hholds : ∀ other id stored, s'.Holds other id stored ↔ s₁.Holds other id stored := by
    intro other id stored
    rw [Stores.Holds, hadded.vectors]
    exact Iff.rfl
  have hstored := TextStored.of_beside h
  have hrows : s'.documents = s.documents := hadded.documents.trans h.documents
  refine ⟨?_, ?_, ?_, ?_, ?_⟩
  · rw [Stores.homes, hrows]
    rfl
  · intro id hid
    rw [Stores.readyIds, hrows] at hid
    exact hid
  · intro other id stored hother
    exact (hholds other id stored).trans (h.points other id stored hother)
  · intro row hrow
    exact hadded.kept row (hstored.kept row hrow)
  · intro row hrow
    rcases hadded.added row hrow with hold | ⟨⟨chunk, hchunk, rfl⟩, hdocument⟩
    · exact .inl (h.chunks ▸ hold)
    · obtain ⟨kept, hkept, rfl⟩ := List.mem_map.mp hchunk
      refine .inr ⟨⟨kept, hkept, rfl⟩, ?_, ?_⟩
      · rw [h.documents] at hdocument
        exact exists_home hdocument
      · intro kept hkept
        obtain ⟨stored, hstored, hpoint⟩ := hpoints kept hkept
        exact ⟨stored, (hholds _ _ _).mpr hstored, hpoint⟩

end TextStored

/-- The rule of marking errors. -/
theorem ensures_orMarkError {documentId : ℕ} {pipeline : Coroutine IngestOutcome}
    {post : Except Exc IngestOutcome → Stores → Prop} {s : Stores}
    (h : (storesProtocol condition).Ensures
      (fun result s' => (∀ outcome, result = .ok outcome → post (.ok outcome) s') ∧
        ∀ error, result = .error error → ∀ given reply s'',
          s'.respond (.updateDocument documentId "error" "error") given = (s'', reply) →
            ∀ error', post (.error error') s'')
      pipeline s) :
    (storesProtocol condition).Ensures post (orMarkError documentId pipeline) s := by
  apply Protocol.ensures_bind.mpr
  apply Protocol.ensures_attempt.mpr
  refine h.mono ?_
  rintro (error | outcome) s₁ ⟨hok, herror⟩
  · apply Protocol.ensures_call_bind trivial
    rintro reply s₂ ⟨given, -, hrespond⟩
    cases reply with
    | error error' => exact herror error rfl given _ s₂ hrespond error'
    | ok _ => exact herror error rfl given _ s₂ hrespond error
  · exact hok outcome rfl

/-- An ingestion that has its text stores what it keeps, and when it returns each kept chunk has its id taken. -/
theorem ensures_storeText (upload : Upload) (existing : List String) (text : String) (usedOcr : Bool) (s : Stores) :
    (storesProtocol condition).Ensures
      (fun result s' => TextStored upload (keptChunks libraries upload existing text) s s' ∧
        ∀ outcome, result = .ok outcome →
          (∃ policies, chunkPolicies libraries upload (freshChunks text existing) = .ok policies) ∧
          IdsTaken ((keptChunks libraries upload existing text).map (persistedOf upload)) s')
      (storeText libraries upload existing text usedOcr) s := by
  apply Protocol.ensures_bind.mpr
  apply ensures_orMarkError
  refine (ensures_ingestText libraries upload existing text usedOcr s).mono ?_
  rintro result s₁ ⟨hbeside, hresult⟩
  refine ⟨?_, ?_⟩
  · rintro outcome rfl
    obtain ⟨hpolicies, hchunks, hpoints⟩ := hresult outcome rfl
    apply Protocol.ensures_bind.mpr
    unfold recordChunks
    rw [hchunks]
    split
    · rename_i hempty
      refine ⟨.of_beside hbeside, ?_⟩
      rintro _ ⟨⟩
      rw [List.isEmpty_iff] at hempty
      rw [hempty]
      exact ⟨hpolicies, fun chunk hchunk => by cases hchunk⟩
    · apply Protocol.ensures_call.mpr
      refine ⟨trivial, ?_⟩
      rintro (error | ⟨⟨⟩⟩) s₂ ⟨given, -, hrespond⟩
      · obtain ⟨hadded, -, -⟩ := insertChunks_spec hrespond
        exact ⟨.record hbeside hpoints hadded, fun _ h => by cases h⟩
      · obtain ⟨hadded, htaken, -⟩ := insertChunks_spec hrespond
        exact ⟨.record hbeside hpoints hadded, fun _ _ => ⟨hpolicies, htaken rfl⟩⟩
  · rintro error - given reply s₂ hrespond error'
    exact ⟨.mark_error hbeside hrespond, fun _ h => by cases h⟩

/-- When nothing fails after the embedding, an ingestion that has its text embeds nothing, or the chunks it keeps, and
then each of them has its id taken. -/
theorem completes_storeText (hcondition : ∀ s c given, condition s c given → Completes s c given)
    (upload : Upload) (existing : List String) (text : String) (usedOcr : Bool) (s : Stores) :
    (storesProtocol condition).Ensures
      (fun _ s' => s'.embedded = s.embedded ∨
        s'.embedded = s.embedded ++ embeddingsOf upload (keptChunks libraries upload existing text) ∧
          IdsTaken ((keptChunks libraries upload existing text).map (persistedOf upload)) s')
      (storeText libraries upload existing text usedOcr) s := by
  apply Protocol.ensures_bind.mpr
  apply ensures_orMarkError
  refine ((ensures_ingestText libraries upload existing text usedOcr s).and
    (completes_ingestText libraries hcondition upload existing text usedOcr s)).mono ?_
  rintro result s₁ ⟨⟨-, hresult⟩, hembedded⟩
  refine ⟨?_, ?_⟩
  · rintro outcome rfl
    obtain ⟨-, hchunks, -⟩ := hresult outcome rfl
    apply Protocol.ensures_bind.mpr
    unfold recordChunks
    rw [hchunks]
    split
    · rename_i hempty
      rw [List.isEmpty_iff] at hempty
      rw [hempty]
      rcases hembedded with ⟨hsame, -⟩ | ⟨hmore, -⟩
      · exact .inl hsame
      · exact .inr ⟨hmore, fun chunk hchunk => by cases hchunk⟩
    · apply Protocol.ensures_call.mpr
      refine ⟨trivial, ?_⟩
      rintro reply s₂ ⟨given, hgiven, hrespond⟩
      obtain ⟨hadded, -, htaken⟩ := insertChunks_spec hrespond
      obtain ⟨hdocument, hrefused⟩ := hcondition _ _ _ hgiven
      have hpost : s₂.embedded = s.embedded ∨
          s₂.embedded = s.embedded ++ embeddingsOf upload (keptChunks libraries upload existing text) ∧
            IdsTaken ((keptChunks libraries upload existing text).map (persistedOf upload)) s₂ := by
        rw [hadded.embedded]
        rcases hembedded with ⟨hsame, -⟩ | ⟨hmore, -⟩
        · exact .inl hsame
        · exact .inr ⟨hmore, htaken hdocument hrefused⟩
      cases reply with
      | error error => exact hpost
      | ok _ => exact hpost
  · rintro error rfl given reply s₂ hrespond error'
    obtain ⟨-, -, hsame₂, -⟩ := updateDocument_spec hrespond
    rcases hembedded with ⟨hsame, -⟩ | ⟨-, outcome, houtcome⟩
    · exact .inl (hsame₂.trans hsame)
    · cases houtcome

/-- An ingestion that keeps no chunk of its text embeds nothing. -/
theorem ensures_storeText_of_nil {upload : Upload} {existing : List String} {text : String}
    (h : keptChunks libraries upload existing text = []) (usedOcr : Bool) (s : Stores) :
    (storesProtocol condition).Ensures
      (fun result s' => s'.embedded = s.embedded ∧ ∀ outcome, result = .ok outcome → outcome.chunksEmbedded = 0)
      (storeText libraries upload existing text usedOcr) s := by
  apply Protocol.ensures_bind.mpr
  apply ensures_orMarkError
  apply Protocol.ensures_ofExcept_bind
  · intro error _
    refine ⟨fun _ h => (by cases h), ?_⟩
    rintro _ - given reply s₁ hrespond error'
    exact ⟨(updateDocument_spec hrespond).2.2.1, fun _ h => by cases h⟩
  · intro policies hpolicies
    have hkeep : (policies.filter fun kept => !kept.2.blocked) = [] := by
      simpa only [keptChunks, hpolicies] using h
    dsimp only
    rw [hkeep]
    refine ⟨?_, fun _ h => by cases h⟩
    rintro outcome ⟨⟩
    refine ⟨rfl, ?_⟩
    rintro outcome ⟨⟩
    rfl

end Parts

/-! ## A whole ingestion -/

section Runs

variable {libraries : Libraries} {surroundings : Surroundings} {upload : Upload} {w w₁ : World}

/-- A pipeline that fails has its document marked. -/
theorem run_orMarkError_of_error {documentId : ℕ} {pipeline : Coroutine IngestOutcome} {error : Exc}
    (h : pipeline.run (World.answer surroundings) w = (w₁, .error error)) :
    ∃ error', (orMarkError documentId pipeline).run (World.answer surroundings) w =
      ((w₁.answer surroundings (.updateDocument documentId "error" "error")).1, .error error') := by
  unfold orMarkError
  rw [Prog.run_bind_of_ok (congrArg Prod.snd (Prog.run_attempt _ _ _)), Prog.run_attempt, h]
  dsimp only
  rw [Prog.run_bind, Prog.run_call]
  cases (w₁.answer surroundings (.updateDocument documentId "error" "error")).2 with
  | error error' => exact ⟨error', rfl⟩
  | ok _ => exact ⟨error, rfl⟩

/-- What an ingestion without a text leaves behind: it fails, and stores nothing. -/
def StoresNothing (upload : Upload) (s : Stores) (out : World × Except Exc IngestOutcome) : Prop :=
  (∃ error, out.2 = .error error) ∧ TextStored upload [] s out.1.stores ∧ out.1.stores.embedded = s.embedded

theorem storesNothing_of_error (error : Exc) {s : Stores} (h : w₁.stores = s) :
    StoresNothing upload s (w₁, .error error) := by
  subst h
  exact ⟨⟨error, rfl⟩, .of_beside (.refl _ _ _), rfl⟩

theorem storesNothing_of_mark_error (error : Exc) {s : Stores} (h : w₁.stores = s) :
    StoresNothing upload s ((w₁.answer surroundings (.updateDocument upload.documentId "error" "error")).1,
      .error error) := by
  subst h
  obtain ⟨reply, hrespond⟩ : ∃ reply, w₁.stores.respond (.updateDocument upload.documentId "error" "error")
      (surroundings w₁.tick (.updateDocument upload.documentId "error" "error")) =
        ((w₁.answer surroundings (.updateDocument upload.documentId "error" "error")).1.stores, reply) := ⟨_, rfl⟩
  exact ⟨⟨error, rfl⟩, .mark_error (.refl _ _ _) hrespond, (updateDocument_spec hrespond).2.2.1⟩

/-- An ingestion that fails to read its text stores nothing. -/
theorem run_ingestRecorded_of_error {error : Exc}
    (h : (readText libraries upload).run (World.answer surroundings) w = (w₁, .error error)) :
    StoresNothing upload w.stores ((ingestRecorded libraries upload).run (World.answer surroundings) w) := by
  unfold readText at h
  unfold ingestRecorded
  apply run_reads_bind (only_getObject upload.objectKey)
  · intro w₂ error' hsame _
    exact storesNothing_of_error error' hsame
  intro w₂ data hsame₂ hdata
  rw [Prog.run_bind_of_ok (congrArg Prod.snd hdata), hdata] at h
  apply run_reads_bind (only_chunkHashes upload.documentId)
  · intro w₃ error' hsame _
    exact storesNothing_of_error error' (hsame.trans hsame₂)
  intro w₃ hashes hsame₃ hhashes
  rw [Prog.run_bind_of_ok (congrArg Prod.snd hhashes), hhashes] at h
  cases hread : (uploadText libraries upload data).run (World.answer surroundings) w₃ with
  | mk w₄ read =>
    cases read with
    | ok read =>
      rw [Prog.run_bind_of_ok (congrArg Prod.snd hread)] at h
      cases h
    | error error' =>
      have hreads := run_reads (only_uploadText libraries upload data) surroundings w₃
      rw [hread] at hreads
      have hpipeline : (runIngestion libraries upload data hashes).run (World.answer surroundings) w₃ =
          (w₄, .error error') := by
        unfold runIngestion
        rw [Prog.run_bind_of_error (congrArg Prod.snd hread), hread]
      obtain ⟨error'', hmarked⟩ := run_orMarkError_of_error hpipeline
      rw [Prog.run_bind_of_error (congrArg Prod.snd hmarked), hmarked]
      exact storesNothing_of_mark_error error'' (hreads.trans (hsame₃.trans hsame₂))

/-- Every answer of the surroundings is a reply of the stores. -/
theorem answers_stores (w : World) (c : Call) :
    (storesProtocol fun _ _ _ => True).answers w.stores c (w.answer surroundings c).2
      (w.answer surroundings c).1.stores :=
  ⟨surroundings w.tick c, trivial, rfl⟩

variable (libraries surroundings upload) in
/-- An ingestion that has read its text stores what it keeps. -/
theorem run_storeText (existing : List String) (text : String) (usedOcr : Bool) (w : World) :
    TextStored upload (keptChunks libraries upload existing text) w.stores
        ((storeText libraries upload existing text usedOcr).run (World.answer surroundings) w).1.stores ∧
      ∀ outcome, ((storeText libraries upload existing text usedOcr).run (World.answer surroundings) w).2 =
          .ok outcome →
        (∃ policies, chunkPolicies libraries upload (freshChunks text existing) = .ok policies) ∧
        IdsTaken ((keptChunks libraries upload existing text).map (persistedOf upload))
          ((storeText libraries upload existing text usedOcr).run (World.answer surroundings) w).1.stores := by
  have hensures : (storesProtocol fun _ _ _ => True).Ensures _ _ _ :=
    ensures_storeText libraries upload existing text usedOcr w.stores
  exact (hensures.run World.stores (fun _ => True)
    (fun w c _ _ => ⟨answers_stores w c, trivial⟩) trivial).1

/-- An ingestion that has read its text and keeps no chunk of it embeds nothing. -/
theorem run_storeText_of_nil {existing : List String} {text : String}
    (h : keptChunks libraries upload existing text = []) (usedOcr : Bool) (w : World) :
    ((storeText libraries upload existing text usedOcr).run (World.answer surroundings) w).1.stores.embedded =
        w.stores.embedded ∧
      ∀ outcome, ((storeText libraries upload existing text usedOcr).run (World.answer surroundings) w).2 =
        .ok outcome → outcome.chunksEmbedded = 0 := by
  have hensures : (storesProtocol fun _ _ _ => True).Ensures _ _ _ :=
    ensures_storeText_of_nil libraries h usedOcr w.stores
  exact (hensures.run World.stores (fun _ => True)
    (fun w c _ _ => ⟨answers_stores w c, trivial⟩) trivial).1

/-- Nothing fails in what is given to a call once something is embedded. -/
def CompletesCall (surroundings : Surroundings) (w : World) (c : Call) : Prop :=
  Completes w.stores c (surroundings w.tick c)

/-- An ingestion that has read its text, and in which nothing fails after the embedding, embeds nothing, or what it
keeps, and then each of these has its id taken. -/
theorem run_storeText_completes (existing : List String) (text : String) (usedOcr : Bool) (w : World)
    (halong : (storeText libraries upload existing text usedOcr).Along (World.answer surroundings)
      (CompletesCall surroundings) w) :
    ((storeText libraries upload existing text usedOcr).run (World.answer surroundings) w).1.stores.embedded =
        w.stores.embedded ∨
      ((storeText libraries upload existing text usedOcr).run (World.answer surroundings) w).1.stores.embedded =
          w.stores.embedded ++ embeddingsOf upload (keptChunks libraries upload existing text) ∧
        IdsTaken ((keptChunks libraries upload existing text).map (persistedOf upload))
          ((storeText libraries upload existing text usedOcr).run (World.answer surroundings) w).1.stores := by
  have hanswers : ∀ w c, CompletesCall surroundings w c → (storesProtocol Completes).answers w.stores c
      (w.answer surroundings c).2 (w.answer surroundings c).1.stores :=
    fun w c hgiven => ⟨surroundings w.tick c, hgiven, rfl⟩
  have hensures : (storesProtocol Completes).Ensures _ _ _ :=
    completes_storeText libraries (fun _ _ _ hgiven => hgiven) upload existing text usedOcr w.stores
  exact (hensures.run_along World.stores (fun _ => True) (fun w c _ _ hgiven => ⟨hanswers w c hgiven, trivial⟩)
    trivial halong).1

/-- What is left after a document may have been marked ready. -/
structure MarkedReady (documentId : ℕ) (s s' : Stores) : Prop where
  chunks : s'.chunks = s.chunks
  vectors : s'.vectors = s.vectors
  embedded : s'.embedded = s.embedded
  homes : s'.homes = s.homes
  ready : ∀ id ∈ s'.readyIds, id ∈ s.readyIds ∨ id = documentId

variable (libraries surroundings upload) in
/-- An ingestion that recorded its rows marks its document ready, and one that did not is left as it is. -/
theorem run_ingestDocument (w : World) :
    ((∃ outcome, ((ingestRecorded libraries upload).run (World.answer surroundings) w).2 = .ok outcome ∧
        MarkedReady upload.documentId ((ingestRecorded libraries upload).run (World.answer surroundings) w).1.stores
          ((ingestDocument libraries upload).run (World.answer surroundings) w).1.stores ∧
        ∀ outcome', ((ingestDocument libraries upload).run (World.answer surroundings) w).2 = .ok outcome' →
          outcome' = outcome) ∨
      ∃ error, ((ingestRecorded libraries upload).run (World.answer surroundings) w).2 = .error error ∧
        (ingestDocument libraries upload).run (World.answer surroundings) w =
          (ingestRecorded libraries upload).run (World.answer surroundings) w) := by
  rw [ingestDocument_eq]
  cases hrecorded : (ingestRecorded libraries upload).run (World.answer surroundings) w with
  | mk w₁ result =>
    cases result with
    | error error =>
      refine .inr ⟨error, rfl, ?_⟩
      rw [Prog.run_bind_of_error (congrArg Prod.snd hrecorded), hrecorded]
    | ok outcome =>
      refine .inl ⟨outcome, rfl, ?_⟩
      rw [Prog.run_bind_of_ok (congrArg Prod.snd hrecorded), hrecorded, markReady]
      dsimp only
      cases hmark : (await (.updateDocument upload.documentId "ready"
          (if outcome.usedOcr then "done" else "not_needed"))).run (World.answer surroundings) w₁ with
      | mk w₂ reply =>
        have hanswer := hmark
        rw [Prog.run_call] at hanswer
        obtain ⟨hchunks, hvectors, hembedded, hhomes, hready⟩ :=
          updateDocument_spec (World.respond_of_answer hanswer)
        have hmarked : MarkedReady upload.documentId w₁.stores w₂.stores :=
          ⟨hchunks, hvectors, hembedded, hhomes, fun id hid => (hready id hid).imp_right And.left⟩
        cases reply with
        | error error =>
          rw [Prog.run_bind_of_error (congrArg Prod.snd hmark), hmark]
          exact ⟨hmarked, fun _ h => by cases h⟩
        | ok _ =>
          rw [Prog.run_bind_of_ok (congrArg Prod.snd hmark), hmark]
          refine ⟨hmarked, ?_⟩
          rintro _ ⟨⟩
          rfl

end Runs

/-! ## The rows of a text -/

section Recorded

variable (libraries : Libraries) (upload : Upload)

/-- No row has the id of a chunk that would be embedded, and chunks of one id have one digest. -/
structure Separate (existing : List String) (text : String) (s : Stores) : Prop where
  unnamed : ∀ row ∈ s.chunks.rows, row.qdrantPointId ∉ pointIds (keptChunks libraries upload existing text)
  faithful : ∀ kept ∈ keptChunks libraries upload existing text, ∀ other ∈ keptChunks libraries upload existing text,
    pointIdFor kept.1.contentSha256 = pointIdFor other.1.contentSha256 →
      kept.1.contentSha256 = other.1.contentSha256

/-- Each chunk of a text that the policy lets pass has a row of the document. -/
def ChunksRecorded (text : String) (s : Stores) : Prop :=
  ∀ chunk ∈ chunkText defaultMaxTokens text, ∀ policy,
    applyPiiPolicy libraries.scanText upload.piiPolicy chunk.content = .ok policy → policy.blocked = false →
      ∃ row ∈ s.chunks.rows, row.documentId = upload.documentId ∧ row.contentSha256 = chunk.contentSha256

variable {libraries upload} {existing : List String} {text : String} {s s' : Stores}

/-- The digests of a document are those of its rows. -/
theorem mem_hashesOf {documentId : ℕ} {hash : String} :
    hash ∈ s.hashesOf documentId ↔ ∃ row ∈ s.chunks.rows, row.documentId = documentId ∧ row.contentSha256 = hash := by
  simp [Stores.hashesOf, and_assoc]

/-- A chunk that the policy lets pass is kept, unless it is known. -/
theorem mem_keptChunks {policies : List Kept}
    (hpolicies : chunkPolicies libraries upload (freshChunks text existing) = .ok policies) {chunk : Chunk}
    (hchunk : chunk ∈ chunkText defaultMaxTokens text) (hknown : chunk.contentSha256 ∉ existing)
    {policy : PolicyResult} (hpolicy : applyPiiPolicy libraries.scanText upload.piiPolicy chunk.content = .ok policy)
    (hpasses : policy.blocked = false) : (chunk, policy) ∈ keptChunks libraries upload existing text := by
  have hfresh : chunk ∈ freshChunks text existing := by
    rw [freshChunks, dedupChunks, List.mem_filter]
    exact ⟨hchunk, decide_eq_true hknown⟩
  obtain ⟨kept, hkept, heq⟩ := mem_mapM hpolicies hfresh
  rw [hpolicy] at heq
  cases heq
  simp only [keptChunks, hpolicies, List.mem_filter]
  exact ⟨hkept, by simp [hpasses]⟩

/-- A kept chunk is a chunk of the text that is not known and that the policy lets pass. -/
theorem of_mem_keptChunks {kept : Kept} (h : kept ∈ keptChunks libraries upload existing text) :
    kept.1 ∈ chunkText defaultMaxTokens text ∧ kept.1.contentSha256 ∉ existing ∧
      applyPiiPolicy libraries.scanText upload.piiPolicy kept.1.content = .ok kept.2 ∧ kept.2.blocked = false := by
  unfold keptChunks at h
  split at h
  · rename_i policies hpolicies
    obtain ⟨hmem, hpasses⟩ := List.mem_filter.mp h
    obtain ⟨chunk, hchunk, heq⟩ := of_mem_mapM hpolicies hmem
    obtain ⟨policy, hpolicy, hpair⟩ := bind_eq_ok.mp heq
    cases hpair
    rw [freshChunks, dedupChunks, List.mem_filter] at hchunk
    exact ⟨hchunk.1, of_decide_eq_true hchunk.2, hpolicy, by simpa using hpasses⟩
  · cases h

/-- Recording the kept chunks of a text records all of it, if their ids are separate. -/
theorem chunksRecorded_of_idsTaken {policies : List Kept}
    (hpolicies : chunkPolicies libraries upload (freshChunks text (s.hashesOf upload.documentId)) = .ok policies)
    (hseparate : Separate libraries upload (s.hashesOf upload.documentId) text s)
    (hstored : TextStored upload (keptChunks libraries upload (s.hashesOf upload.documentId) text) s s')
    (htaken : IdsTaken ((keptChunks libraries upload (s.hashesOf upload.documentId) text).map (persistedOf upload)) s') :
    ChunksRecorded libraries upload text s' := by
  intro chunk hchunk policy hpolicy hpasses
  by_cases hknown : chunk.contentSha256 ∈ s.hashesOf upload.documentId
  · obtain ⟨row, hrow, hdocument, hdigest⟩ := mem_hashesOf.mp hknown
    exact ⟨row, hstored.kept row hrow, hdocument, hdigest⟩
  · have hkept := mem_keptChunks hpolicies hchunk hknown hpolicy hpasses
    obtain ⟨row, hrow, hid⟩ := htaken _ (List.mem_map_of_mem hkept)
    rw [persistedOf_qdrantPointId] at hid
    rcases hstored.added row hrow with hold | ⟨⟨other, hother, rfl⟩, -, -⟩
    · exact absurd (mem_pointIds.mpr ⟨(chunk, policy), hkept, hid.symm⟩) (hseparate.unnamed row hold)
    · exact ⟨_, hrow, rfl, hseparate.faithful other hother (chunk, policy) hkept hid⟩

/-- A text whose chunks are recorded keeps none to embed. -/
theorem keptChunks_eq_nil (h : ChunksRecorded libraries upload text s) :
    keptChunks libraries upload (s.hashesOf upload.documentId) text = [] := by
  rw [List.eq_nil_iff_forall_not_mem]
  intro kept hkept
  obtain ⟨hchunk, hknown, hpolicy, hpasses⟩ := of_mem_keptChunks hkept
  exact hknown (mem_hashesOf.mpr (h kept.1 hchunk kept.2 hpolicy hpasses))

end Recorded

end FleetWorkflow.Rag
