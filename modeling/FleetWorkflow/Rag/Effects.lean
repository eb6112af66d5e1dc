import FleetWorkflow.Rag.Pipeline
import FleetWorkflow.Rag.Stores

/-!
# What the calls of an ingestion change

The vectors go under ids that come from the digests alone, and over whatever is there. A row whose id is
taken is left out. A status changes no more than the status.
-/

namespace FleetWorkflow.Rag

open Python Async Store

/-! ## Points -/

namespace VectorCollection

variable (collection : VectorCollection) (points : List Point)

/-- A point that was put in place is found under its id. -/
theorem put_points_self (point : Point) :
    (collection.put point).points point.id = some (point.vector, point.payload) := Function.update_self _ _ _

/-- An id that is not among the points keeps what it has. -/
theorem upsert_points_of_notMem {id : String} (h : id ∉ points.map Point.id) :
    (collection.upsert points).points id = collection.points id := by
  induction points generalizing collection with
  | nil => rfl
  | cons point rest ih =>
    rw [List.map_cons, List.mem_cons, not_or] at h
    exact (ih (collection.put point) h.2).trans (Function.update_of_ne h.1 _ _)

/-- An id that is among the points gets one of them. -/
theorem upsert_points_of_mem {id : String} (h : id ∈ points.map Point.id) :
    ∃ point ∈ points, point.id = id ∧ (collection.upsert points).points id = some (point.vector, point.payload) := by
  induction points generalizing collection with
  | nil => cases h
  | cons point rest ih =>
    by_cases hrest : id ∈ rest.map Point.id
    · obtain ⟨found, hfound, hid, hpoints⟩ := ih (collection.put point) hrest
      exact ⟨found, List.mem_cons_of_mem _ hfound, hid, hpoints⟩
    · have hpoint : point.id = id := by
        rw [List.map_cons, List.mem_cons] at h
        exact (h.resolve_right hrest).symm
      refine ⟨point, List.mem_cons_self, hpoint, ?_⟩
      have hkeep : (collection.upsert (point :: rest)).points id = (collection.put point).points id :=
        upsert_points_of_notMem _ rest hrest
      rw [hkeep, ← hpoint]
      exact collection.put_points_self point

end VectorCollection

/-- The ids of some chunks. -/
def pointIds (keep : List Kept) : List String := keep.map fun kept => pointIdFor kept.1.contentSha256

theorem mem_pointIds {keep : List Kept} {id : String} :
    id ∈ pointIds keep ↔ ∃ kept ∈ keep, pointIdFor kept.1.contentSha256 = id := List.mem_map

/-- A point of some chunks is that of one of them. -/
theorem mem_points {upload : Upload} {keep : List Kept} {vectors : List Vector} {point : Point}
    (h : point ∈ List.zipWith (pointOf upload) keep vectors) :
    ∃ kept ∈ keep, ∃ vector, point = pointOf upload kept vector := by
  induction keep generalizing vectors with
  | nil => cases h
  | cons first rest ih =>
    cases vectors with
    | nil => cases h
    | cons vector others =>
      rcases List.mem_cons.mp h with rfl | hrest
      · exact ⟨first, List.mem_cons_self, vector, rfl⟩
      · obtain ⟨kept, hkept, found⟩ := ih hrest
        exact ⟨kept, List.mem_cons_of_mem _ hkept, found⟩

/-- The points of some chunks have their ids. -/
theorem points_ids {upload : Upload} {keep : List Kept} {vectors : List Vector}
    (h : sameLength keep vectors = .ok ()) :
    (List.zipWith (pointOf upload) keep vectors).map Point.id = pointIds keep := by
  have hlength : keep.length = vectors.length := by
    unfold sameLength at h
    split at h
    · cases h
    · split at h
      · cases h
      · omega
  clear h
  induction keep generalizing vectors with
  | nil => rfl
  | cons first rest ih =>
    cases vectors with
    | nil => cases hlength
    | cons vector others =>
      have hrest : rest.length = others.length := by simpa using hlength
      exact congrArg _ (ih hrest)

/-! ## Calls -/

/-- Nothing is changed but what is embedded and the points under some ids of one collection. -/
structure Beside (name : String) (ids : List String) (s s' : Stores) : Prop where
  documents : s'.documents = s.documents
  chunks : s'.chunks = s.chunks
  points : ∀ other id stored, ¬ (other = name ∧ id ∈ ids) → (s'.Holds other id stored ↔ s.Holds other id stored)

section Beside

variable {name : String} {ids : List String} {s s' s'' : Stores}

theorem Beside.refl (name : String) (ids : List String) (s : Stores) : Beside name ids s s :=
  ⟨rfl, rfl, fun _ _ _ _ => Iff.rfl⟩

theorem Beside.trans (h : Beside name ids s s') (h' : Beside name ids s' s'') : Beside name ids s s'' where
  documents := h'.documents.trans h.documents
  chunks := h'.chunks.trans h.chunks
  points other id stored hother := (h'.points other id stored hother).trans (h.points other id stored hother)

/-- An embedding changes nothing, or what is embedded. -/
theorem embeddings_spec {hashes texts : List String} {sensitivity : String}
    {given : Given (Reply (.embeddings name hashes texts sensitivity))} {reply : Except Exc (List Vector)}
    (h : s.respond (.embeddings name hashes texts sensitivity) given = (s', reply)) :
    Beside name ids s s' ∧ ((s'.embedded = s.embedded ∧ ∃ error, reply = .error error) ∨
      s'.embedded = s.embedded ++ hashes.map fun hash => (name, hash)) := by
  rcases Stores.respond_inv h with ⟨rfl, hreply⟩ | ⟨given', reply', hout, -⟩
  · exact ⟨.refl name ids s', .inl ⟨rfl, hreply⟩⟩
  · cases hout
    exact ⟨⟨rfl, rfl, fun _ _ _ _ => Iff.rfl⟩, .inr rfl⟩

/-- Looking for a collection and making one change no point. -/
def EnsuresCollection : Call → Prop
  | .collectionExists _ | .createCollection _ _ | .createPayloadIndex _ _ => True
  | _ => False

theorem ensuresCollection_spec {c : Call} (hc : EnsuresCollection c) {given : Given (Reply c)}
    {reply : Except Exc (Reply c)} (h : s.respond c given = (s', reply)) :
    Beside name ids s s' ∧ s'.embedded = s.embedded := by
  rcases Stores.respond_inv h with ⟨rfl, -⟩ | ⟨given', reply', hout, -⟩
  · exact ⟨.refl name ids s', rfl⟩
  · cases c with
    | collectionExists other =>
      cases hout
      exact ⟨.refl name ids s, rfl⟩
    | createPayloadIndex other field =>
      simp only [Stores.carryOut] at hout
      split at hout <;> cases hout
      exact ⟨.refl name ids s, rfl⟩
    | createCollection other vectorSize =>
      simp only [Stores.carryOut] at hout
      split at hout <;> cases hout
      rename_i hmissing
      refine ⟨⟨rfl, rfl, fun at_ id stored _ => ?_⟩, rfl⟩
      by_cases hat : at_ = other
      · subst hat
        have hnone : s.vectors at_ = none := by simpa using hmissing
        simp [Stores.Holds, hnone]
      · simp [Stores.Holds, hat]
    | _ => exact hc.elim

/-- An upsert changes nothing but points under the ids it names, and it stores one of its points under each. -/
theorem upsert_spec {points : List Point} {given : Given (Reply (.upsert name points))} {reply : Except Exc Unit}
    (h : s.respond (.upsert name points) given = (s', reply)) :
    Beside name (points.map Point.id) s s' ∧ s'.embedded = s.embedded ∧
      (reply = .ok () → ∀ id ∈ points.map Point.id, ∃ point ∈ points, point.id = id ∧
        s'.Holds name id (point.vector, point.payload)) := by
  rcases Stores.respond_inv h with ⟨rfl, error, rfl⟩ | ⟨given', reply', hout, -⟩
  · exact ⟨.refl name _ s', rfl, fun hreply => by cases hreply⟩
  · simp only [Stores.carryOut] at hout
    cases hcollection : s.vectors name with
    | none =>
      rw [hcollection] at hout
      cases hout
    | some collection =>
      rw [hcollection] at hout
      dsimp only at hout
      split at hout <;> cases hout
      refine ⟨⟨rfl, rfl, fun other id stored hother => ?_⟩, rfl, fun _ id hid => ?_⟩
      · by_cases hname : other = name
        · subst hname
          have hkeep := collection.upsert_points_of_notMem points fun hid => hother ⟨rfl, hid⟩
          simp [Stores.Holds, hcollection, hkeep]
        · simp [Stores.Holds, hname]
      · obtain ⟨point, hpoint, hpointId, hstored⟩ := collection.upsert_points_of_mem points hid
        exact ⟨point, hpoint, hpointId, _, Function.update_self _ _ _, hstored⟩

end Beside

/-! ## Rows -/

/-- Where each document is. -/
def Stores.homes (s : Stores) : List (ℕ × ℕ) := s.documents.rows.map fun row => (row.id, row.collectionId)

/-- The documents that are ready. -/
def Stores.readyIds (s : Stores) : List ℕ :=
  (s.documents.rows.filter fun row => row.status = "ready").map DocumentRow.id

section Rows

variable {s s' : Stores} {documentId : ℕ}

/-- A document that has a row has a home. -/
theorem exists_home (h : (s.documents.find documentId).isSome) : ∃ collectionId, (documentId, collectionId) ∈ s.homes := by
  obtain ⟨row, hrow⟩ := Option.isSome_iff_exists.mp h
  obtain ⟨hmem, hid⟩ := s.documents.find_eq_some.mp hrow
  exact ⟨row.collectionId, List.mem_map.mpr ⟨row, hmem, by rw [hid]⟩⟩

/-- Rows of chunks were added at most; a new row needs its document. -/
structure ChunksAdded (documentId : ℕ) (chunks : List PersistedChunk) (s s' : Stores) : Prop where
  documents : s'.documents = s.documents
  vectors : s'.vectors = s.vectors
  embedded : s'.embedded = s.embedded
  kept : ∀ row ∈ s.chunks.rows, row ∈ s'.chunks.rows
  added : ∀ row ∈ s'.chunks.rows, row ∈ s.chunks.rows ∨
    (∃ chunk ∈ chunks, row = chunk.row documentId) ∧ (s.documents.find documentId).isSome

/-- Every chunk has its id taken. -/
def IdsTaken (chunks : List PersistedChunk) (s : Stores) : Prop :=
  ∀ chunk ∈ chunks, ∃ row ∈ s.chunks.rows, row.qdrantPointId = chunk.qdrantPointId

variable {chunks : List PersistedChunk}

theorem ChunksAdded.refl (documentId : ℕ) (chunks : List PersistedChunk) (s : Stores) :
    ChunksAdded documentId chunks s s :=
  ⟨rfl, rfl, rfl, fun _ hrow => hrow, fun _ hrow => .inl hrow⟩

/-- Inserting chunks adds their rows, and then each id is taken. -/
theorem chunksAdded_of_carryOut {given reply : Unit}
    (h : s.carryOut (.insertChunks documentId chunks) given = .ok (s', reply)) :
    ChunksAdded documentId chunks s s' ∧ IdsTaken chunks s' := by
  simp only [Stores.carryOut] at h
  split at h <;> cases h
  rename_i hdocument
  refine ⟨⟨rfl, rfl, rfl, ?_, ?_⟩, ?_⟩
  · intro row hrow
    exact s.chunks.mem_foldl_addIfNew_of_mem _ chunks hrow
  · intro row hrow
    rcases s.chunks.mem_of_mem_foldl_addIfNew _ chunks hrow with hold | ⟨⟨chunk, hchunk, rfl⟩, hfree⟩
    · exact .inl hold
    · refine .inr ⟨⟨chunk, hchunk, rfl⟩, ?_⟩
      by_contra hnone
      have hadds : s.addsChunk chunks = true := by
        refine List.any_eq_true.mpr ⟨chunk, hchunk, decide_eq_true fun htaken => ?_⟩
        obtain ⟨earlier, hearlier, hkey⟩ := List.mem_map.mp htaken
        exact hfree earlier hearlier hkey
      exact hdocument (by simpa [hadds] using hnone)
  · intro chunk hchunk
    exact s.chunks.exists_key_foldl_addIfNew (fun chunk : PersistedChunk => chunk.row documentId) chunks hchunk

/-- An insertion adds rows at most. When it returns each id is taken, and also when only its reply is lost and
the document is there. -/
theorem insertChunks_spec {given : Given (Reply (.insertChunks documentId chunks))} {reply : Except Exc Unit}
    (h : s.respond (.insertChunks documentId chunks) given = (s', reply)) :
    ChunksAdded documentId chunks s s' ∧ (reply = .ok () → IdsTaken chunks s') ∧
      ((s.documents.find documentId).isSome → (∀ error, given ≠ .refused error) → IdsTaken chunks s') := by
  refine ⟨?_, ?_, ?_⟩
  · rcases Stores.respond_inv h with ⟨rfl, -⟩ | ⟨given', reply', hout, -⟩
    · exact .refl documentId chunks s'
    · exact (chunksAdded_of_carryOut hout).1
  · rintro rfl
    obtain ⟨given', hout⟩ := Stores.carryOut_of_ok h
    exact (chunksAdded_of_carryOut hout).2
  · intro hdocument hgiven
    have hcarried : ∀ given' : Unit, ∃ out, s.carryOut (.insertChunks documentId chunks) given' = .ok out := by
      intro given'
      have hnone : (s.documents.find documentId).isNone = false := Option.isNone_eq_false_iff.mpr hdocument
      simp only [Stores.carryOut, hnone, Bool.false_and, Bool.false_eq_true, if_false]
      exact ⟨_, rfl⟩
    obtain ⟨given', reply', hout⟩ := Stores.carryOut_of_not_refused h hgiven hcarried
    exact (chunksAdded_of_carryOut hout).2

/-- Setting a status keeps everything else, and makes no document ready but the one it names. -/
theorem updateDocument_spec {status ocrStatus : String}
    {given : Given (Reply (.updateDocument documentId status ocrStatus))} {reply : Except Exc Unit}
    (h : s.respond (.updateDocument documentId status ocrStatus) given = (s', reply)) :
    s'.chunks = s.chunks ∧ s'.vectors = s.vectors ∧ s'.embedded = s.embedded ∧ s'.homes = s.homes ∧
      ∀ id ∈ s'.readyIds, id ∈ s.readyIds ∨ id = documentId ∧ status = "ready" := by
  rcases Stores.respond_inv h with ⟨rfl, -⟩ | ⟨given', reply', hout, -⟩
  · exact ⟨rfl, rfl, rfl, rfl, fun _ hid => .inl hid⟩
  · cases hout
    refine ⟨rfl, rfl, rfl, ?_, ?_⟩
    · simp only [Stores.homes, KeyedRows.update, List.map_map]
      apply List.map_congr_left
      intro row _
      simp only [Function.comp_apply, DocumentRow.markedIf]
      split <;> rfl
    · intro id hid
      obtain ⟨row, hrow, rfl⟩ := List.mem_map.mp hid
      obtain ⟨hmem, hstatus⟩ := List.mem_filter.mp hrow
      obtain ⟨before, hbefore, rfl⟩ :=
        (KeyedRows.mem_update _ _ (DocumentRow.markedIf_id documentId status ocrStatus) _).mp hmem
      rw [DocumentRow.markedIf_id]
      by_cases hdocument : before.id = documentId
      · refine .inr ⟨hdocument, ?_⟩
        simpa [DocumentRow.markedIf, hdocument, DocumentRow.withStatus] using hstatus
      · refine .inl (List.mem_map.mpr ⟨before, List.mem_filter.mpr ⟨hbefore, ?_⟩, rfl⟩)
        simpa [DocumentRow.markedIf, hdocument] using hstatus

end Rows

end FleetWorkflow.Rag
