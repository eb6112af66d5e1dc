import FleetWorkflow.Rag.Keeping
import FleetWorkflow.Rag.Stores

/-!
# Deleting one document

What the deletion of a document does to the stores, whatever fails and wherever the process stops. The
row outlives the vectors and the object as long as the object store does not refuse a removal while the
object is there: that failure is swallowed, and the row goes while the object stays.
-/

namespace FleetWorkflow.Rag

open Python Async Store

/-! ## What is left of a document -/

/-- No vector of a document is left in its collection. -/
def NoVectors (location : Location) (s : Stores) : Prop :=
  ∀ id stored, s.Holds (collectionName location.collectionId) id stored → stored.2.documentId ≠ location.documentId

/-- Nothing of a document is left in the three stores. -/
structure NothingLeft (location : Location) (s : Stores) : Prop where
  vectors : NoVectors location s
  object : s.objects location.uri = none
  row : ∀ row ∈ s.documents.rows, row.id ≠ location.documentId
  chunks : ∀ row ∈ s.chunks.rows, row.documentId ≠ location.documentId

/-- The row is present, or neither a vector nor the object is left. -/
def RowOutlives (location : Location) (s : Stores) : Prop :=
  (∃ row ∈ s.documents.rows, row.id = location.documentId) ∨ (NoVectors location s ∧ s.objects location.uri = none)

/-- A removal is not refused while the object is there. -/
def RemovesObject (surroundings : Surroundings) (location : Location) (w : World) (c : Call) : Prop :=
  c = .removeObject location.uri → w.stores.objects location.uri ≠ none →
    ∀ error, surroundings w.tick (.removeObject location.uri) ≠ .refused error

/-! ## One call -/

section Calls

variable {location : Location} {s s' : Stores}

/-- Deleting the vectors of a document leaves none of them. -/
theorem noVectors_of_deletePoints {given : Unit}
    (h : s.carryOut (.deletePoints (collectionName location.collectionId) location.documentId) given = .ok (s', ())) :
    NoVectors location s' := by
  simp only [Stores.carryOut] at h
  cases hcollection : s.vectors (collectionName location.collectionId) with
  | none =>
    rw [hcollection] at h
    cases h
  | some collection =>
    rw [hcollection] at h
    cases h
    rintro id stored ⟨found, hfound, hstored⟩
    simp only [Function.update_self, Option.some.injEq] at hfound
    subst hfound
    simpa using (Option.filter_eq_some_iff.mp hstored).2

/-- Removing an object leaves the rows and the vectors, and no object. -/
theorem removeObject_spec {key : String} {given : Given (Reply (.removeObject key))} {reply : Except Exc Unit}
    (h : s.respond (.removeObject key) given = (s', reply)) :
    s'.documents = s.documents ∧ s'.chunks = s.chunks ∧ s'.vectors = s.vectors ∧
      (s'.objects key = none ∨ s' = s ∧ ∃ error, given = .refused error) := by
  cases given with
  | refused error =>
    cases h
    exact ⟨rfl, rfl, rfl, .inr ⟨rfl, error, rfl⟩⟩
  | lost reply' error =>
    cases h
    exact ⟨rfl, rfl, rfl, .inl (Function.update_self _ _ _)⟩
  | answered reply' =>
    cases h
    exact ⟨rfl, rfl, rfl, .inl (Function.update_self _ _ _)⟩

/-- Deleting the rows of a document leaves the vectors and the objects, and none of its rows. -/
theorem deleteDocument_spec {documentId : ℕ} {given : Given (Reply (.deleteDocument documentId))}
    {reply : Except Exc Unit} (h : s.respond (.deleteDocument documentId) given = (s', reply)) :
    s'.vectors = s.vectors ∧ s'.objects = s.objects ∧
      (((∀ row ∈ s'.documents.rows, row.id ≠ documentId) ∧ ∀ row ∈ s'.chunks.rows, row.documentId ≠ documentId) ∨
        s' = s ∧ ∃ error, reply = .error error) := by
  rcases Stores.respond_inv h with ⟨rfl, error, rfl⟩ | ⟨given', reply', hout, -⟩
  · exact ⟨rfl, rfl, .inr ⟨rfl, error, rfl⟩⟩
  · cases hout
    refine ⟨rfl, rfl, .inl ⟨?_, ?_⟩⟩
    · intro row hrow
      simpa using ((s.documents.mem_deleteWhere _ row).mp hrow).2
    · intro row hrow
      simpa using ((s.chunks.mem_deleteWhere _ row).mp hrow).2

/-- Deleting vectors leaves the rows and the objects. -/
theorem deletePoints_spec {name : String} {documentId : ℕ} {given : Given (Reply (.deletePoints name documentId))}
    {reply : Except Exc Unit} (h : s.respond (.deletePoints name documentId) given = (s', reply)) :
    s'.documents = s.documents ∧ s'.chunks = s.chunks ∧ s'.objects = s.objects ∧
      (s' = s ∨ ∃ given', s.carryOut (.deletePoints name documentId) given' = .ok (s', ())) := by
  rcases Stores.respond_inv h with ⟨rfl, -⟩ | ⟨given', reply', hout, -⟩
  · exact ⟨rfl, rfl, rfl, .inl rfl⟩
  · have hkeep : s'.documents = s.documents ∧ s'.chunks = s.chunks ∧ s'.objects = s.objects := by
      simp only [Stores.carryOut] at hout
      cases hcollection : s.vectors name with
      | none =>
        rw [hcollection] at hout
        cases hout
      | some collection =>
        rw [hcollection] at hout
        cases hout
        exact ⟨rfl, rfl, rfl⟩
    exact ⟨hkeep.1, hkeep.2.1, hkeep.2.2, .inr ⟨given', hout⟩⟩

end Calls

/-- The run of a deletion, call by call. -/
theorem run_deleteDocumentFully {σ : Type} (answer : σ → (c : Call) → σ × Except Exc (Reply c))
    (location : Location) (w : σ) :
    (deleteDocumentFully location).run answer w =
      match answer w (.deletePoints (collectionName location.collectionId) location.documentId) with
      | (w₁, .error error) => (w₁, .error error)
      | (w₁, .ok _) => answer (answer w₁ (.removeObject location.uri)).1 (.deleteDocument location.documentId) := by
  unfold deleteDocumentFully
  rw [Prog.run_bind, Prog.run_call]
  cases answer w (.deletePoints (collectionName location.collectionId) location.documentId) with
  | mk w₁ reply =>
    cases reply with
    | error error => rfl
    | ok value =>
      show Prog.run _ (discard _ >>= _) w₁ = _
      rw [Prog.run_discard_attempt, Prog.run_call, Prog.run_call]

/-! ## One attempt -/

/-- The calls of a deletion: the rows are deleted when neither a vector nor the object is left. -/
def deletionProtocol (location : Location) : Protocol Call Reply Exc Stores where
  allowed s c :=
    match c with
    | .deletePoints name documentId =>
      name = collectionName location.collectionId ∧ documentId = location.documentId
    | .removeObject key => key = location.uri
    | .deleteDocument documentId =>
      documentId = location.documentId ∧ NoVectors location s ∧ s.objects location.uri = none
    | _ => False
  answers s c reply s' := (∃ given, s.respond c given = (s', reply)) ∧
    (c = .removeObject location.uri → s'.objects location.uri = none)

section Attempts

variable {location : Location} {s s' : Stores}

/-- A deletion keeps to its calls, and leaves nothing when it returns. -/
theorem ensures_deleteDocumentFully (location : Location) (s : Stores) :
    (deletionProtocol location).Ensures (fun result s' => result = .ok () → NothingLeft location s')
      (deleteDocumentFully location) s := by
  apply Protocol.ensures_call_bind
  · exact ⟨rfl, rfl⟩
  rintro (error | ⟨⟨⟩⟩) s₁ ⟨⟨given, hpoints⟩, -⟩
  · intro h
    cases h
  obtain ⟨given', hout⟩ := Stores.carryOut_of_ok hpoints
  have hvectors := noVectors_of_deletePoints hout
  apply Protocol.ensures_bind.mpr
  apply Protocol.ensures_discard.mpr
  apply Protocol.ensures_attempt.mpr
  apply Protocol.ensures_call.mpr
  refine ⟨rfl, ?_⟩
  rintro removed s₂ ⟨⟨given₂, hremoved⟩, hobject⟩
  have hsame := (removeObject_spec hremoved).2.2.1
  have hvectors₂ : NoVectors location s₂ := by
    intro id stored hholds
    apply hvectors id stored
    rw [Stores.Holds, ← hsame]
    exact hholds
  apply Protocol.ensures_call.mpr
  refine ⟨⟨rfl, hvectors₂, hobject rfl⟩, ?_⟩
  rintro reply s₃ ⟨⟨given₃, hrows⟩, -⟩ rfl
  obtain ⟨hsame₃, hobjects₃, ⟨hrow, hchunks⟩ | ⟨-, error, herror⟩⟩ := deleteDocument_spec hrows
  · refine ⟨?_, ?_, hrow, hchunks⟩
    · intro id stored hholds
      apply hvectors₂ id stored
      rw [Stores.Holds, ← hsame₃]
      exact hholds
    · rw [hobjects₃]
      exact hobject rfl
  · cases herror

/-- The calls of a deletion keep the row as long as a vector or the object is left. -/
theorem rowOutlives_answer {c : Call} {reply : Except Exc (Reply c)} (h : RowOutlives location s)
    (hallowed : (deletionProtocol location).allowed s c)
    (hreply : (deletionProtocol location).answers s c reply s') : RowOutlives location s' := by
  obtain ⟨⟨given, hgiven⟩, hobject⟩ := hreply
  cases c with
  | deletePoints name documentId =>
    obtain ⟨rfl, rfl⟩ := hallowed
    obtain ⟨hdocuments, -, hobjects, rfl | ⟨given', hout⟩⟩ := deletePoints_spec hgiven
    · exact h
    · rcases h with hrow | ⟨-, hnone⟩
      · exact .inl (hdocuments ▸ hrow)
      · exact .inr ⟨noVectors_of_deletePoints hout, hobjects ▸ hnone⟩
  | removeObject key =>
    cases hallowed
    obtain ⟨hdocuments, -, hvectors, -⟩ := removeObject_spec hgiven
    rcases h with hrow | ⟨hnone, -⟩
    · exact .inl (hdocuments ▸ hrow)
    · refine .inr ⟨?_, hobject rfl⟩
      intro id stored hholds
      apply hnone id stored
      rw [Stores.Holds, ← hvectors]
      exact hholds
  | deleteDocument documentId =>
    obtain ⟨rfl, hnone, hnoObject⟩ := hallowed
    obtain ⟨hvectors, hobjects, -⟩ := deleteDocument_spec hgiven
    refine .inr ⟨?_, hobjects ▸ hnoObject⟩
    intro id stored hholds
    apply hnone id stored
    rw [Stores.Holds, ← hvectors]
    exact hholds
  | _ => exact hallowed.elim

/-- An answer keeps to the protocol unless a removal is refused while the object is there. -/
theorem deletion_answers {surroundings : Surroundings} {w : World} {c : Call}
    (h : RemovesObject surroundings location w c) :
    (deletionProtocol location).answers w.stores c (w.answer surroundings c).2
      (w.answer surroundings c).1.stores := by
  refine ⟨⟨surroundings w.tick c, rfl⟩, ?_⟩
  rintro rfl
  obtain ⟨-, -, -, hgone | ⟨hsame, error, hrefused⟩⟩ := removeObject_spec
    (rfl : w.stores.respond (.removeObject location.uri) (surroundings w.tick (.removeObject location.uri)) = _)
  · exact hgone
  · by_contra hobject
    have hthere : w.stores.objects location.uri ≠ none := hsame ▸ hobject
    exact h rfl hthere error hrefused

end Attempts

/-! ## Retries -/

/-- Attempts one after another; each one is stopped after a number of calls, or ends before. -/
def attempts (surroundings : Surroundings) (location : Location) (budgets : List ℕ) (w : World) : World :=
  budgets.foldl
    (fun w budget => ((deleteDocumentFully location).runFor (World.answer surroundings) budget w).1) w

/-- No attempt has a removal refused while the object is there. -/
def RemovesThroughout (surroundings : Surroundings) (location : Location) : List ℕ → World → Prop
  | [], _ => True
  | budget :: rest, w =>
    (deleteDocumentFully location).AlongFor (World.answer surroundings) (RemovesObject surroundings location)
      budget w ∧
    RemovesThroughout surroundings location rest
      ((deleteDocumentFully location).runFor (World.answer surroundings) budget w).1

section Retries

variable {surroundings : Surroundings} {location : Location}

/-- One attempt keeps the row while something is left, and leaves nothing when it returns. -/
theorem attempt_spec {w : World} (budget : ℕ) (h : RowOutlives location w.stores)
    (halong : (deleteDocumentFully location).AlongFor (World.answer surroundings)
      (RemovesObject surroundings location) budget w) :
    RowOutlives location
        ((deleteDocumentFully location).runFor (World.answer surroundings) budget w).1.stores ∧
      (((deleteDocumentFully location).runFor (World.answer surroundings) budget w).2 = some (.ok ()) →
        NothingLeft location
          ((deleteDocumentFully location).runFor (World.answer surroundings) budget w).1.stores) := by
  have hrun := (ensures_deleteDocumentFully location w.stores).runFor_along World.stores
    (fun w => RowOutlives location w.stores)
    (fun w c houtlives hallowed hcondition =>
      ⟨deletion_answers hcondition, rowOutlives_answer houtlives hallowed (deletion_answers hcondition)⟩)
    budget h halong
  exact ⟨hrun.1, fun hresult => hrun.2 _ hresult rfl⟩

/-- However often the deletion of a document is attempted, whatever fails and wherever the process
stops: if no removal is refused while the object is there, the row is present as long as a vector or
the object is left, and an attempt that returns leaves nothing in any of the three stores. -/
theorem attempts_rowOutlive (budgets : List ℕ) (w : World) (h : RowOutlives location w.stores)
    (halong : RemovesThroughout surroundings location budgets w) :
    RowOutlives location (attempts surroundings location budgets w).stores ∧
      ∀ earlier budget, budgets = earlier ++ [budget] →
        ((deleteDocumentFully location).runFor (World.answer surroundings) budget
          (attempts surroundings location earlier w)).2 = some (.ok ()) →
        NothingLeft location (attempts surroundings location budgets w).stores := by
  induction budgets generalizing w with
  | nil =>
    refine ⟨h, fun earlier budget hsplit => ?_⟩
    simp at hsplit
  | cons budget rest ih =>
    have hattempt := attempt_spec budget h halong.1
    have hrest := ih _ hattempt.1 halong.2
    refine ⟨hrest.1, fun earlier last hsplit hresult => ?_⟩
    cases earlier with
    | nil =>
      obtain ⟨rfl, rfl⟩ : budget = last ∧ rest = [] := by simpa using hsplit
      exact hattempt.2 hresult
    | cons first earlier =>
      obtain ⟨rfl, hlast⟩ : budget = first ∧ rest = earlier ++ [last] := by simpa using hsplit
      exact hrest.2 earlier last hlast hresult

end Retries

/-- One document with its object, in a collection without vectors. -/
def oneDocument : Stores where
  documents := KeyedRows.empty.addIfNew ⟨0, 0, "0/a.txt", "ready", "not_needed", 0⟩
  chunks := .empty
  retentionDays _ := none
  vectors _ := some ⟨1, fun _ => none⟩
  objects key := if key = "0/a.txt" then some [] else none
  embedded := []

/-- Where that document is. -/
def oneLocation : Location := ⟨0, 0, "0/a.txt"⟩

/-- A process that stops after the vectors are gone is restarted, and the second attempt leaves nothing. -/
theorem attempts_rowOutlive_restart :
    NothingLeft oneLocation (attempts .calm oneLocation [1, 3] ⟨0, oneDocument⟩).stores := by
  refine (attempts_rowOutlive [1, 3] ⟨0, oneDocument⟩ (.inl ⟨_, List.mem_singleton_self _, rfl⟩) ?_).2 [1] 3 rfl rfl
  have hcalm : ∀ w c, RemovesObject .calm oneLocation w c := by
    intro w c _ _ error h
    cases h
  exact ⟨⟨hcalm _ _, trivial⟩, ⟨hcalm _ _, hcalm _ _, hcalm _ _, trivial⟩, trivial⟩

/-- When the object store refuses the removal, the deletion returns, and the object is left without a row. -/
theorem delete_leaves_object :
    ∃ surroundings : Surroundings,
      ((deleteDocumentFully oneLocation).runFor (World.answer surroundings) 3 ⟨0, oneDocument⟩).2 = some (.ok ()) ∧
      ¬ RowOutlives oneLocation (attempts surroundings oneLocation [3] ⟨0, oneDocument⟩).stores := by
  refine ⟨fun _ c => match c with
    | .removeObject _ => .refused ⟨.external, "connection refused"⟩
    | c => .answered (plainReply c), rfl, ?_⟩
  rintro (⟨row, hrow, -⟩ | ⟨-, hobject⟩)
  · cases hrow
  · cases hobject

end FleetWorkflow.Rag
