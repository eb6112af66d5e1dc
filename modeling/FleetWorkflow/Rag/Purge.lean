import FleetWorkflow.Rag.Deletion

/-!
# The retention purge

Which documents one purge deletes. The failure of one deletion ends the loop, so that the documents
whose rows come later are not purged in this run.
-/

namespace FleetWorkflow.Rag

open Python Async Store

/-! ## What a purge should do -/

/-- What happens to each call during a purge; no call is made twice for one document. -/
abbrev Answers := (c : Call) → Given (Reply c)

/-- Answer a call. -/
def Stores.answer (answers : Answers) (s : Stores) (c : Call) : Stores × Except Exc (Reply c) :=
  s.respond c (answers c)

/-- A call is carried out and its reply arrives. -/
def Given.isAnswered {ρ : Type} : Given ρ → Bool
  | .answered _ => true
  | _ => false

/-- The deletion of a document fails: the vectors are not deleted, for a failure or because their
collection is missing, or the rows are not. -/
def deletionFails (answers : Answers) (s : Stores) (location : Location) : Bool :=
  !(answers (.deletePoints (collectionName location.collectionId) location.documentId)).isAnswered ||
    (s.vectors (collectionName location.collectionId)).isNone ||
    !(answers (.deleteDocument location.documentId)).isAnswered

/-- The age of a document has reached the retention of its collection. -/
def Expired (now : ℤ) (row : RetentionRow) : Prop := row.retentionDays * dayMicroseconds ≤ now - row.createdAt

instance (now : ℤ) (row : RetentionRow) : Decidable (Expired now row) := by
  unfold Expired
  infer_instance

/-- A document is expired and its deletion does not fail. -/
def Deletable (answers : Answers) (now : ℤ) (s : Stores) (row : RetentionRow) : Prop :=
  Expired now row ∧ deletionFails answers s row.location = false

/-- Neither a row nor a vector of a document is left. -/
structure Purged (location : Location) (s : Stores) : Prop where
  row : ∀ row ∈ s.documents.rows, row.id ≠ location.documentId
  chunks : ∀ row ∈ s.chunks.rows, row.documentId ≠ location.documentId
  vectors : NoVectors location s

/-- The rows and the vectors of a document are as they were. -/
structure Untouched (documentId : ℕ) (s s' : Stores) : Prop where
  rows : ∀ row, row.id = documentId → (row ∈ s'.documents.rows ↔ row ∈ s.documents.rows)
  chunks : ∀ row, row.documentId = documentId → (row ∈ s'.chunks.rows ↔ row ∈ s.chunks.rows)
  vectors : ∀ name id stored, stored.2.documentId = documentId → (s'.Holds name id stored ↔ s.Holds name id stored)

/-- Every expired document whose deletion does not fail is deleted, and no unexpired document is. -/
def PurgesExactly (answers : Answers) (now : ℤ) (s s' : Stores) : Prop :=
  (∀ row ∈ s.retentionRows, Deletable answers now s row → Purged row.location s') ∧
    (∀ row ∈ s.retentionRows, ¬ Expired now row → Untouched row.documentId s s') ∧
    ∀ row ∈ s.documents.rows, s.retentionDays row.collectionId = none → Untouched row.id s s'

/-- A row at which the loop ends: its document is expired and the deletion fails, or the number of days
is out of range. -/
def endsLoop (answers : Answers) (now : ℤ) (s : Stores) (row : RetentionRow) : Bool :=
  match isExpired row.createdAt (some row.retentionDays) now with
  | .ok expired => expired && deletionFails answers s row.location
  | .error _ => true

/-- The rows that a purge does not get past. -/
def unreached (answers : Answers) (now : ℤ) (s : Stores) : List RetentionRow :=
  if (answers .retentionRows).isAnswered then s.retentionRows.dropWhile fun row => !endsLoop answers now s row
  else s.retentionRows

/-! ## What deletions leave as it is -/

/-- Deletions of some documents: the others are kept, nothing is added, and no collection is dropped. -/
structure DeletesOnly (ids : ℕ → Prop) (s s' : Stores) : Prop where
  kept : ∀ documentId, ¬ ids documentId → Untouched documentId s s'
  rows : ∀ row ∈ s'.documents.rows, row ∈ s.documents.rows
  chunks : ∀ row ∈ s'.chunks.rows, row ∈ s.chunks.rows
  vectors : ∀ name id stored, s'.Holds name id stored → s.Holds name id stored
  collections : ∀ name, (s'.vectors name).isNone = (s.vectors name).isNone

section Deletions

variable {ids : ℕ → Prop} {s s' s'' : Stores}

theorem Untouched.refl (documentId : ℕ) (s : Stores) : Untouched documentId s s :=
  ⟨fun _ _ => Iff.rfl, fun _ _ => Iff.rfl, fun _ _ _ _ => Iff.rfl⟩

theorem Untouched.trans {documentId : ℕ} (h : Untouched documentId s s') (h' : Untouched documentId s' s'') :
    Untouched documentId s s'' where
  rows row hrow := (h'.rows row hrow).trans (h.rows row hrow)
  chunks row hrow := (h'.chunks row hrow).trans (h.chunks row hrow)
  vectors name id stored hstored := (h'.vectors name id stored hstored).trans (h.vectors name id stored hstored)

theorem DeletesOnly.refl (ids : ℕ → Prop) (s : Stores) : DeletesOnly ids s s :=
  ⟨fun documentId _ => .refl documentId s, fun _ h => h, fun _ h => h, fun _ _ _ h => h, fun _ => rfl⟩

theorem DeletesOnly.trans (h : DeletesOnly ids s s') (h' : DeletesOnly ids s' s'') : DeletesOnly ids s s'' where
  kept documentId hid := (h.kept documentId hid).trans (h'.kept documentId hid)
  rows row hrow := h.rows row (h'.rows row hrow)
  chunks row hrow := h.chunks row (h'.chunks row hrow)
  vectors name id stored hholds := h.vectors name id stored (h'.vectors name id stored hholds)
  collections name := (h'.collections name).trans (h.collections name)

theorem DeletesOnly.mono {ids' : ℕ → Prop} (h : DeletesOnly ids s s') (hids : ∀ id, ids id → ids' id) :
    DeletesOnly ids' s s' :=
  ⟨fun documentId hid => h.kept documentId fun h => hid (hids _ h), h.rows, h.chunks, h.vectors, h.collections⟩

/-- What is purged stays purged. -/
theorem Purged.of_deletesOnly {location : Location} (h : Purged location s) (hdeletes : DeletesOnly ids s s') :
    Purged location s' where
  row row hrow := h.row row (hdeletes.rows row hrow)
  chunks row hrow := h.chunks row (hdeletes.chunks row hrow)
  vectors id stored hholds := h.vectors id stored (hdeletes.vectors _ id stored hholds)

/-- The calls that delete documents of some kind. -/
def DeletesCall (ids : ℕ → Prop) : Call → Prop
  | .deletePoints _ documentId => ids documentId
  | .removeObject _ => True
  | .deleteDocument documentId => ids documentId
  | .retentionRows => True
  | _ => False

/-- Deleting the vectors of a document from one collection. -/
theorem deletesOnly_deletePoints {name : String} {documentId : ℕ} (hid : ids documentId) {given : Unit}
    (h : s.carryOut (.deletePoints name documentId) given = .ok (s', ())) : DeletesOnly ids s s' := by
  simp only [Stores.carryOut] at h
  cases hcollection : s.vectors name with
  | none =>
    rw [hcollection] at h
    cases h
  | some collection =>
    rw [hcollection] at h
    cases h
    have hholds : ∀ other id stored,
        Stores.Holds { s with vectors := Function.update s.vectors name (some (collection.deletePoints documentId)) }
          other id stored ↔ s.Holds other id stored ∧ (other = name → stored.2.documentId ≠ documentId) := by
      intro other id stored
      by_cases hother : other = name
      · subst hother
        simp [Stores.Holds, hcollection, VectorCollection.deletePoints, Option.filter_eq_some_iff]
      · simp [Stores.Holds, hother]
    refine ⟨fun other hother => ⟨fun _ _ => Iff.rfl, fun _ _ => Iff.rfl, ?_⟩, fun _ h => h, fun _ h => h, ?_, ?_⟩
    · intro at_ id stored hstored
      rw [hholds, and_iff_left_iff_imp]
      rintro - - rfl
      exact hother (hstored ▸ hid)
    · exact fun at_ id stored hstored => ((hholds at_ id stored).mp hstored).1
    · intro other
      by_cases hother : other = name
      · subst hother
        simp [hcollection]
      · simp [hother]

/-- Deleting the rows of a document. -/
theorem deletesOnly_deleteDocument {documentId : ℕ} (hid : ids documentId) :
    DeletesOnly ids s
      { s with chunks := s.chunks.deleteWhere fun row => row.documentId = documentId
               documents := s.documents.deleteWhere fun row => row.id = documentId } := by
  refine ⟨fun other hother => ⟨?_, ?_, fun _ _ _ _ => Iff.rfl⟩, ?_, ?_, fun _ _ _ h => h, fun _ => rfl⟩
  · rintro row rfl
    have hne : row.id ≠ documentId := fun h => hother (h ▸ hid)
    simp [hne]
  · rintro row rfl
    have hne : row.documentId ≠ documentId := fun h => hother (h ▸ hid)
    simp [hne]
  · exact fun row hrow => ((s.documents.mem_deleteWhere _ row).mp hrow).1
  · exact fun row hrow => ((s.chunks.mem_deleteWhere _ row).mp hrow).1

/-- A deleting call deletes its documents only, whatever happens to it. -/
theorem deletesOnly_respond {c : Call} {given : Given (Reply c)} {reply : Except Exc (Reply c)}
    (hc : DeletesCall ids c) (h : s.respond c given = (s', reply)) : DeletesOnly ids s s' := by
  rcases Stores.respond_inv h with ⟨rfl, -⟩ | ⟨given', reply', hout, -⟩
  · exact .refl ids s'
  · cases c with
    | deletePoints name documentId => exact deletesOnly_deletePoints hc hout
    | deleteDocument documentId =>
      cases hout
      exact deletesOnly_deleteDocument hc
    | removeObject key =>
      cases hout
      exact ⟨fun documentId _ => ⟨fun _ _ => Iff.rfl, fun _ _ => Iff.rfl, fun _ _ _ _ => Iff.rfl⟩,
        fun _ h => h, fun _ h => h, fun _ _ _ h => h, fun _ => rfl⟩
    | retentionRows =>
      cases hout
      exact .refl ids s
    | _ => exact hc.elim

end Deletions

/-! ## What the loop does -/

section Loop

variable {answers : Answers} {now : ℤ} {s : Stores}

/-- A coroutine of deleting calls deletes their documents only. -/
theorem deletesOnly_run {α : Type} {ids : ℕ → Prop} {p : Coroutine α} (hp : p.Only (DeletesCall ids)) (s : Stores) :
    DeletesOnly ids s (p.run (Stores.answer answers) s).1 := by
  induction p generalizing s with
  | done value => exact .refl ids s
  | raise error => exact .refl ids s
  | await c next ih => exact (deletesOnly_respond hp.1 rfl).trans (ih _ (hp.2 _) _)

/-- The deletion of a document makes calls that delete it. -/
theorem only_deleteDocumentFully {ids : ℕ → Prop} (location : Location) (hid : ids location.documentId) :
    (deleteDocumentFully location).Only (DeletesCall ids) := by
  have hpoints : DeletesCall ids (.deletePoints (collectionName location.collectionId) location.documentId) := hid
  have hobject : DeletesCall ids (.removeObject location.uri) := trivial
  have hrows : DeletesCall ids (.deleteDocument location.documentId) := hid
  apply (Prog.only_call hpoints).bind
  intro deleted
  refine Prog.Only.bind ?_ fun removed => Prog.only_call hrows
  exact (Prog.only_call hobject).attempt.bind fun _ => trivial

/-- The deletion of the vectors succeeds when the call is answered and the collection is there. -/
theorem answer_deletePoints {name : String} {documentId : ℕ} :
    (∃ reply, (s.answer answers (.deletePoints name documentId)).2 = .ok reply) ↔
      (answers (.deletePoints name documentId)).isAnswered = true ∧ (s.vectors name).isNone = false := by
  simp only [Stores.answer]
  cases answers (.deletePoints name documentId) with
  | refused error => simp [Stores.respond, Given.isAnswered]
  | lost reply error =>
    cases hcollection : s.vectors name <;>
      simp [Stores.respond, Stores.carryOut, Given.isAnswered, hcollection]
  | answered reply =>
    cases hcollection : s.vectors name <;>
      simp [Stores.respond, Stores.carryOut, Given.isAnswered, hcollection]

/-- The deletion of the rows succeeds when the call is answered. -/
theorem answer_deleteDocument {documentId : ℕ} :
    (∃ reply, (s.answer answers (.deleteDocument documentId)).2 = .ok reply) ↔
      (answers (.deleteDocument documentId)).isAnswered = true := by
  simp only [Stores.answer]
  cases answers (.deleteDocument documentId) <;> simp [Stores.respond, Stores.carryOut, Given.isAnswered]

/-- A deletion returns unless it fails. -/
theorem run_deletion_ok_iff (location : Location) (s : Stores) :
    (∃ value, ((deleteDocumentFully location).run (Stores.answer answers) s).2 = .ok value) ↔
      deletionFails answers s location = false := by
  have hfirst : (∃ reply, (s.answer answers
      (.deletePoints (collectionName location.collectionId) location.documentId)).2 = .ok reply) ↔ _ :=
    answer_deletePoints
  rw [run_deleteDocumentFully]
  simp only [deletionFails, Bool.or_eq_false_iff, Bool.not_eq_false']
  cases hpoints : s.answer answers (.deletePoints (collectionName location.collectionId) location.documentId) with
  | mk s₁ reply =>
    rw [hpoints] at hfirst
    cases reply with
    | error error =>
      refine ⟨fun h => (by cases h.choose_spec), fun h => ?_⟩
      obtain ⟨reply, hreply⟩ := hfirst.mpr h.1
      cases hreply
    | ok value =>
      have hboth := hfirst.mp ⟨value, rfl⟩
      rw [answer_deleteDocument]
      simp [hboth.1, hboth.2]

/-- A deletion that returns leaves neither a row nor a vector. -/
theorem purged_of_run_deletion {location : Location} {value : Unit}
    (h : ((deleteDocumentFully location).run (Stores.answer answers) s).2 = .ok value) :
    Purged location ((deleteDocumentFully location).run (Stores.answer answers) s).1 := by
  rw [run_deleteDocumentFully] at h ⊢
  cases hpoints : s.answer answers (.deletePoints (collectionName location.collectionId) location.documentId) with
  | mk s₁ reply =>
    rw [hpoints] at h
    cases reply with
    | error error => cases h
    | ok deleted =>
      obtain ⟨given, hout⟩ := Stores.carryOut_of_ok hpoints
      have hvectors := noVectors_of_deletePoints hout
      obtain ⟨-, -, hsame, -⟩ := removeObject_spec
        (rfl : s₁.respond (.removeObject location.uri) (answers (.removeObject location.uri)) = _)
      obtain ⟨hsame', -, ⟨hrow, hchunks⟩ | ⟨-, error, herror⟩⟩ := deleteDocument_spec
        (rfl : Stores.respond _ (.deleteDocument location.documentId) (answers (.deleteDocument location.documentId)) = _)
      · refine ⟨hrow, hchunks, fun id stored hholds => hvectors id stored ?_⟩
        obtain ⟨collection, hcollection, hstored⟩ := hholds
        exact ⟨collection, hsame ▸ hsame' ▸ hcollection, hstored⟩
      · exact absurd (h.symm.trans herror) (by simp)

/-- The verdict on a row in range is the comparison of its age. -/
theorem isExpired_eq_ok {row : RetentionRow} {expired : Bool}
    (h : isExpired row.createdAt (some row.retentionDays) now = .ok expired) :
    expired = decide (Expired now row) := by
  unfold isExpired timedeltaDays at h
  simp only at h
  split at h
  · cases h
    rfl
  · cases h

/-- Whether a deletion fails does not depend on what other deletions have deleted. -/
theorem deletionFails_of_deletesOnly {ids : ℕ → Prop} {s' : Stores} (h : DeletesOnly ids s s') (location : Location) :
    deletionFails answers s' location = deletionFails answers s location := by
  simp only [deletionFails, h.collections]

theorem endsLoop_of_deletesOnly {ids : ℕ → Prop} {s' : Stores} (h : DeletesOnly ids s s') (row : RetentionRow) :
    endsLoop answers now s' row = endsLoop answers now s row := by
  simp only [endsLoop, deletionFails_of_deletesOnly h]

/-- The loop up to the first row that it does not get past: the expired documents are purged, the later
ones whose deletion would not fail are untouched, and nothing else is deleted. -/
theorem purgeRows_spec (rows : List RetentionRow) (purged : List ℕ) (s : Stores)
    (hdistinct : (rows.map RetentionRow.documentId).Nodup) :
    (∀ row ∈ rows.takeWhile fun row => !endsLoop answers now s row, Expired now row →
      Purged row.location ((purgeRows now purged rows).run (Stores.answer answers) s).1) ∧
    (∀ row ∈ rows.dropWhile fun row => !endsLoop answers now s row, deletionFails answers s row.location = false →
      Untouched row.documentId s ((purgeRows now purged rows).run (Stores.answer answers) s).1) ∧
    DeletesOnly (fun documentId => ∃ row ∈ rows, Expired now row ∧ row.documentId = documentId) s
      ((purgeRows now purged rows).run (Stores.answer answers) s).1 := by
  induction rows generalizing purged s with
  | nil => exact ⟨by simp, by simp, .refl _ s⟩
  | cons row rest ih =>
    obtain ⟨hnew, hdistinct⟩ := List.nodup_cons.mp hdistinct
    cases hexpired : isExpired row.createdAt (some row.retentionDays) now with
    | error error =>
      have hends : endsLoop answers now s row = true := by simp [endsLoop, hexpired]
      have hrun : (purgeRows now purged (row :: rest)).run (Stores.answer answers) s = (s, .error error) := by
        rw [purgeRows, hexpired]
        rfl
      rw [hrun]
      refine ⟨?_, fun _ _ _ => .refl _ s, .refl _ s⟩
      rw [List.takeWhile_cons_of_neg (by simp [hends])]
      simp
    | ok expired =>
      have hverdict := isExpired_eq_ok hexpired
      cases expired with
      | false =>
        have hpass : endsLoop answers now s row = false := by simp [endsLoop, hexpired]
        have hrun : (purgeRows now purged (row :: rest)).run (Stores.answer answers) s =
            (purgeRows now purged rest).run (Stores.answer answers) s := by
          rw [purgeRows, hexpired]
          rfl
        have hrest := ih purged s hdistinct
        rw [hrun, List.takeWhile_cons_of_pos (by simp [hpass]), List.dropWhile_cons_of_pos (by simp [hpass])]
        refine ⟨?_, hrest.2.1, ?_⟩
        · intro other hother hotherExpired
          rcases List.mem_cons.mp hother with rfl | hother
          · exact absurd hotherExpired (by simpa using hverdict)
          · exact hrest.1 other hother hotherExpired
        · exact hrest.2.2.mono fun id ⟨other, hother, h⟩ => ⟨other, List.mem_cons_of_mem _ hother, h⟩
      | true =>
        have hrow : Expired now row := by simpa using hverdict
        have hcalls : (deleteDocumentFully row.location).Only
            (DeletesCall fun documentId => documentId = row.documentId) :=
          only_deleteDocumentFully row.location rfl
        have hdeletes : DeletesOnly (fun documentId => documentId = row.documentId) s
            ((deleteDocumentFully row.location).run (Stores.answer answers) s).1 := deletesOnly_run hcalls s
        have hids : DeletesOnly (fun documentId => ∃ other ∈ row :: rest, Expired now other ∧
            other.documentId = documentId) s ((deleteDocumentFully row.location).run (Stores.answer answers) s).1 :=
          hdeletes.mono fun id hid => ⟨row, List.mem_cons_self, hrow, hid.symm⟩
        have hrun : (purgeRows now purged (row :: rest)).run (Stores.answer answers) s =
            (deleteDocumentFully row.location >>= fun _ =>
              purgeRows now (purged ++ [row.documentId]) rest).run (Stores.answer answers) s := by
          rw [purgeRows, hexpired]
          rfl
        have hother : ∀ other ∈ rest, other.documentId ≠ row.documentId := fun other hmem heq =>
          hnew (heq ▸ List.mem_map_of_mem hmem)
        have hresult : _ ↔ deletionFails answers s row.location = false := run_deletion_ok_iff row.location s
        rw [hrun]
        cases hvalue : ((deleteDocumentFully row.location).run (Stores.answer answers) s).2 with
        | error error =>
          have hfails : deletionFails answers s row.location = true := by
            rw [← Bool.not_eq_false, ← hresult, hvalue]
            simp
          have hends : endsLoop answers now s row = true := by simp [endsLoop, hexpired, hfails]
          rw [Prog.run_bind_of_error hvalue, List.takeWhile_cons_of_neg (by simp [hends]),
            List.dropWhile_cons_of_neg (by simp [hends])]
          refine ⟨by simp, fun other hmem hsucceeds => ?_, hids⟩
          rcases List.mem_cons.mp hmem with rfl | hmem
          · rw [hfails] at hsucceeds
            cases hsucceeds
          · exact hdeletes.kept _ (hother other hmem)
        | ok value =>
          have hsucceeds : deletionFails answers s row.location = false := hresult.mp ⟨value, hvalue⟩
          have hpass : endsLoop answers now s row = false := by simp [endsLoop, hexpired, hsucceeds]
          have hpurged := purged_of_run_deletion hvalue
          have hrest := ih (purged ++ [row.documentId])
            ((deleteDocumentFully row.location).run (Stores.answer answers) s).1 hdistinct
          simp only [endsLoop_of_deletesOnly hdeletes, deletionFails_of_deletesOnly hdeletes] at hrest
          rw [Prog.run_bind_of_ok hvalue, List.takeWhile_cons_of_pos (by simp [hpass]),
            List.dropWhile_cons_of_pos (by simp [hpass])]
          refine ⟨fun other hmem hexpired => ?_, fun other hmem hsucceeds => ?_, ?_⟩
          · rcases List.mem_cons.mp hmem with rfl | hmem
            · exact hpurged.of_deletesOnly hrest.2.2
            · exact hrest.1 other hmem hexpired
          · have hrestMem : other ∈ rest := (List.dropWhile_suffix _).subset hmem
            exact (hdeletes.kept _ (hother other hrestMem)).trans (hrest.2.1 other hmem hsucceeds)
          · exact hids.trans (hrest.2.2.mono fun id ⟨other, hmem, h⟩ => ⟨other, List.mem_cons_of_mem _ hmem, h⟩)

/-! ## One purge -/

/-- The run of a purge, from the rows of its query. -/
theorem run_purgeExpired (s : Stores) : ((purgeExpired now).run (Stores.answer answers) s).1 =
    if (answers .retentionRows).isAnswered then
      ((purgeRows now [] s.retentionRows).run (Stores.answer answers) s).1
    else s := by
  rw [purgeExpired, Prog.run_bind, Prog.run_call]
  simp only [Stores.answer]
  cases answers .retentionRows with
  | refused error => rfl
  | lost reply error => rfl
  | answered reply => rfl

/-- The rows of the retention query differ in their documents. -/
theorem nodup_retentionRows (s : Stores) : (s.retentionRows.map RetentionRow.documentId).Nodup := by
  have hsub : (s.retentionRows.map RetentionRow.documentId).Sublist (s.documents.rows.map DocumentRow.id) := by
    unfold Stores.retentionRows
    induction s.documents.rows with
    | nil => simp
    | cons row rest ih =>
      rw [List.filterMap_cons]
      cases s.retentionDays row.collectionId with
      | none => exact ih.cons _
      | some days => exact ih.cons_cons _
  exact s.documents.distinct.sublist hsub

/-- A document of the retention query that is untouched is not purged. -/
theorem not_purged_of_untouched {row : RetentionRow} {s' : Stores} (hrow : row ∈ s.retentionRows)
    (h : Untouched row.documentId s s') : ¬ Purged row.location s' := by
  obtain ⟨document, hmem, hdocument⟩ := List.mem_filterMap.mp hrow
  obtain ⟨days, -, rfl⟩ := Option.map_eq_some_iff.mp hdocument
  exact fun hpurged => hpurged.row document ((h.rows document rfl).mpr hmem) rfl

/-- A document that the query does not return, or returns as unexpired, is not among the expired ones. -/
theorem not_expired_row {row : RetentionRow} (hrow : row ∈ s.retentionRows) (h : ¬ Expired now row) :
    ¬ ∃ other ∈ s.retentionRows, Expired now other ∧ other.documentId = row.documentId := by
  rintro ⟨other, hmem, hexpired, hid⟩
  rw [List.inj_on_of_nodup_map (nodup_retentionRows s) hmem hrow hid] at hexpired
  exact h hexpired

end Loop

/-- Two expired documents; nothing was ever embedded for the collection of the first. -/
def twoExpired : Stores where
  documents := (KeyedRows.empty.addIfNew ⟨0, 0, "0/a.txt", "ready", "not_needed", 0⟩).addIfNew
    ⟨1, 1, "1/b.txt", "ready", "not_needed", 0⟩
  chunks := .empty
  retentionDays _ := some 1
  vectors name := if name = "fleet_1" then some ⟨1, fun _ => none⟩ else none
  objects _ := none
  embedded := []

end FleetWorkflow.Rag
