import FleetWorkflow.Api.Subjects

/-!
# What an erasure leaves

An erasure runs to its end, leaves nothing of its subject and keeps the rows of the others exactly when
no message of the subject has feedback, the stores delete each of the subject's documents, and the
subject's actor in the audit log is the first user with that hash. Feedback is the child that the
deletion forgets: one row of it and nothing at all is erased.
-/

namespace FleetWorkflow.Api

open Python Async Store Flow

/-! ## The records -/

namespace Records

variable {records records' : Records} {hash : String}

/-- No message of some conversations has feedback. -/
def NoFeedback (records : Records) (ofConversation : ℕ → Prop) : Prop :=
  ∀ feedback ∈ records.feedback.rows, ∀ message ∈ records.messages.rows, message.id = feedback.messageId →
    ¬ ofConversation message.convId

/-- The messages of some conversations are gone, and no other row. -/
structure DropsMessages (ofConversation : ℕ → Prop) (records records' : Records) : Prop where
  messages : ∀ message, message ∈ records'.messages.rows ↔
    message ∈ records.messages.rows ∧ ¬ ofConversation message.convId
  conversations : records'.conversations = records.conversations
  feedback : records'.feedback = records.feedback
  users : records'.users = records.users
  auditLog : records'.auditLog = records.auditLog

/-- Deleting the messages of one conversation. -/
theorem deleteMessages_spec (records : Records) (convId : ℕ) :
    ((∃ out, records.deleteMessages convId = .ok out) ↔ records.NoFeedback fun id => id = convId) ∧
      ∀ out, records.deleteMessages convId = .ok out → DropsMessages (fun id => id = convId) records out.1 := by
  have hfree : records.messages.isReferenced Feedback.messageId records.feedback.rows (isPart convId) = false ↔
      records.NoFeedback fun id => id = convId := by
    rw [KeyedRows.isReferenced_eq_false]
    simp only [NoFeedback, isPart, decide_eq_false_iff_not]
  rw [← hfree, deleteMessages]
  constructor
  · split <;> simp_all
  · intro out h
    split at h
    · cases h
      refine ⟨fun message => ?_, rfl, rfl, rfl, rfl⟩
      rw [KeyedRows.mem_deleteWhere, isPart, decide_eq_false_iff_not]
    · cases h

/-- Deleting the messages of one conversation after another. -/
theorem deleteMessagesOf_spec (convIds : List ℕ) (records : Records) (deleted : ℕ) :
    ((∃ out, records.deleteMessagesOf deleted convIds = .ok out) ↔ records.NoFeedback fun id => id ∈ convIds) ∧
      ∀ out, records.deleteMessagesOf deleted convIds = .ok out →
        DropsMessages (fun id => id ∈ convIds) records out.1 := by
  induction convIds generalizing records deleted with
  | nil =>
    constructor
    · simp [deleteMessagesOf, NoFeedback]
    · intro out h
      cases h
      exact ⟨fun message => by simp, rfl, rfl, rfl, rfl⟩
  | cons convId rest ih =>
    have hfirst := deleteMessages_spec records convId
    rw [deleteMessagesOf]
    cases hdelete : records.deleteMessages convId with
    | error error =>
      rw [hdelete] at hfirst
      constructor
      · simp only [bind, Except.bind, reduceCtorEq, exists_false, false_iff]
        intro hnone
        obtain ⟨out, hout⟩ := hfirst.1.mpr fun feedback hfeedback message hmessage hkey heq =>
          hnone feedback hfeedback message hmessage hkey (by simp [heq])
        cases hout
      · intro out h
        cases h
    | ok first =>
      rw [hdelete] at hfirst
      have hdrops := hfirst.2 first rfl
      have hnone := hfirst.1.mp ⟨first, rfl⟩
      obtain ⟨hok, hout⟩ := ih first.1 (deleted + first.2)
      constructor
      · refine hok.trans ?_
        simp only [NoFeedback, hdrops.feedback, hdrops.messages, List.mem_cons, not_or]
        constructor
        · intro h feedback hfeedback message hmessage hkey
          have hother := hnone feedback hfeedback message hmessage hkey
          exact ⟨hother, h feedback hfeedback message ⟨hmessage, hother⟩ hkey⟩
        · intro h feedback hfeedback message hmessage hkey
          exact (h feedback hfeedback message hmessage.1 hkey).2
      · intro out h
        have hrest := hout out h
        refine ⟨fun message => ?_, hrest.conversations.trans hdrops.conversations,
          hrest.feedback.trans hdrops.feedback, hrest.users.trans hdrops.users,
          hrest.auditLog.trans hdrops.auditLog⟩
        rw [hrest.messages, hdrops.messages, List.mem_cons, not_or, and_assoc]

/-- The conversations of a subject. -/
def OfSubject (records : Records) (hash : String) (convId : ℕ) : Prop :=
  ∃ conversation ∈ records.conversations.rows, conversation.id = convId ∧ conversation.subjectHash = some hash

/-- The conversations of a subject are gone with their messages, and no other row. -/
structure DropsSubject (hash : String) (records records' : Records) : Prop where
  conversations : ∀ conversation, conversation ∈ records'.conversations.rows ↔
    conversation ∈ records.conversations.rows ∧ conversation.subjectHash ≠ some hash
  messages : ∀ message, message ∈ records'.messages.rows ↔
    message ∈ records.messages.rows ∧ ¬ records.OfSubject hash message.convId
  feedback : records'.feedback = records.feedback
  users : records'.users = records.users
  auditLog : records'.auditLog = records.auditLog

/-- The ids that the query selects are those of the subject's conversations. -/
theorem mem_convIds (records : Records) (hash : String) (convId : ℕ) :
    convId ∈ (records.conversations.rows.filter (isAbout hash)).map Conversation.id ↔
      records.OfSubject hash convId := by
  simp only [List.mem_map, List.mem_filter, isAbout, decide_eq_true_eq, OfSubject]
  constructor
  · rintro ⟨conversation, ⟨hconversation, hhash⟩, hid⟩
    exact ⟨conversation, hconversation, hid, hhash⟩
  · rintro ⟨conversation, hconversation, hid, hhash⟩
    exact ⟨conversation, ⟨hconversation, hhash⟩, hid⟩

/-- When their messages are gone, the conversations of a subject can be deleted. -/
theorem deleteConversationRows_eq_ok (h : DropsMessages (records.OfSubject hash) records records') :
    ∃ out, records'.deleteConversationRows hash = .ok out ∧ DropsSubject hash records out := by
  have hfree : records'.conversations.isReferenced Message.convId records'.messages.rows (isAbout hash) = false := by
    apply KeyedRows.isReferenced_eq_false.mpr
    intro message hmessage conversation hconversation hkey
    rw [h.conversations] at hconversation
    have hother := ((h.messages message).mp hmessage).2
    by_contra habout
    apply hother
    exact ⟨conversation, hconversation, hkey, by simpa [isAbout] using habout⟩
  unfold deleteConversationRows
  rw [dif_pos hfree]
  refine ⟨_, rfl, ?_, h.messages, h.feedback, h.users, h.auditLog⟩
  intro conversation
  rw [KeyedRows.mem_deleteWhere, h.conversations, isAbout, decide_eq_false_iff_not]

/-- Deleting the conversations of a subject: it goes through when none of their messages has feedback. -/
theorem deleteConversations_spec (records : Records) (hash : String) :
    ((∃ out, records.deleteConversations hash = .ok out) ↔ records.NoFeedback (records.OfSubject hash)) ∧
      ∀ out, records.deleteConversations hash = .ok out → DropsSubject hash records out.1 := by
  have hids : (fun convId => convId ∈ (records.conversations.rows.filter (isAbout hash)).map Conversation.id) =
      records.OfSubject hash := by
    funext convId
    exact propext (mem_convIds records hash convId)
  have hmessages := deleteMessagesOf_spec
    ((records.conversations.rows.filter (isAbout hash)).map Conversation.id) records 0
  rw [hids] at hmessages
  cases hdelete : records.deleteMessagesOf 0 ((records.conversations.rows.filter (isAbout hash)).map Conversation.id) with
  | error error =>
    rw [hdelete] at hmessages
    simp only [deleteConversations, hdelete, bind, Except.bind]
    exact ⟨by simpa using hmessages.1, by simp⟩
  | ok first =>
    rw [hdelete] at hmessages
    have hnone := hmessages.1.mp ⟨first, rfl⟩
    have hdrops := hmessages.2 first rfl
    simp only [deleteConversations, hdelete, bind, Except.bind, pure, Except.pure]
    by_cases hempty : ((records.conversations.rows.filter (isAbout hash)).map Conversation.id).isEmpty = true
    · simp only [hempty, if_true]
      refine ⟨iff_of_true ⟨_, rfl⟩ hnone, fun out h => ?_⟩
      cases h
      refine ⟨fun conversation => ?_, hdrops.messages, hdrops.feedback, hdrops.users, hdrops.auditLog⟩
      rw [hdrops.conversations, iff_self_and]
      intro hconversation hhash
      have hid := (mem_convIds records hash conversation.id).mpr ⟨conversation, hconversation, rfl, hhash⟩
      rw [List.isEmpty_iff.mp hempty] at hid
      exact List.not_mem_nil hid
    · obtain ⟨last, hlast, hsubject⟩ := deleteConversationRows_eq_ok hdrops
      simp only [hempty, hlast]
      refine ⟨iff_of_true ⟨_, rfl⟩ hnone, fun out h => ?_⟩
      cases h
      exact hsubject

end Records

/-! ## The documents -/

section Documents

variable {py : Builtins} {answers : Rag.Answers}

/-- What deleting documents changes: the stores, and nothing but those documents in them. -/
structure DeletesDocuments (locations : List Rag.Location) (w w' : SubjectWorld) : Prop where
  purged : ∀ location ∈ locations, Rag.Purged location w'.archive.stores
  only : Rag.DeletesOnly (fun documentId => ∃ location ∈ locations, location.documentId = documentId)
    w.archive.stores w'.archive.stores
  filing : w'.archive.filing = w.archive.filing
  records : w'.records = w.records

/-- Deleting one document: it goes through unless the stores fail it. -/
theorem deleteDocumentFully_spec (answers : Rag.Answers) (w : SubjectWorld) (location : Rag.Location) :
    ((∃ value, (w.deleteDocumentFully answers location).2 = .ok value) ↔
        Rag.deletionFails answers w.archive.stores location = false) ∧
      ∀ value, (w.deleteDocumentFully answers location).2 = .ok value →
        DeletesDocuments [location] w (w.deleteDocumentFully answers location).1 := by
  refine ⟨Rag.run_deletion_ok_iff location w.archive.stores, fun value h => ?_⟩
  refine ⟨?_, ?_, rfl, rfl⟩
  · intro other hother
    obtain rfl := List.mem_singleton.mp hother
    exact Rag.purged_of_run_deletion h
  · have hcalls : (Rag.deleteDocumentFully location).Only (Rag.DeletesCall fun id => id = location.documentId) :=
      Rag.only_deleteDocumentFully location rfl
    have honly : Rag.DeletesOnly _ w.archive.stores
        ((Rag.deleteDocumentFully location).run (Rag.Stores.answer answers) w.archive.stores).1 :=
      Rag.deletesOnly_run hcalls w.archive.stores
    exact honly.mono fun id hid => ⟨location, List.mem_singleton_self location, hid.symm⟩

/-- The run of a deletion after another. -/
theorem run_deleteEach_cons (w : SubjectWorld) (location : Rag.Location) (rest : List Rag.Location) :
    (deleteEach (location :: rest)).run (SubjectWorld.answer py answers) w =
      match (w.deleteDocumentFully answers location).2 with
      | .ok _ =>
        (deleteEach rest).run (SubjectWorld.answer py answers) (w.deleteDocumentFully answers location).1
      | .error error => ((w.deleteDocumentFully answers location).1, .error error) := by
  have hanswer : SubjectWorld.answer py answers w (.deleteDocumentFully location) =
      w.deleteDocumentFully answers location := rfl
  rw [deleteEach, Prog.run_bind, Prog.run_call, hanswer]
  cases (w.deleteDocumentFully answers location).2 with
  | error error => rfl
  | ok value => rfl

/-- Deleting one document after another: it goes through when the stores fail none. -/
theorem deleteEach_spec (py : Builtins) (answers : Rag.Answers) (locations : List Rag.Location) (w : SubjectWorld) :
    ((∃ value, ((deleteEach locations).run (SubjectWorld.answer py answers) w).2 = .ok value) ↔
        ∀ location ∈ locations, Rag.deletionFails answers w.archive.stores location = false) ∧
      ∀ value, ((deleteEach locations).run (SubjectWorld.answer py answers) w).2 = .ok value →
        DeletesDocuments locations w ((deleteEach locations).run (SubjectWorld.answer py answers) w).1 := by
  induction locations generalizing w with
  | nil =>
    refine ⟨iff_of_true ⟨(), rfl⟩ (by simp), fun value h => ?_⟩
    exact ⟨by simp, .refl _ _, rfl, rfl⟩
  | cons location rest ih =>
    have hfirst := deleteDocumentFully_spec answers w location
    rw [run_deleteEach_cons, List.forall_mem_cons]
    cases hdelete : (w.deleteDocumentFully answers location).2 with
    | error error =>
      rw [hdelete] at hfirst
      refine ⟨iff_of_false (by simp) fun h => ?_, by simp⟩
      obtain ⟨value, hvalue⟩ := hfirst.1.mpr h.1
      cases hvalue
    | ok value =>
      rw [hdelete] at hfirst
      have hsucceeds := hfirst.1.mp ⟨value, rfl⟩
      have hdeleted := hfirst.2 value rfl
      obtain ⟨hok, hout⟩ := ih (w.deleteDocumentFully answers location).1
      simp only [Rag.deletionFails_of_deletesOnly hdeleted.only] at hok
      refine ⟨hok.trans (by simp [hsucceeds]), fun value' h => ?_⟩
      have hrest := hout value' h
      refine ⟨?_, ?_, hrest.filing.trans hdeleted.filing, hrest.records.trans hdeleted.records⟩
      · rw [List.forall_mem_cons]
        have hpurged := hdeleted.purged location (List.mem_singleton_self location)
        exact ⟨hpurged.of_deletesOnly hrest.only, hrest.purged⟩
      · apply Rag.DeletesOnly.trans (hdeleted.only.mono _) (hrest.only.mono _)
        · rintro id ⟨other, hother, hid⟩
          obtain rfl := List.mem_singleton.mp hother
          exact ⟨other, List.mem_cons_self, hid⟩
        · rintro id ⟨other, hother, hid⟩
          exact ⟨other, List.mem_cons_of_mem _ hother, hid⟩

/-- No document of a subject is left, and the rows of the other documents are as they were. -/
structure DropsDocuments (hash : String) (archive archive' : Archive) : Prop where
  gone : archive'.documentsOf hash = []
  documents : ∀ row, (archive.filing row.id).subjectHash ≠ some hash →
    (row ∈ archive'.stores.documents.rows ↔ row ∈ archive.stores.documents.rows)
  chunks : ∀ row, (archive.filing row.documentId).subjectHash ≠ some hash →
    (row ∈ archive'.stores.chunks.rows ↔ row ∈ archive.stores.chunks.rows)
  filing : archive'.filing = archive.filing

/-- The deleted documents of a subject are those of the subject. -/
theorem DeletesDocuments.dropsDocuments {w w' : SubjectWorld} {hash : String}
    (h : DeletesDocuments ((w.archive.documentsOf hash).map Rag.DocumentRow.location) w w') :
    DropsDocuments hash w.archive w'.archive := by
  have hother : ∀ id, (w.archive.filing id).subjectHash ≠ some hash →
      ¬ ∃ location ∈ (w.archive.documentsOf hash).map Rag.DocumentRow.location, location.documentId = id := by
    rintro id hid ⟨location, hlocation, rfl⟩
    obtain ⟨row, hrow, rfl⟩ := List.mem_map.mp hlocation
    have hhash : (w.archive.filing row.id).subjectHash = some hash := by simpa using (List.mem_filter.mp hrow).2
    exact hid hhash
  refine ⟨?_, ?_, ?_, h.filing⟩
  · rw [Archive.documentsOf, List.filter_eq_nil_iff]
    intro row hrow hhash
    rw [h.filing] at hhash
    have hbefore := h.only.rows row hrow
    have hlocation : row.location ∈ (w.archive.documentsOf hash).map Rag.DocumentRow.location :=
      List.mem_map_of_mem (List.mem_filter.mpr ⟨hbefore, hhash⟩)
    exact (h.purged _ hlocation).row row hrow rfl
  · exact fun row hid => (h.only.kept row.id (hother row.id hid)).rows row rfl
  · exact fun row hid => (h.only.kept row.documentId (hother row.documentId hid)).chunks row rfl

/-- The run of the deletion of a subject's documents. -/
theorem run_deleteDocuments (hash : String) (w : SubjectWorld) :
    (deleteDocuments hash).run (SubjectWorld.answer py answers) w =
      (((deleteEach ((w.archive.documentsOf hash).map Rag.DocumentRow.location)).run (SubjectWorld.answer py answers) w).1,
        ((deleteEach ((w.archive.documentsOf hash).map Rag.DocumentRow.location)).run (SubjectWorld.answer py answers) w).2.map
          fun _ => ((w.archive.documentsOf hash).map Rag.DocumentRow.location).length) := by
  have hanswer : SubjectWorld.answer py answers w (.documentsOf hash) =
      (w, .ok ((w.archive.documentsOf hash).map Rag.DocumentRow.location)) := rfl
  rw [deleteDocuments, Prog.run_bind, Prog.run_call, hanswer]
  simp only
  rw [Prog.run_bind]
  cases ((deleteEach ((w.archive.documentsOf hash).map Rag.DocumentRow.location)).run (SubjectWorld.answer py answers) w).2 with
  | error error => rfl
  | ok value => rfl

/-- Deleting the documents of a subject: it goes through when the stores fail none. -/
theorem deleteDocuments_spec (py : Builtins) (answers : Rag.Answers) (hash : String) (w : SubjectWorld) :
    ((∃ count, ((deleteDocuments hash).run (SubjectWorld.answer py answers) w).2 = .ok count) ↔
        ∀ row ∈ w.archive.documentsOf hash, Rag.deletionFails answers w.archive.stores row.location = false) ∧
      ∀ count, ((deleteDocuments hash).run (SubjectWorld.answer py answers) w).2 = .ok count →
        DropsDocuments hash w.archive ((deleteDocuments hash).run (SubjectWorld.answer py answers) w).1.archive ∧
        ((deleteDocuments hash).run (SubjectWorld.answer py answers) w).1.records = w.records := by
  obtain ⟨hok, hout⟩ := deleteEach_spec py answers ((w.archive.documentsOf hash).map Rag.DocumentRow.location) w
  rw [List.forall_mem_map] at hok
  rw [run_deleteDocuments, ← hok]
  simp only [map_eq_ok]
  constructor
  · constructor
    · rintro ⟨count, value, hvalue, -⟩
      exact ⟨value, hvalue⟩
    · rintro ⟨value, hvalue⟩
      exact ⟨_, value, hvalue, rfl⟩
  · rintro count ⟨value, hvalue, -⟩
    have hdeleted := hout value hvalue
    exact ⟨hdeleted.dropsDocuments, hdeleted.records⟩

end Documents

/-! ## The audit log -/

namespace Records

variable {py : Builtins} {records : Records} {hash : String}

/-- The first user, in the order of the query, whose subject has a hash. -/
def IsFirstUser (py : Builtins) (records : Records) (hash kcSub : String) : Prop :=
  ∃ before user after, records.users.rows = before ++ user :: after ∧ user.kcSub = kcSub ∧
    (kcSub ≠ "" ∧ subjectHash py kcSub = hash) ∧
    ∀ earlier ∈ before, earlier.kcSub = "" ∨ subjectHash py earlier.kcSub ≠ hash

/-- The user whose rows are changed is the first one with the hash. -/
theorem matchingKcSub_eq_some {kcSub : String} :
    records.matchingKcSub py hash = some kcSub ↔ IsFirstUser py records hash kcSub := by
  simp only [matchingKcSub, List.find?_filter, Option.map_eq_some_iff, List.find?_eq_some_iff_append, IsFirstUser]
  constructor
  · rintro ⟨user, ⟨hmatches, before, after, hrows, hbefore⟩, rfl⟩
    refine ⟨before, user, after, hrows, rfl, by simpa using hmatches, fun earlier hearlier => ?_⟩
    have hno := hbefore earlier hearlier
    by_cases hempty : earlier.kcSub = ""
    · exact .inl hempty
    · exact .inr (by simpa [hempty] using hno)
  · rintro ⟨before, user, after, hrows, rfl, hmatches, hbefore⟩
    refine ⟨user, ⟨by simpa using hmatches, before, after, hrows, fun earlier hearlier => ?_⟩, rfl⟩
    rcases hbefore earlier hearlier with hempty | hother
    · simp [hempty]
    · simp [hother]

/-- Every row of the audit log about a subject has the subject's first user as its actor, and the
pseudonym has another hash. -/
def Renames (py : Builtins) (records : Records) (hash : String) : Prop :=
  ∀ row ∈ records.auditLog.rows, subjectHash py row.actor = hash →
    records.IsFirstUser py hash row.actor ∧ subjectHash py (pseudonym hash) ≠ hash

/-- No actor is left with the hash exactly when all rows about the subject are renamed. -/
theorem pseudonymized_iff (records : Records) :
    (∀ row ∈ (records.pseudonymizeAuditRows py hash).1.auditLog.rows, subjectHash py row.actor ≠ hash) ↔
      records.Renames py hash := by
  have hmatch : ∀ actor, records.IsFirstUser py hash actor ↔ records.matchingKcSub py hash = some actor :=
    fun actor => matchingKcSub_eq_some.symm
  simp only [Renames, hmatch]
  cases hfirst : records.matchingKcSub py hash with
  | none => simp [pseudonymizeAuditRows, hfirst]
  | some kcSub =>
    obtain ⟨-, -, -, -, -, ⟨-, hhash⟩, -⟩ := matchingKcSub_eq_some.mp hfirst
    simp only [pseudonymizeAuditRows, hfirst, KeyedRows.mem_update, forall_exists_index, and_imp,
      forall_apply_eq_imp_iff₂, Option.some.injEq]
    apply forall₂_congr
    intro row hrow
    by_cases hactor : row.actor = kcSub
    · simp [renamed, hactor, hhash]
    · simp [renamed, hactor, Ne.symm hactor]

/-- Rows about others are kept. -/
theorem mem_pseudonymized {row : AuditLog} (h : row ∈ records.auditLog.rows) (hother : subjectHash py row.actor ≠ hash) :
    row ∈ (records.pseudonymizeAuditRows py hash).1.auditLog.rows := by
  cases hfirst : records.matchingKcSub py hash with
  | none => simpa [pseudonymizeAuditRows, hfirst] using h
  | some kcSub =>
    obtain ⟨-, -, -, -, -, ⟨-, hhash⟩, -⟩ := matchingKcSub_eq_some.mp hfirst
    have hactor : row.actor ≠ kcSub := by
      rintro rfl
      exact hother hhash
    simp only [pseudonymizeAuditRows, hfirst, KeyedRows.mem_update]
    exact ⟨row, h, by simp [renamed, hactor]⟩

/-- Only the audit log is changed. -/
theorem pseudonymizeAuditRows_frame (records : Records) (py : Builtins) (hash : String) :
    (records.pseudonymizeAuditRows py hash).1.conversations = records.conversations ∧
      (records.pseudonymizeAuditRows py hash).1.messages = records.messages ∧
      (records.pseudonymizeAuditRows py hash).1.feedback = records.feedback ∧
      (records.pseudonymizeAuditRows py hash).1.users = records.users := by
  unfold pseudonymizeAuditRows
  split <;> exact ⟨rfl, rfl, rfl, rfl⟩

end Records

/-! ## The erasure -/

section Erasures

variable {py : Builtins} {answers : Rag.Answers} {w w' : SubjectWorld} {hash : String}

/-- No conversation, message or document of a subject is left, and no actor with its hash. -/
structure Erased (py : Builtins) (hash : String) (w w' : SubjectWorld) : Prop where
  conversations : ∀ conversation ∈ w'.records.conversations.rows, conversation.subjectHash ≠ some hash
  messages : ∀ message ∈ w'.records.messages.rows, ¬ w.records.OfSubject hash message.convId
  documents : ∀ row ∈ w'.archive.stores.documents.rows, (w'.archive.filing row.id).subjectHash ≠ some hash
  auditLog : ∀ row ∈ w'.records.auditLog.rows, subjectHash py row.actor ≠ hash

/-- The rows of other subjects are as they were. -/
structure OthersKept (py : Builtins) (hash : String) (w w' : SubjectWorld) : Prop where
  conversations : ∀ conversation, conversation.subjectHash ≠ some hash →
    (conversation ∈ w'.records.conversations.rows ↔ conversation ∈ w.records.conversations.rows)
  messages : ∀ message, ¬ w.records.OfSubject hash message.convId →
    (message ∈ w'.records.messages.rows ↔ message ∈ w.records.messages.rows)
  feedback : w'.records.feedback = w.records.feedback
  users : w'.records.users = w.records.users
  documents : ∀ row, (w.archive.filing row.id).subjectHash ≠ some hash →
    (row ∈ w'.archive.stores.documents.rows ↔ row ∈ w.archive.stores.documents.rows)
  chunks : ∀ row, (w.archive.filing row.documentId).subjectHash ≠ some hash →
    (row ∈ w'.archive.stores.chunks.rows ↔ row ∈ w.archive.stores.chunks.rows)
  filing : w'.archive.filing = w.archive.filing
  auditLog : ∀ row ∈ w.records.auditLog.rows, subjectHash py row.actor ≠ hash → row ∈ w'.records.auditLog.rows

/-- What an erasure needs: no feedback on the subject's messages, stores that delete each of the
subject's documents, and an audit log that knows the subject by its first user only. -/
structure Erasable (py : Builtins) (answers : Rag.Answers) (hash : String) (w : SubjectWorld) : Prop where
  noFeedback : w.records.NoFeedback (w.records.OfSubject hash)
  documents : ∀ row ∈ w.archive.stores.documents.rows, (w.archive.filing row.id).subjectHash = some hash →
    Rag.deletionFails answers w.archive.stores row.location = false
  auditLog : w.records.Renames py hash

/-- What an erasure does when it runs to its end. -/
structure Erases (py : Builtins) (hash : String) (w w' : SubjectWorld) : Prop where
  noFeedback : w.records.NoFeedback (w.records.OfSubject hash)
  records : ∃ records, Records.DropsSubject hash w.records records ∧
    w'.records = (records.pseudonymizeAuditRows py hash).1
  documents : DropsDocuments hash w.archive w'.archive

/-- An erasure returns exactly when the messages have no feedback and no document fails. -/
theorem erase_spec (py : Builtins) (answers : Rag.Answers) (w : SubjectWorld) (hash : String) :
    ((∃ result, (w.erase py answers hash).2 = .ok result) ↔ w.records.NoFeedback (w.records.OfSubject hash) ∧
        ∀ row ∈ w.archive.documentsOf hash, Rag.deletionFails answers w.archive.stores row.location = false) ∧
      ∀ result, (w.erase py answers hash).2 = .ok result → Erases py hash w (w.erase py answers hash).1 := by
  have hconversations := w.records.deleteConversations_spec hash
  unfold SubjectWorld.erase eraseSubject
  rw [Prog.run_bind, Prog.run_call, SubjectWorld.answer]
  cases hdelete : w.records.deleteConversations hash with
  | error error =>
    rw [hdelete] at hconversations
    rw [← hconversations.1]
    simp
  | ok deleted =>
    rw [hdelete] at hconversations
    have hnone := hconversations.1.mp ⟨deleted, rfl⟩
    have hdrops := hconversations.2 deleted rfl
    have hdocuments := deleteDocuments_spec py answers hash ⟨deleted.1, w.archive⟩
    simp only [hnone, true_and]
    rw [Prog.run_bind, ← hdocuments.1]
    cases hcount : ((deleteDocuments hash).run (SubjectWorld.answer py answers) ⟨deleted.1, w.archive⟩).2 with
    | error error => simp
    | ok count =>
      obtain ⟨hgone, hrecords⟩ := hdocuments.2 count hcount
      refine ⟨iff_of_true ⟨_, rfl⟩ ⟨count, rfl⟩, fun result h => ?_⟩
      have hlast := congrArg (fun records => (Records.pseudonymizeAuditRows py records hash).1) hrecords
      exact ⟨hnone, ⟨deleted.1, hdrops, hlast⟩, hgone⟩

/-- After an erasure that returned, nothing of the subject is left but actors that were not renamed. -/
theorem Erases.erased_iff (h : Erases py hash w w') : Erased py hash w w' ↔ w.records.Renames py hash := by
  obtain ⟨records, hdrops, hrecords⟩ := h.records
  obtain ⟨hconversations, hmessages, hfeedback, husers⟩ := records.pseudonymizeAuditRows_frame py hash
  have hrenames : records.Renames py hash ↔ w.records.Renames py hash := by
    simp only [Records.Renames, Records.IsFirstUser, hdrops.users, hdrops.auditLog]
  rw [← hrenames, ← Records.pseudonymized_iff, ← hrecords]
  constructor
  · exact Erased.auditLog
  · intro haudit
    refine ⟨?_, ?_, ?_, haudit⟩
    · intro conversation hconversation
      rw [hrecords, hconversations, hdrops.conversations] at hconversation
      exact hconversation.2
    · intro message hmessage
      rw [hrecords, hmessages, hdrops.messages] at hmessage
      exact hmessage.2
    · intro row hrow hhash
      have hmem : row ∈ w'.archive.documentsOf hash := List.mem_filter.mpr ⟨hrow, by simpa using hhash⟩
      rw [h.documents.gone] at hmem
      exact List.not_mem_nil hmem

/-- An erasure that returned has kept the rows of other subjects. -/
theorem Erases.othersKept (h : Erases py hash w w') : OthersKept py hash w w' := by
  obtain ⟨records, hdrops, hrecords⟩ := h.records
  obtain ⟨hconversations, hmessages, hfeedback, husers⟩ := records.pseudonymizeAuditRows_frame py hash
  refine ⟨?_, ?_, ?_, ?_, h.documents.documents, h.documents.chunks, h.documents.filing, ?_⟩
  · intro conversation hother
    rw [hrecords, hconversations, hdrops.conversations]
    exact and_iff_left hother
  · intro message hother
    rw [hrecords, hmessages, hdrops.messages]
    exact and_iff_left hother
  · rw [hrecords, hfeedback, hdrops.feedback]
  · rw [hrecords, husers, hdrops.users]
  · intro row hrow hother
    rw [hrecords]
    exact Records.mem_pseudonymized (hdrops.auditLog ▸ hrow) hother

/-- For every state and every subject: an erasure runs to its end, leaves nothing of the subject and
keeps the rows of the others exactly when no message of the subject has feedback, the stores fail the
deletion of none of the subject's documents, and every actor with the hash is the first user with it. -/
theorem erase_iff (py : Builtins) (answers : Rag.Answers) (w : SubjectWorld) (hash : String) :
    ((∃ result, (w.erase py answers hash).2 = .ok result) ∧ Erased py hash w (w.erase py answers hash).1 ∧
        OthersKept py hash w (w.erase py answers hash).1) ↔ Erasable py answers hash w := by
  have hspec := erase_spec py answers w hash
  constructor
  · rintro ⟨hreturns, herased, -⟩
    obtain ⟨hnone, hdocuments⟩ := hspec.1.mp hreturns
    obtain ⟨result, hresult⟩ := hreturns
    refine ⟨hnone, fun row hrow hhash => ?_, (hspec.2 result hresult).erased_iff.mp herased⟩
    exact hdocuments row (List.mem_filter.mpr ⟨hrow, by simpa using hhash⟩)
  · intro h
    have hreturns : ∃ result, (w.erase py answers hash).2 = .ok result := by
      apply hspec.1.mpr
      refine ⟨h.noFeedback, fun row hrow => ?_⟩
      obtain ⟨hrow, hhash⟩ := List.mem_filter.mp hrow
      exact h.documents row hrow (by simpa using hhash)
    obtain ⟨result, hresult⟩ := hreturns
    have herases := hspec.2 result hresult
    exact ⟨⟨result, hresult⟩, herases.erased_iff.mpr h.auditLog, herases.othersKept⟩

end Erasures

/-- A platform without documents on which a subject has one conversation of one message with feedback. -/
def discussed (hash : String) : SubjectWorld where
  records :=
    { conversations := KeyedRows.empty.addIfNew ⟨1, some hash⟩
      messages := KeyedRows.empty.addIfNew ⟨2, 1⟩
      feedback := KeyedRows.empty.addIfNew ⟨3, 2⟩
      users := KeyedRows.empty.addIfNew ⟨4, "kc-7"⟩
      auditLog := KeyedRows.empty.addIfNew
        ⟨5, "kc-7", "user", "POST /v1/messages/2/feedback", some "http_request", some "201", none⟩
      messages_convId := by
        intro message hmessage
        obtain rfl := List.mem_singleton.mp hmessage
        exact ⟨⟨1, some hash⟩, List.mem_singleton_self _, rfl⟩
      feedback_messageId := by
        intro feedback hfeedback
        obtain rfl := List.mem_singleton.mp hfeedback
        exact ⟨⟨2, 1⟩, List.mem_singleton_self _, rfl⟩ }
  archive := ⟨⟨.empty, .empty, fun _ => none, fun _ => none, fun _ => none, []⟩, fun _ => ⟨"", none⟩⟩

/-- `str.lower` on letters that are in lower case already. -/
def lowerCase : Builtins where
  repr _ := ""
  lower := id
  float _ := .error ⟨.valueError, ""⟩
  int _ := .error ⟨.valueError, ""⟩

/-- One row of feedback, and nothing of the subject is erased: the erasure does not return. -/
theorem discussed_not_erased :
    ¬ ((∃ result, ((discussed (subjectHash lowerCase "kc-7")).erase lowerCase (fun c => .answered (Rag.plainReply c))
          (subjectHash lowerCase "kc-7")).2 = .ok result) ∧
        Erased lowerCase (subjectHash lowerCase "kc-7") (discussed (subjectHash lowerCase "kc-7"))
          ((discussed (subjectHash lowerCase "kc-7")).erase lowerCase (fun c => .answered (Rag.plainReply c))
            (subjectHash lowerCase "kc-7")).1 ∧
        OthersKept lowerCase (subjectHash lowerCase "kc-7") (discussed (subjectHash lowerCase "kc-7"))
          ((discussed (subjectHash lowerCase "kc-7")).erase lowerCase (fun c => .answered (Rag.plainReply c))
            (subjectHash lowerCase "kc-7")).1) := by
  rintro ⟨hreturns, -⟩
  have hnone := ((erase_spec _ _ _ _).1.mp hreturns).1
  apply hnone ⟨3, 2⟩ (List.mem_singleton_self _) ⟨2, 1⟩ (List.mem_singleton_self _) rfl
  exact ⟨⟨1, some _⟩, List.mem_singleton_self _, rfl, rfl⟩

end FleetWorkflow.Api
