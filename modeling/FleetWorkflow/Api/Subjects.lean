import FleetWorkflow.Api.Documents
import FleetWorkflow.Rag.Purge
import FleetWorkflow.Store.KeyedRows

/-!
# Erasing a subject

The conversations of a subject are deleted with their messages in one transaction, then each of the
subject's documents from the three stores, and last the rows of the audit log whose actor is the
subject get a pseudonym. The database refuses to drop a message that has feedback.
-/

namespace FleetWorkflow.Api

open Python Async Store

/-- `subject_hash(identifier)`. -/
def subjectHash (py : Builtins) (identifier : String) : String := sha256 (encodeUtf8 (py.lower (strip identifier)))

/-! ## Tables -/

/-- A row of `conversations`. -/
structure Conversation where
  id : ℕ
  subjectHash : Option String

/-- A row of `messages`. -/
structure Message where
  id : ℕ
  convId : ℕ

/-- A row of `feedback`. -/
structure Feedback where
  id : ℕ
  messageId : ℕ

/-- A row of `users`. -/
structure User where
  id : ℕ
  kcSub : String

/-- A row of `audit_log`. -/
structure AuditLog where
  id : ℕ
  actor : String
  actorType : String
  action : String
  entity : Option String
  entityId : Option String
  traceId : Option String

/-- The rows about people, with the foreign keys between them. -/
structure Records where
  conversations : KeyedRows Conversation ℕ Conversation.id
  messages : KeyedRows Message ℕ Message.id
  feedback : KeyedRows Feedback ℕ Feedback.id
  users : KeyedRows User ℕ User.id
  auditLog : KeyedRows AuditLog ℕ AuditLog.id
  messages_convId : conversations.Referenced Message.convId messages.rows
  feedback_messageId : messages.Referenced Feedback.messageId feedback.rows

/-- A foreign key refuses a deletion. -/
def foreignKeyViolation : Exc := ⟨.integrityError, "IntegrityError"⟩

/-! ## The transactions -/

namespace Records

variable (py : Builtins) (records : Records)

/-- The message is part of a conversation. -/
def isPart (convId : ℕ) (message : Message) : Bool := message.convId = convId

/-- `DELETE FROM messages WHERE conv_id = :c`, and how many rows it drops. -/
def deleteMessages (convId : ℕ) : Except Exc (Records × ℕ) :=
  if hfree : records.messages.isReferenced Feedback.messageId records.feedback.rows (isPart convId) = false then
    .ok ({ records with
      messages := records.messages.deleteWhere (isPart convId)
      messages_convId := records.messages_convId.mono fun message hmessage =>
        ((records.messages.mem_deleteWhere (isPart convId) message).mp hmessage).1
      feedback_messageId := records.feedback_messageId.deleteWhere hfree },
      records.messages.rows.countP (isPart convId))
  else .error foreignKeyViolation

/-- The loop over the conversations of a subject; `deleted` messages are gone so far. -/
def deleteMessagesOf (records : Records) (deleted : ℕ) : List ℕ → Except Exc (Records × ℕ)
  | [] => .ok (records, deleted)
  | convId :: rest => do
    let (records, dropped) ← records.deleteMessages convId
    records.deleteMessagesOf (deleted + dropped) rest

/-- The conversation is about a subject. -/
def isAbout (hash : String) (conversation : Conversation) : Bool := conversation.subjectHash = some hash

/-- `DELETE FROM conversations WHERE subject_hash = :h`. -/
def deleteConversationRows (hash : String) : Except Exc Records :=
  if hfree : records.conversations.isReferenced Message.convId records.messages.rows (isAbout hash) = false then
    .ok { records with
      conversations := records.conversations.deleteWhere (isAbout hash)
      messages_convId := records.messages_convId.deleteWhere hfree }
  else .error foreignKeyViolation

/-- `_delete_conversations(session, hash_=...)`: how many conversations and messages are deleted. -/
def deleteConversations (hash : String) : Except Exc (Records × ℕ × ℕ) := do
  let convIds := (records.conversations.rows.filter (isAbout hash)).map Conversation.id
  let (records, messagesDeleted) ← records.deleteMessagesOf 0 convIds
  let records ← if convIds.isEmpty then .ok records else records.deleteConversationRows hash
  return (records, convIds.length, messagesDeleted)

/-- The first user whose subject is hashed to a hash. -/
def matchingKcSub (hash : String) : Option String :=
  ((records.users.rows.filter fun user => user.kcSub ≠ "").find? fun user =>
    subjectHash py user.kcSub = hash).map User.kcSub

/-- The actor that an erased subject gets in the audit log. -/
def pseudonym (hash : String) : String := "erased-subject:" ++ String.ofList (hash.toList.take 16)

/-- The row with another actor if it has the one that is replaced. -/
def renamed (actor replacement : String) (row : AuditLog) : AuditLog :=
  if row.actor = actor then { row with actor := replacement } else row

theorem renamed_id (actor replacement : String) (row : AuditLog) : (renamed actor replacement row).id = row.id := by
  unfold renamed
  split <;> rfl

/-- `_pseudonymize_audit_rows(session, hash_=...)`, and how many rows it changes. -/
def pseudonymizeAuditRows (hash : String) : Records × ℕ :=
  match records.matchingKcSub py hash with
  | none => (records, 0)
  | some kcSub =>
    let auditLog := records.auditLog.update (renamed kcSub (pseudonym hash)) (renamed_id kcSub (pseudonym hash))
    ({ records with auditLog := auditLog }, records.auditLog.rows.countP fun row => row.actor = kcSub)

end Records

/-! ## The endpoint -/

/-- What an erasure can wait for; a transaction is one call, and so is the deletion of a document. -/
inductive SubjectCall where
  | deleteConversations (hash : String)
  | documentsOf (hash : String)
  | deleteDocumentFully (location : Rag.Location)
  | pseudonymizeAuditRows (hash : String)

/-- What each call returns. -/
@[reducible] def SubjectCall.Reply : SubjectCall → Type
  | deleteConversations _ => ℕ × ℕ
  | documentsOf _ => List Rag.Location
  | deleteDocumentFully _ => Unit
  | pseudonymizeAuditRows _ => ℕ

/-- A coroutine of the erasure router. -/
abbrev Erasing := Prog SubjectCall SubjectCall.Reply Exc

/-- Await one call. -/
abbrev awaitSubject (c : SubjectCall) : Erasing c.Reply := Prog.call c

/-- `ErasureResult`. -/
structure ErasureResult where
  subjectHash : String
  conversationsDeleted : ℕ
  messagesDeleted : ℕ
  documentsDeleted : ℕ
  auditRowsPseudonymized : ℕ

/-- The loop of `_delete_documents` over the rows of its query. -/
def deleteEach : List Rag.Location → Erasing Unit
  | [] => return ()
  | location :: rest => do
    awaitSubject (.deleteDocumentFully location)
    deleteEach rest

/-- `_delete_documents(session, hash_=...)`: how many documents are deleted. -/
def deleteDocuments (hash : String) : Erasing ℕ := do
  let rows ← awaitSubject (.documentsOf hash)
  deleteEach rows
  return rows.length

/-- `DELETE /v1/subjects/(hash)`. -/
def eraseSubject (hash : String) : Erasing ErasureResult := do
  let (conversationsDeleted, messagesDeleted) ← awaitSubject (.deleteConversations hash)
  let documentsDeleted ← deleteDocuments hash
  let auditRowsPseudonymized ← awaitSubject (.pseudonymizeAuditRows hash)
  return ⟨hash, conversationsDeleted, messagesDeleted, documentsDeleted, auditRowsPseudonymized⟩

/-! ## Answering an erasure -/

/-- What an erasure reads and writes. -/
structure SubjectWorld where
  records : Records
  archive : Archive

/-- The documents of a subject. -/
def Archive.documentsOf (archive : Archive) (hash : String) : List Rag.DocumentRow :=
  archive.stores.documents.rows.filter fun row => (archive.filing row.id).subjectHash = some hash

namespace SubjectWorld

variable (py : Builtins) (answers : Rag.Answers)

/-- Delete a document from the three stores, whose calls are answered as given. -/
def deleteDocumentFully (w : SubjectWorld) (location : Rag.Location) : SubjectWorld × Except Exc Unit :=
  let ran := (Rag.deleteDocumentFully location).run (Rag.Stores.answer answers) w.archive.stores
  ({ w with archive := ⟨ran.1, w.archive.filing⟩ }, ran.2)

/-- Answer one call. A transaction that fails leaves the records as they are. -/
def answer (w : SubjectWorld) : (c : SubjectCall) → SubjectWorld × Except Exc c.Reply
  | .deleteConversations hash =>
    match w.records.deleteConversations hash with
    | .ok (records, deleted) => ({ w with records := records }, .ok deleted)
    | .error error => (w, .error error)
  | .documentsOf hash => (w, .ok ((w.archive.documentsOf hash).map Rag.DocumentRow.location))
  | .deleteDocumentFully location => w.deleteDocumentFully answers location
  | .pseudonymizeAuditRows hash =>
    let pseudonymized := w.records.pseudonymizeAuditRows py hash
    ({ w with records := pseudonymized.1 }, .ok pseudonymized.2)

/-- What an erasure does and what it returns. -/
def erase (w : SubjectWorld) (hash : String) : SubjectWorld × Except Exc ErasureResult :=
  (eraseSubject hash).run (answer py answers) w

end SubjectWorld

end FleetWorkflow.Api
