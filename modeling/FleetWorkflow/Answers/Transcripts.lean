import FleetWorkflow.Answers.ChatRules
import FleetWorkflow.Api.Subjects
import FleetWorkflow.Async.Crew
import FleetWorkflow.Flow.Fallible
import FleetWorkflow.Store.Sessions
import FleetWorkflow.Store.Table

/-!
# Transcripts of conversations

Users open conversations with agents and send messages to them; many requests run at once over the same tables, and each can
fail or be abandoned at any of its calls. Whatever the schedule, the table of messages holds of a request nothing, or the
message that it sent, or this message and its reply: in a conversation that the same user opened, and the reply is the text
that the stream of the request delivered.
-/

namespace FleetWorkflow.Answers

open Python Async Core Llm Store

/-! ## Tables -/

/-- A row of `conversations`. -/
structure StoredConversation extends ConversationRow where
  subjectHash : String

/-- A row of `messages`. -/
structure MessageRow where
  id : ℕ
  convId : ℕ
  role : String
  content : String
  citations : List Citation
  traceId : Option String

/-- The row of what a user sends. -/
def userRow (id convId : ℕ) (content : String) : MessageRow := ⟨id, convId, "user", content, [], none⟩

/-- The row of a reply. -/
def replyRow (id convId : ℕ) (content : String) (citations : List Citation) (traceId : String) : MessageRow :=
  ⟨id, convId, "assistant", content, citations, some traceId⟩

@[simp] theorem userRow_id (id convId : ℕ) (content : String) : (userRow id convId content).id = id := rfl

@[simp] theorem replyRow_id (id convId : ℕ) (content : String) (citations : List Citation) (traceId : String) :
    (replyRow id convId content citations traceId).id = id := rfl

/-- A row of `messages` with the session that wrote it; others see it when it is committed. -/
structure Written (ι : Type) where
  writer : ι
  committed : Bool
  row : MessageRow

/-- The tables of chat: users in the order in which they came, and messages in the order in which they were written. -/
structure ChatTables (ι : Type) where
  users : List String
  conversations : Table StoredConversation fun row => row.id
  messages : List (Written ι)
  numbered : messages.map (fun written => written.row.id) = List.range messages.length

namespace ChatTables

variable {ι : Type} (tables : ChatTables ι)

/-- No users, no conversations, no messages. -/
def empty : ChatTables ι := ⟨[], .empty, [], rfl⟩

/-- `get_or_create_user(session, kc_sub=...)`: users are numbered as they come. -/
def signIn (kcSub : String) : ChatTables ι :=
  { tables with users := if kcSub ∈ tables.users then tables.users else tables.users ++ [kcSub] }

/-- `INSERT INTO conversations`, committed. -/
def saveConversation (agentId userId : ℕ) (subjectHash : String) : ChatTables ι :=
  { tables with conversations := tables.conversations.insert ⟨⟨tables.conversations.next, agentId, userId⟩, subjectHash⟩ rfl }

/-- `INSERT INTO messages`, not committed: the row has the next number. -/
def write (writer : ι) (row : ℕ → MessageRow) (hrow : ∀ id, (row id).id = id) : ChatTables ι where
  users := tables.users
  conversations := tables.conversations
  messages := tables.messages ++ [⟨writer, false, row tables.messages.length⟩]
  numbered := by
    rw [List.map_append, tables.numbered, List.length_append, List.length_singleton, List.range_succ, List.map_singleton,
      hrow]

/-- Conversations stay, and so do the numbers of the users. -/
structure Grows (tables tables' : ChatTables ι) : Prop where
  conversations : ∀ id row, tables.conversations.row id = some row → tables'.conversations.row id = some row
  users : tables.users <+: tables'.users

/-- Nothing changes for what is the same. -/
theorem Grows.same {tables tables' : ChatTables ι} (hconversations : tables'.conversations = tables.conversations)
    (husers : tables'.users = tables.users) : tables.Grows tables' := by
  refine ⟨fun id row hrow => ?_, husers ▸ List.prefix_rfl⟩
  rwa [hconversations]

/-- A conversation that is saved. -/
theorem grows_saveConversation (agentId userId : ℕ) (subjectHash : String) :
    tables.Grows (tables.saveConversation agentId userId subjectHash) := by
  refine ⟨fun id row hrow => ?_, List.prefix_rfl⟩
  rw [saveConversation, Table.row_insert, if_neg]
  · exact hrow
  · rintro rfl
    rw [tables.conversations.row_next] at hrow
    cases hrow

/-- A user who signs in. -/
theorem grows_signIn (kcSub : String) : tables.Grows (tables.signIn kcSub) := by
  refine ⟨fun id row hrow => hrow, ?_⟩
  rw [signIn]
  split
  · exact List.prefix_rfl
  · exact List.prefix_append _ _

/-- Who signed in is found under the first number. -/
theorem users_signIn (kcSub : String) : (tables.signIn kcSub).users[(tables.signIn kcSub).users.idxOf kcSub]? = some kcSub := by
  have hmem : kcSub ∈ (tables.signIn kcSub).users := by
    rw [signIn]
    split
    · assumption
    · simp
  exact List.getElem?_idxOf hmem

variable [DecidableEq ι]

/-- A row as it is after a commit of a session. -/
def committedBy (writer : ι) (written : Written ι) : Written ι :=
  if written.writer = writer then { written with committed := true } else written

/-- A commit leaves the writer. -/
@[simp] theorem committedBy_writer (writer : ι) (written : Written ι) : (committedBy writer written).writer = written.writer := by
  rw [committedBy]
  split <;> rfl

/-- A commit leaves the row. -/
@[simp] theorem committedBy_row (writer : ι) (written : Written ι) : (committedBy writer written).row = written.row := by
  rw [committedBy]
  split <;> rfl

/-- `COMMIT` of a session. -/
def commit (writer : ι) : ChatTables ι where
  users := tables.users
  conversations := tables.conversations
  messages := tables.messages.map (committedBy writer)
  numbered := by
    rw [List.map_map, List.length_map, ← tables.numbered]
    exact List.map_congr_left fun written _ => congrArg MessageRow.id (committedBy_row writer written)

/-- The rows of a session. -/
def own (writer : ι) : List (Bool × MessageRow) :=
  (tables.messages.filter fun written => written.writer = writer).map fun written => (written.committed, written.row)

/-- The rows of a session that others see. -/
def rowsOf (writer : ι) : List MessageRow := ((tables.own writer).filter Prod.fst).map Prod.snd

variable {writer other : ι} {row : ℕ → MessageRow} {hrow : ∀ id, (row id).id = id}

/-- A session that writes has one more row. -/
theorem own_write : (tables.write writer row hrow).own writer = tables.own writer ++ [(false, row tables.messages.length)] := by
  simp [own, write]

/-- A session that writes leaves the rows of others. -/
theorem own_write_of_ne (h : other ≠ writer) : (tables.write writer row hrow).own other = tables.own other := by
  simp [own, write, h.symm]

/-- The rows of a session that commits are committed. -/
theorem own_commit : (tables.commit writer).own writer = (tables.own writer).map fun entry => (true, entry.2) := by
  rw [own, own, commit, List.filter_map, List.map_map, List.map_map]
  have hsame : (fun written : Written ι => decide (written.writer = writer)) ∘ committedBy writer =
      fun written => decide (written.writer = writer) := funext fun written => by simp
  rw [hsame]
  apply List.map_congr_left
  intro written hwritten
  have hwriter : written.writer = writer := by simpa using (List.mem_filter.mp hwritten).2
  simp [committedBy, hwriter]

/-- A session that commits leaves the rows of others. -/
theorem own_commit_of_ne (h : other ≠ writer) : (tables.commit writer).own other = tables.own other := by
  rw [own, own, commit, List.filter_map, List.map_map]
  have hsame : (fun written : Written ι => decide (written.writer = other)) ∘ committedBy writer =
      fun written => decide (written.writer = other) := funext fun written => by simp
  rw [hsame]
  apply List.map_congr_left
  intro written hwritten
  have hwriter : written.writer = other := by simpa using (List.mem_filter.mp hwritten).2
  have hne : written.writer ≠ writer := by rwa [hwriter]
  simp [committedBy, hne]

/-- The rows that there are have lower numbers than the next. -/
theorem lt_of_mem_own {entry : Bool × MessageRow} (h : entry ∈ tables.own writer) : entry.2.id < tables.messages.length := by
  obtain ⟨written, hwritten, rfl⟩ := List.mem_map.mp h
  have hid : written.row.id ∈ tables.messages.map fun written => written.row.id :=
    List.mem_map_of_mem (List.mem_filter.mp hwritten).1
  rwa [tables.numbered, List.mem_range] at hid

end ChatTables

/-! ## Requests -/

/-- What the requests of chat wait for: signing in, the calls of a session, and a new conversation. -/
inductive ChatCall (ι : Type) where
  | signIn (kcSub : String)
  | answering (session : ι) (c : AnswerCall)
  | saveConversation (agentId userId : ℕ) (subjectHash : String)

/-- What each call returns. -/
@[reducible] def ChatCall.Reply {ι : Type} : ChatCall ι → Type
  | signIn _ => Unit
  | answering _ c => c.Reply
  | saveConversation .. => StoredConversation

/-- A request of chat. -/
abbrev Chatting (ι : Type) := Prog (ChatCall ι) ChatCall.Reply Raised

/-- Await one call. -/
abbrev awaitChat {ι : Type} (c : ChatCall ι) : Chatting ι c.Reply := Prog.call c

/-- `create_conversation(body, ...)`. -/
def createConversation {ι : Type} (setting : Setting) (session : ι) (kcSub : String) (agentId : ℕ) :
    Chatting ι StoredConversation := do
  match ← awaitChat (.answering session (.getAgent agentId)) with
  | none => .raise (.exception ⟨.http 404, "agent not found"⟩)
  | some agent =>
    let userId ← awaitChat (.answering session (.getOrCreateUser kcSub))
    awaitChat (.saveConversation agent.id userId (Api.subjectHash setting.texts.py kcSub))

/-- The requests: a conversation is opened, or a message is sent. -/
inductive ChatRequest where
  | opens (kcSub : String) (agentId : ℕ)
  | sends (kcSub : String) (conversationId : ℕ) (content : String)

/-- The handler of a request, after the user is signed in. -/
def ChatRequest.task {ι : Type} (setting : Setting) (session : ι) : ChatRequest → Chatting ι Unit
  | opens kcSub agentId => do
    awaitChat (.signIn kcSub)
    let _ ← createConversation setting session kcSub agentId
    return ()
  | sends kcSub conversationId content => do
    awaitChat (.signIn kcSub)
    (sendMessage setting kcSub conversationId content).embed (.answering session) fun _ reply => reply

/-- What is around the requests: what is answered elsewhere, and which calls fail. -/
structure ChatAround where
  outside : ℕ → (c : AnswerCall) → Except Raised c.Reply
  fault : ℕ → Option (Fault Raised)

/-- The tables, what each session was answered, and how many calls there were. -/
structure ChatWorld (ι : Type) where
  tables : ChatTables ι
  served : ι → AnswerTrace
  calls : ℕ

section Worlds

variable {ι : Type} [DecidableEq ι]

/-- What a call of a session makes of the tables. -/
def ChatTables.executeAnswer (around : ChatAround) (calls : ℕ) (session : ι) (tables : ChatTables ι) :
    (c : AnswerCall) → Except Raised (ChatTables ι × c.Reply)
  | .getConversation id => .ok (tables, (tables.conversations.row id).map StoredConversation.toConversationRow)
  | .getOrCreateUser kcSub => .ok (tables.signIn kcSub, (tables.signIn kcSub).users.idxOf kcSub)
  | .flushMessage id content => .ok (tables.write session (fun n => userRow n id content) fun n => userRow_id n id content, ())
  | .saveReply id text citations traceId =>
    .ok ((tables.write session (fun n => replyRow n id text citations traceId)
      fun n => replyRow_id n id text citations traceId).commit session, tables.messages.length)
  | .commit => .ok (tables.commit session, ())
  | c => (around.outside calls c).map fun reply => (tables, reply)

/-- What a call makes of the tables. -/
def ChatTables.execute (around : ChatAround) (calls : ℕ) (tables : ChatTables ι) :
    (c : ChatCall ι) → Except Raised (ChatTables ι × c.Reply)
  | .signIn kcSub => .ok (tables.signIn kcSub, ())
  | .answering session c => tables.executeAnswer around calls session c
  | .saveConversation agentId userId subjectHash =>
    .ok (tables.saveConversation agentId userId subjectHash, ⟨⟨tables.conversations.next, agentId, userId⟩, subjectHash⟩)

/-- What a session was answered, with one more answer. -/
def recorded (served : ι → AnswerTrace) : (c : ChatCall ι) → Except Raised c.Reply → ι → AnswerTrace
  | .answering session c, reply => Function.update served session (served session ++ [⟨c, reply⟩])
  | _, _ => served

/-- Answer one call. -/
def ChatWorld.answer (around : ChatAround) (w : ChatWorld ι) (c : ChatCall ι) : ChatWorld ι × Except Raised c.Reply :=
  let answered := faulty (around.fault w.calls) w.tables (w.tables.execute around w.calls c)
  (⟨answered.1, recorded w.served c answered.2, w.calls + 1⟩, answered.2)

/-- Requests, and what is around them. -/
structure ChatTraffic (ι : Type) where
  setting : Setting
  requests : ι → ChatRequest
  around : ChatAround

/-- The requests before any of them starts, with empty tables. -/
def ChatTraffic.start (traffic : ChatTraffic ι) : Crew (ChatCall ι) ChatCall.Reply Raised (ChatWorld ι) ι Unit :=
  ⟨⟨.empty, fun _ => [], 0⟩, fun task => (traffic.requests task).task traffic.setting task⟩

/-- The requests at some moment. -/
def ChatTraffic.at (traffic : ChatTraffic ι) (schedule : List ι) : Crew (ChatCall ι) ChatCall.Reply Raised (ChatWorld ι) ι Unit :=
  traffic.start.exec (ChatWorld.answer traffic.around) schedule

/-- The tables at some moment. -/
def ChatTraffic.tables (traffic : ChatTraffic ι) (schedule : List ι) : ChatTables ι := (traffic.at schedule).shared.tables

/-- What a request was answered until some moment. -/
def ChatTraffic.served (traffic : ChatTraffic ι) (schedule : List ι) (task : ι) : AnswerTrace :=
  (traffic.at schedule).shared.served task

end Worlds

/-! ## What is kept -/

/-- A message of a user: sent to a conversation that the same user opened, and admitted there. -/
structure ChatTraffic.Owns {ι : Type} [DecidableEq ι] (traffic : ChatTraffic ι) (schedule : List ι) (task : ι)
    (conversation : StoredConversation) (content : String) : Prop where
  sent : ∃ kcSub agent opener agentId, traffic.requests task = .sends kcSub conversation.id content ∧
    Admitted traffic.setting kcSub conversation.id (traffic.served schedule task) conversation.toConversationRow agent ∧
    traffic.requests opener = .opens kcSub agentId
  stored : (traffic.tables schedule).conversations.row conversation.id = some conversation

/-- The rows of a request: none, its message, or its message and then a reply, which the stream delivered with its
citations. -/
def ChatTraffic.Rows {ι : Type} [DecidableEq ι] (traffic : ChatTraffic ι) (schedule : List ι) (task : ι) : Prop :=
  (traffic.tables schedule).rowsOf task = [] ∨ ∃ conversation content id, traffic.Owns schedule task conversation content ∧
    ((traffic.tables schedule).rowsOf task = [userRow id conversation.id content] ∨
      ∃ id' citations traceId, id < id' ∧ (traffic.tables schedule).rowsOf task = [userRow id conversation.id content,
          replyRow id' conversation.id (delivered (traffic.served schedule task)) citations traceId] ∧
        Got (traffic.served schedule task) .newUuid traceId ∧
        Got (traffic.served schedule task) (.yieldEvent "citations" (.obj [("citations", citationsJson citations)])) ())

/-- Conversations belong to who opened them, the rows of every request are its own, and a stream that ends names its
reply. -/
structure ChatTraffic.Transcribed {ι : Type} [DecidableEq ι] (traffic : ChatTraffic ι) (schedule : List ι) : Prop where
  opened : ∀ id row, (traffic.tables schedule).conversations.row id = some row → ∃ opener kcSub agentId,
    traffic.requests opener = .opens kcSub agentId ∧ (traffic.tables schedule).users[row.userId]? = some kcSub ∧
    row.subjectHash = Api.subjectHash traffic.setting.texts.py kcSub
  rows : ∀ task, traffic.Rows schedule task
  ended : ∀ task data, Got (traffic.served schedule task) (.yieldEvent "done" data) () →
    ∃ (id convId : ℕ) (citations : List Citation) (traceId : String), data = .obj [("message_id", .int id), ("trace_id", .str traceId)] ∧
      replyRow id convId (delivered (traffic.served schedule task)) citations traceId ∈
        (traffic.tables schedule).rowsOf task

/-! ## The rules of a request -/

/-- What a session may do after what it was answered. -/
def ChatRequest.May (setting : Setting) : ChatRequest → AnswerTrace → AnswerCall → Prop
  | opens kcSub agentId, _, c => c = .getAgent agentId ∨ c = .getOrCreateUser kcSub
  | sends kcSub conversationId content, seen, c => MayCall setting kcSub conversationId content seen c

/-- A conversation is saved for the user who asked for it. -/
def ChatRequest.MaySave (setting : Setting) (seen : AnswerTrace) (userId : ℕ) (subjectHash : String) : ChatRequest → Prop
  | opens kcSub _ => Got seen (.getOrCreateUser kcSub) userId ∧ subjectHash = Api.subjectHash setting.texts.py kcSub
  | sends .. => False

/-- The content of the message that a request sends. -/
def ChatRequest.content : ChatRequest → String
  | opens .. => ""
  | sends _ _ content => content

/-- The protocol of a request: its history is what its session was answered. -/
def chatProtocol {ι : Type} (setting : Setting) (session : ι) (request : ChatRequest) :
    Protocol (ChatCall ι) ChatCall.Reply Raised AnswerTrace where
  allowed seen
    | .signIn _ => True
    | .answering other c => other = session ∧ request.May setting seen c
    | .saveConversation _ userId subjectHash => request.MaySave setting seen userId subjectHash
  answers seen
    | .answering _ c, reply, seen' => seen' = seen ++ [⟨c, reply⟩]
    | _, _, seen' => seen' = seen

section Rules

variable {ι : Type} {setting : Setting} {session : ι}

/-- A conversation is created for the user who asks for it. -/
theorem ensures_createConversation (kcSub : String) (agentId : ℕ) :
    (chatProtocol setting session (.opens kcSub agentId)).Ensures (fun _ _ => True)
      (createConversation setting session kcSub agentId) [] := by
  refine Protocol.ensures_call_bind ?_ ?_
  · exact ⟨rfl, .inl rfl⟩
  rintro (error | (_ | agent)) _ rfl
  · trivial
  · trivial
  refine Protocol.ensures_call_bind ?_ ?_
  · exact ⟨rfl, .inr rfl⟩
  rintro (error | userId) _ rfl
  · trivial
  refine Protocol.ensures_call.mpr ⟨?_, fun _ _ _ => trivial⟩
  exact ⟨by simp, rfl⟩

/-- Every request keeps to its protocol. -/
theorem ensures_task (request : ChatRequest) :
    (chatProtocol setting session request).Ensures (fun _ _ => True) (request.task setting session) [] := by
  cases request with
  | opens kcSub agentId =>
    apply Protocol.ensures_call_bind trivial
    rintro (error | ⟨⟩) _ rfl
    · trivial
    apply Protocol.ensures_bind.mpr
    apply (ensures_createConversation kcSub agentId).mono
    rintro (error | row) seen -
    · trivial
    · trivial
  | sends kcSub conversationId content =>
    apply Protocol.ensures_call_bind trivial
    rintro (error | ⟨⟩) _ rfl
    · trivial
    refine Protocol.Ensures.embed ?_ ?_ ensures_sendMessage
    · exact fun seen c hc => ⟨rfl, hc⟩
    · rintro seen c (error | value) _ rfl
      · rfl
      · rfl

end Rules

/-! ## Where the rows of a session stand -/

/-- What a session wrote, and which of its rows there are. -/
inductive Stands (content : String) (seen : AnswerTrace) : List (Bool × MessageRow) → Prop
  | unwritten (h : writes seen = []) : Stands content seen []
  | lost {id : ℕ} (h : writes seen = [.flushMessage id content]) (hlost : ¬ Got seen (.flushMessage id content) ()) :
    Stands content seen []
  | pending {id n : ℕ} (h : ∃ rest, writes seen = .flushMessage id content :: rest)
    (hunsaved : ∀ id' text citations traceId n', ¬ Got seen (.saveReply id' text citations traceId) n') :
    Stands content seen [(false, userRow n id content)]
  | kept {id n : ℕ} (h : writes seen = [.flushMessage id content, .commit]) : Stands content seen [(true, userRow n id content)]
  | replied {id n n' : ℕ} {citations : List Citation} {traceId : String} (hlt : n < n')
    (h : writes seen = [.flushMessage id content, .saveReply id (delivered seen) citations traceId])
    (hsaved : ∀ id' text citations' traceId' saved, Got seen (.saveReply id' text citations' traceId') saved → saved = n') :
    Stands content seen [(true, userRow n id content), (true, replyRow n' id (delivered seen) citations traceId)]

section Standing

variable {ι : Type} [DecidableEq ι] {setting : Setting} {session : ι} {request : ChatRequest} {content : String}
  {seen : AnswerTrace} {c : AnswerCall} {reply : Except Raised c.Reply} {entries : List (Bool × MessageRow)}

/-- A write was made. -/
theorem mem_writes {value : c.Reply} (h : Got seen c value) (hwrite : c.isWrite) : c ∈ writes seen :=
  List.mem_filter.mpr ⟨List.mem_map_of_mem h, hwrite⟩

/-- One more call that is no write. -/
theorem writes_concat_of_not (seen : AnswerTrace) (reply : Except Raised c.Reply) (hwrite : c.isWrite = false) : writes (seen ++ [⟨c, reply⟩]) = writes seen := by
  rw [writes_append, writes, writes, List.map_singleton, List.filter_singleton, hwrite]
  exact List.append_nil _

/-- One more write. -/
theorem writes_concat (seen : AnswerTrace) (c : AnswerCall) (reply : Except Raised c.Reply) (hwrite : c.isWrite) : writes (seen ++ [⟨c, reply⟩]) = writes seen ++ [c] := by
  rw [writes_append, writes, writes, List.map_singleton, List.filter_singleton, hwrite]
  rfl

/-- A write that was answered before or is answered now. -/
theorem got_concat {c' : AnswerCall} {value : c'.Reply} :
    Got (seen ++ [⟨c, reply⟩]) c' value ↔ Got seen c' value ∨
      (⟨c, reply⟩ : Event AnswerCall AnswerCall.Reply Raised) = ⟨c', .ok value⟩ := by
  simp

/-- Another call was not answered now. -/
theorem got_concat_of_ne {c' : AnswerCall} {value : c'.Reply} (hne : c' ≠ c) :
    Got (seen ++ [⟨c, reply⟩]) c' value ↔ Got seen c' value := by
  rw [got_concat, or_iff_left]
  intro heq
  exact hne (congrArg Event.call heq).symm

/-- Nothing is delivered by a call that carries no text. -/
theorem delivered_concat (seen : AnswerTrace) (reply : Except Raised c.Reply) (h : c.delta = "") : delivered (seen ++ [⟨c, reply⟩]) = delivered seen := by
  rw [delivered_append, delivered, deltaOf, h, ite_self]
  exact String.append_empty

/-- A call that writes nothing leaves the rows where they stand. -/
theorem Stands.quiet (h : Stands content seen entries) (hwrite : c.isWrite = false)
    (hdelta : 2 ≤ (writes seen).length → c.delta = "") : Stands content (seen ++ [⟨c, reply⟩]) entries := by
  have hwrites := writes_concat_of_not seen reply hwrite
  have hgot (c' : AnswerCall) (value : c'.Reply) (hc' : c'.isWrite) :
      Got (seen ++ [⟨c, reply⟩]) c' value ↔ Got seen c' value := by
    apply got_concat_of_ne
    rintro rfl
    rw [hwrite] at hc'
    cases hc'
  cases h with
  | unwritten h => exact .unwritten (hwrites.trans h)
  | lost h hlost => exact .lost (hwrites.trans h) fun hgot' => hlost ((hgot _ _ rfl).mp hgot')
  | pending h hunsaved =>
    rw [← hwrites] at h
    exact .pending h fun id' text citations traceId n' hsaved => hunsaved id' text citations traceId n' ((hgot _ _ rfl).mp hsaved)
  | kept h => exact .kept (hwrites.trans h)
  | replied hlt h hsaved =>
    have hsame := delivered_concat seen reply (hdelta (by rw [h]; rfl))
    rw [← hwrites, ← hsame] at h
    rw [← hsame]
    exact .replied hlt h fun id' text citations traceId saved hsaved' =>
      hsaved id' text citations traceId saved ((hgot _ _ rfl).mp hsaved')

/-- A session that wrote nothing has no rows. -/
theorem Stands.of_unwritten (h : Stands content seen entries) (hwrites : writes seen = []) : entries = [] := by
  cases h with
  | unwritten => rfl
  | lost => rfl
  | pending h =>
    obtain ⟨rest, h⟩ := h
    rw [h] at hwrites
    cases hwrites
  | kept h =>
    rw [h] at hwrites
    cases hwrites
  | replied hlt h =>
    rw [h] at hwrites
    cases hwrites

/-- A session whose message was written has a row that is not committed. -/
theorem Stands.of_flushed {id : ℕ} (h : Stands content seen entries) (hwrites : writes seen = [.flushMessage id content])
    (hflushed : Got seen (.flushMessage id content) ()) : ∃ n, entries = [(false, userRow n id content)] := by
  cases h with
  | unwritten h =>
    rw [h] at hwrites
    cases hwrites
  | lost h hlost =>
    rw [h] at hwrites
    cases hwrites
    exact absurd hflushed hlost
  | pending h =>
    obtain ⟨rest, h⟩ := h
    rw [h] at hwrites
    cases hwrites
    exact ⟨_, rfl⟩
  | kept h =>
    rw [h] at hwrites
    cases hwrites
  | replied hlt h =>
    rw [h] at hwrites
    cases hwrites

/-- No reply is saved when no earlier write saved one and this call does not. -/
theorem unsaved_concat (hwrites : ∀ c' ∈ writes seen, ∃ id text, c' = .flushMessage id text)
    (hnew : ∀ value : c.Reply, reply = .ok value → ∀ id' text citations traceId, c ≠ .saveReply id' text citations traceId)
    (id' : ℕ) (text : String) (citations : List Citation) (traceId : String) (n' : ℕ) :
    ¬ Got (seen ++ [⟨c, reply⟩]) (.saveReply id' text citations traceId) n' := by
  intro hgot
  rcases got_concat.mp hgot with hbefore | hnow
  · obtain ⟨id, text, heq⟩ := hwrites _ (mem_writes hbefore rfl)
    cases heq
  · cases hnow
    exact hnew _ rfl _ _ _ _ rfl

/-- The message is written. -/
theorem Stands.flush {id n : ℕ} {reply : Except Raised Unit} (hwrites : writes seen = []) :
    Stands content (seen ++ [⟨.flushMessage id content, reply⟩]) [(false, userRow n id content)] := by
  have hconcat := writes_concat seen (.flushMessage id content) reply rfl
  have hnone : ∀ c' ∈ writes seen, ∃ id text, c' = .flushMessage id text := by
    rw [hwrites]
    exact List.forall_mem_nil _
  rw [hwrites] at hconcat
  exact .pending ⟨[], hconcat⟩ (unsaved_concat hnone fun _ _ _ _ _ _ hsave => by cases hsave)

/-- The write of the message fails. -/
theorem Stands.flush_failed {id : ℕ} {error : Raised} (hwrites : writes seen = []) :
    Stands content (seen ++ [⟨.flushMessage id content, .error error⟩]) [] := by
  have hconcat := writes_concat seen (.flushMessage id content) (.error error) rfl
  rw [hwrites] at hconcat
  refine .lost hconcat fun hgot => ?_
  rcases got_concat.mp hgot with hbefore | hnow
  · have hmem := mem_writes hbefore rfl
    rw [hwrites] at hmem
    cases hmem
  · cases hnow

/-- The message is committed, or its commit fails. -/
theorem Stands.commit {id n : ℕ} {reply : Except Raised Unit} (hwrites : writes seen = [.flushMessage id content]) :
    Stands content (seen ++ [⟨.commit, reply⟩]) [(true, userRow n id content)] ∧
      Stands content (seen ++ [⟨.commit, reply⟩]) [(false, userRow n id content)] := by
  have hconcat := writes_concat seen .commit reply rfl
  have hnone : ∀ c' ∈ writes seen, ∃ id text, c' = .flushMessage id text := by
    rw [hwrites]
    exact List.forall_mem_singleton.mpr ⟨id, content, rfl⟩
  rw [hwrites] at hconcat
  exact ⟨.kept hconcat, .pending ⟨_, hconcat⟩ (unsaved_concat hnone fun _ _ _ _ _ _ hsave => by cases hsave)⟩

/-- The reply is saved with the message. -/
theorem Stands.saveReply {id n n' : ℕ} {citations : List Citation} {traceId : String} {reply : Except Raised ℕ}
    (hwrites : writes seen = [.flushMessage id content]) (hlt : n < n') (hreply : ∀ saved, reply = .ok saved → saved = n') :
    Stands content (seen ++ [⟨.saveReply id (delivered seen) citations traceId, reply⟩])
      [(true, userRow n id content), (true, replyRow n' id (delivered seen) citations traceId)] := by
  have hconcat := writes_concat seen (.saveReply id (delivered seen) citations traceId) reply rfl
  have hsame := @delivered_concat (.saveReply id (delivered seen) citations traceId) seen reply rfl
  have hstands := @Stands.replied content (seen ++ [⟨.saveReply id (delivered seen) citations traceId, reply⟩]) id n n'
    citations traceId hlt
  rw [hwrites] at hconcat
  rw [hsame] at hstands
  refine hstands hconcat fun id' text citations' traceId' saved hgot => ?_
  rcases got_concat.mp hgot with hbefore | hnow
  · have hmem := mem_writes hbefore rfl
    rw [hwrites] at hmem
    cases List.mem_singleton.mp hmem
  · cases hnow
    exact hreply saved rfl

/-- Saving the reply fails. -/
theorem Stands.saveReply_failed {id n : ℕ} {text : String} {citations : List Citation} {traceId : String} {error : Raised}
    (hwrites : writes seen = [.flushMessage id content]) :
    Stands content (seen ++ [⟨.saveReply id text citations traceId, .error error⟩]) [(false, userRow n id content)] := by
  have hconcat := writes_concat seen (.saveReply id text citations traceId) (.error error) rfl
  have hnone : ∀ c' ∈ writes seen, ∃ id text, c' = .flushMessage id text := by
    rw [hwrites]
    exact List.forall_mem_singleton.mpr ⟨id, content, rfl⟩
  rw [hwrites] at hconcat
  exact .pending ⟨_, hconcat⟩ (unsaved_concat hnone fun value hvalue => by cases hvalue)

/-! ## Steps -/

variable {around : ChatAround} {calls : ℕ} {tables tables' : ChatTables ι} {fault : Option (Fault Raised)}

/-- What a call of a session makes of the tables: they grow, other sessions keep their rows, and so does this one unless the
call is a write. -/
theorem executeAnswer_keeps {value : c.Reply} (h : tables.executeAnswer around calls session c = .ok (tables', value)) :
    tables.Grows tables' ∧ (∀ other, other ≠ session → tables'.own other = tables.own other) ∧
      (c.isWrite = false → tables'.own session = tables.own session) := by
  cases c with
  | getOrCreateUser kcSub =>
    cases h
    exact ⟨tables.grows_signIn kcSub, fun _ _ => rfl, fun _ => rfl⟩
  | flushMessage id text =>
    cases h
    exact ⟨.same rfl rfl, fun other hother => tables.own_write_of_ne hother, fun hwrite => by cases hwrite⟩
  | saveReply id text citations traceId =>
    cases h
    refine ⟨.same rfl rfl, fun other hother => ?_, fun hwrite => by cases hwrite⟩
    rw [ChatTables.own_commit_of_ne _ hother, ChatTables.own_write_of_ne _ hother]
  | commit =>
    cases h
    exact ⟨.same rfl rfl, fun other hother => tables.own_commit_of_ne hother, fun hwrite => by cases hwrite⟩
  | getConversation id =>
    cases h
    exact ⟨.same rfl rfl, fun _ _ => rfl, fun _ => rfl⟩
  | _ =>
    simp only [ChatTables.executeAnswer] at h
    obtain ⟨reply, -, heq⟩ := Flow.map_eq_ok.mp h
    cases heq
    exact ⟨.same rfl rfl, fun _ _ => rfl, fun _ => rfl⟩

/-- A call of a session saves no conversation. -/
theorem executeAnswer_conversations {value : c.Reply}
    (h : tables.executeAnswer around calls session c = .ok (tables', value)) : tables'.conversations = tables.conversations := by
  cases c with
  | getConversation => cases h; rfl
  | getOrCreateUser => cases h; rfl
  | flushMessage => cases h; rfl
  | saveReply => cases h; rfl
  | commit => cases h; rfl
  | _ =>
    simp only [ChatTables.executeAnswer] at h
    obtain ⟨reply, -, heq⟩ := Flow.map_eq_ok.mp h
    cases heq
    rfl

/-- A request that has saved or committed its rows delivers nothing more. -/
theorem delta_of_may (hmay : request.May setting seen c) (hlength : 2 ≤ (writes seen).length) : c.delta = "" := by
  cases request with
  | opens kcSub agentId =>
    rcases hmay with rfl | rfl
    · rfl
    · rfl
  | sends kcSub conversationId content =>
    cases c with
    | yieldEvent event data =>
      rcases hmay with ⟨hshort, -⟩ | ⟨rfl, -⟩
      · omega
      · unfold AnswerCall.delta
        split
        · rename_i heq
          cases heq
          exact if_neg (by decide)
        · rfl
    | _ => rfl

/-- The rows of a session that makes a call that is within its rules. -/
theorem stands_answer (hstands : Stands request.content seen (tables.own session)) (hmay : request.May setting seen c) :
    Stands request.content (seen ++ [⟨c, (faulty fault tables (tables.executeAnswer around calls session c)).2⟩])
      ((faulty fault tables (tables.executeAnswer around calls session c)).1.own session) := by
  by_cases hwrite : c.isWrite = false
  · have hown : (faulty fault tables (tables.executeAnswer around calls session c)).1.own session = tables.own session :=
      faulty_keeps fault (fun tables' => tables'.own session = tables.own session) rfl fun tables' value h =>
        (executeAnswer_keeps h).2.2 hwrite
    rw [hown]
    exact hstands.quiet hwrite (delta_of_may hmay)
  cases request with
  | opens kcSub agentId => rcases hmay with rfl | rfl <;> exact absurd rfl hwrite
  | sends kcSub conversationId content =>
    rcases faulty_cases fault tables (tables.executeAnswer around calls session c) with
      ⟨error, hfaulty⟩ | ⟨tables', value, reply, hexecuted, hfaulty, hreply⟩
    all_goals rw [hfaulty]
    · cases c with
      | flushMessage id text =>
        obtain ⟨conversation, agent, -, -, rfl, hwrites, -⟩ := hmay
        rw [hstands.of_unwritten hwrites]
        exact .flush_failed hwrites
      | saveReply id text citations traceId =>
        obtain ⟨hwrites, hflushed, rfl, -⟩ := hmay
        obtain ⟨n, hown⟩ := hstands.of_flushed hwrites hflushed
        rw [hown]
        exact .saveReply_failed hwrites
      | commit =>
        obtain ⟨id, hwrites, hflushed⟩ := hmay
        obtain ⟨n, hown⟩ := hstands.of_flushed hwrites hflushed
        rw [hown]
        exact (Stands.commit hwrites).2
      | _ => exact absurd rfl hwrite
    · cases c with
      | flushMessage id text =>
        cases hexecuted
        obtain ⟨conversation, agent, -, -, rfl, hwrites, -⟩ := hmay
        rw [ChatTables.own_write, hstands.of_unwritten hwrites]
        exact .flush hwrites
      | saveReply id text citations traceId =>
        cases hexecuted
        obtain ⟨hwrites, hflushed, rfl, -⟩ := hmay
        obtain ⟨n, hown⟩ := hstands.of_flushed hwrites hflushed
        have hlt : n < tables.messages.length := tables.lt_of_mem_own (hown ▸ List.mem_singleton.mpr rfl)
        rw [ChatTables.own_commit, ChatTables.own_write, hown]
        exact .saveReply hwrites hlt hreply
      | commit =>
        cases hexecuted
        obtain ⟨id, hwrites, hflushed⟩ := hmay
        obtain ⟨n, hown⟩ := hstands.of_flushed hwrites hflushed
        rw [ChatTables.own_commit, hown]
        exact (Stands.commit hwrites).1
      | _ => exact absurd rfl hwrite

/-- What a session was answered keeps to the rules of its request. -/
def Lawful (setting : Setting) (request : ChatRequest) (seen : AnswerTrace) : Prop :=
  ∀ before event, before ++ [event] <+: seen → request.May setting before event.call

/-- What the tables answered is still so. -/
structure Logged (tables : ChatTables ι) (seen : AnswerTrace) : Prop where
  conversations : ∀ id row, Got seen (.getConversation id) (some row) →
    ∃ stored, tables.conversations.row id = some stored ∧ stored.toConversationRow = row
  users : ∀ kcSub id, Got seen (.getOrCreateUser kcSub) id → tables.users[id]? = some kcSub

/-- One more call that is within the rules. -/
theorem Lawful.concat (h : Lawful setting request seen) (hmay : request.May setting seen c) :
    Lawful setting request (seen ++ [⟨c, reply⟩]) := by
  intro before event hbefore
  rcases List.prefix_concat_iff.mp hbefore with heq | hearlier
  · obtain ⟨rfl, hevent⟩ := List.append_inj' heq rfl
    cases List.singleton_inj.mp hevent
    exact hmay
  · exact h before event hearlier

/-- A call that was made was within the rules at that moment. -/
theorem Lawful.at_event (h : Lawful setting request seen) {event : Event AnswerCall AnswerCall.Reply Raised}
    (hevent : event ∈ seen) : ∃ before rest, seen = before ++ rest ∧ request.May setting before event.call := by
  obtain ⟨before, rest, rfl⟩ := List.append_of_mem hevent
  exact ⟨before, event :: rest, rfl, h before event ⟨rest, by simp⟩⟩

/-- A write was within the rules when it was made. -/
theorem Lawful.at_write (h : Lawful setting request seen) (hwrite : c ∈ writes seen) :
    ∃ before rest, seen = before ++ rest ∧ request.May setting before c := by
  obtain ⟨event, hevent, rfl⟩ := List.mem_map.mp (List.mem_filter.mp hwrite).1
  exact h.at_event hevent

/-- Only a message that was admitted is written. -/
theorem Lawful.admitted (h : Lawful setting request seen) {id : ℕ} {text : String}
    (hwrite : .flushMessage id text ∈ writes seen) : ∃ kcSub conversationId conversation agent,
      request = .sends kcSub conversationId text ∧ Admitted setting kcSub conversationId seen conversation agent ∧
        id = conversation.id := by
  obtain ⟨before, rest, rfl, hmay⟩ := h.at_write hwrite
  cases request with
  | opens kcSub agentId =>
    rcases hmay with heq | heq
    · cases heq
    · cases heq
  | sends kcSub conversationId content =>
    obtain ⟨conversation, agent, hadmitted, rfl, rfl, -⟩ := hmay
    exact ⟨kcSub, conversationId, conversation, agent, rfl, hadmitted.append rest, rfl⟩

/-- Only a reply that was announced is saved. -/
theorem Lawful.announced (h : Lawful setting request seen) {id : ℕ} {text traceId : String} {citations : List Citation}
    (hwrite : .saveReply id text citations traceId ∈ writes seen) : Got seen .newUuid traceId ∧
      Got seen (.yieldEvent "citations" (.obj [("citations", citationsJson citations)])) () := by
  obtain ⟨before, rest, rfl, hmay⟩ := h.at_write hwrite
  cases request with
  | opens kcSub agentId =>
    rcases hmay with heq | heq
    · cases heq
    · cases heq
  | sends kcSub conversationId content =>
    obtain ⟨-, -, -, htrace, hcited⟩ := hmay
    exact ⟨List.mem_append_left _ htrace, List.mem_append_left _ hcited⟩

/-- The end of a stream names a reply that was saved. -/
theorem Lawful.ended (h : Lawful setting request seen) {data : Json} (hdone : Got seen (.yieldEvent "done" data) ()) :
    ∃ id text citations traceId messageId, Got seen (.saveReply id text citations traceId) messageId ∧
      data = .obj [("message_id", .int messageId), ("trace_id", .str traceId)] := by
  obtain ⟨before, rest, rfl, hmay⟩ := h.at_event hdone
  cases request with
  | opens kcSub agentId =>
    rcases hmay with heq | heq
    · cases heq
    · cases heq
  | sends kcSub conversationId content =>
    rcases hmay with ⟨-, hne⟩ | ⟨-, id, text, citations, traceId, messageId, hsaved, rfl⟩
    · exact absurd rfl hne
    · exact ⟨id, text, citations, traceId, messageId, List.mem_append_left _ hsaved, rfl⟩

omit [DecidableEq ι] in
/-- What was answered is so in tables that have grown. -/
theorem Logged.grows (h : Logged tables seen) (hgrows : tables.Grows tables') : Logged tables' seen := by
  refine ⟨fun id row hgot => ?_, fun kcSub id hgot => ?_⟩
  · obtain ⟨stored, hstored, heq⟩ := h.conversations id row hgot
    exact ⟨stored, hgrows.conversations id stored hstored, heq⟩
  · obtain ⟨rest, hrest⟩ := hgrows.users
    have hid := h.users kcSub id hgot
    rw [← hrest, List.getElem?_append_left (List.getElem?_eq_some_iff.mp hid).1]
    exact hid

/-- What is answered now is so. -/
theorem Logged.answer (h : Logged tables seen) :
    Logged (faulty fault tables (tables.executeAnswer around calls session c)).1
      (seen ++ [⟨c, (faulty fault tables (tables.executeAnswer around calls session c)).2⟩]) := by
  rcases faulty_cases fault tables (tables.executeAnswer around calls session c) with
    ⟨error, hfaulty⟩ | ⟨tables', value, reply, hexecuted, hfaulty, hreply⟩
  all_goals rw [hfaulty]
  · refine ⟨fun id row hgot => ?_, fun kcSub id hgot => ?_⟩
    · rcases got_concat.mp hgot with hbefore | hnow
      · exact h.conversations id row hbefore
      · cases hnow
    · rcases got_concat.mp hgot with hbefore | hnow
      · exact h.users kcSub id hbefore
      · cases hnow
  · have hgrown := h.grows (executeAnswer_keeps hexecuted).1
    refine ⟨fun id row hgot => ?_, fun kcSub id hgot => ?_⟩
    · rcases got_concat.mp hgot with hbefore | hnow
      · exact hgrown.conversations id row hbefore
      · cases hnow
        have hvalue := hreply _ rfl
        cases hexecuted
        obtain ⟨stored, hstored, rfl⟩ := Option.map_eq_some_iff.mp hvalue.symm
        exact ⟨stored, hstored, rfl⟩
    · rcases got_concat.mp hgot with hbefore | hnow
      · exact hgrown.users kcSub id hbefore
      · cases hnow
        have hvalue := hreply _ rfl
        cases hexecuted
        rw [hvalue]
        exact tables.users_signIn kcSub

end Standing

/-! ## Schedules -/

namespace ChatTraffic

variable {ι : Type} [DecidableEq ι] {traffic : ChatTraffic ι} {schedule : List ι} {task other : ι}

/-- What is known of a request at some moment: what it was answered is lawful and still so, and where its rows stand. -/
structure Holds (traffic : ChatTraffic ι) (schedule : List ι) (task : ι) (seen : AnswerTrace) : Prop where
  served : traffic.served schedule task = seen
  lawful : Lawful traffic.setting (traffic.requests task) seen
  stands : Stands (traffic.requests task).content seen ((traffic.tables schedule).own task)
  logged : Logged (traffic.tables schedule) seen

/-- Conversations belong to who opened them. -/
def Opened (traffic : ChatTraffic ι) (schedule : List ι) : Prop :=
  ∀ id row, (traffic.tables schedule).conversations.row id = some row → ∃ opener kcSub agentId,
    traffic.requests opener = .opens kcSub agentId ∧ (traffic.tables schedule).users[row.userId]? = some kcSub ∧
    row.subjectHash = Api.subjectHash traffic.setting.texts.py kcSub

/-- The calls of a session. -/
def Of (session : ι) : ChatCall ι → Prop
  | .answering other _ => other = session
  | _ => True

omit [DecidableEq ι] in
/-- A request makes its own calls. -/
theorem only_task (setting : Setting) (session : ι) (request : ChatRequest) : (request.task setting session).Only (Of session) := by
  cases request with
  | opens kcSub agentId =>
    apply (Prog.only_call trivial).bind
    intro _
    refine Prog.Only.bind ?_ fun _ => Prog.only_pure _
    have hown (c : AnswerCall) : Of session (.answering session c) := rfl
    apply (Prog.only_call (hown _)).bind
    rintro (_ | agent)
    · trivial
    · apply (Prog.only_call (hown _)).bind
      intro userId
      exact Prog.only_call trivial
  | sends kcSub conversationId content =>
    apply (Prog.only_call trivial).bind
    intro _
    apply (Prog.only_any _).embed.mono
    rintro _ ⟨c, rfl, -⟩
    rfl

/-- What a task waits for at some moment is a call of its own. -/
theorem of_await {c : ChatCall ι} {next : Except Raised c.Reply → Chatting ι Unit}
    (hrun : (traffic.at schedule).running task = .await c next) : Of task c := by
  have honly : ((traffic.at schedule).running task).Only (Of task) :=
    Crew.only_exec Of (fun task => only_task traffic.setting task (traffic.requests task)) schedule task
  rw [hrun] at honly
  exact honly.1

/-- A step of a task that waits is answered. -/
theorem shared_concat {c : ChatCall ι} {next : Except Raised c.Reply → Chatting ι Unit}
    (hrun : (traffic.at schedule).running task = .await c next) :
    (traffic.at (schedule ++ [task])).shared = ((traffic.at schedule).shared.answer traffic.around c).1 := by
  have hstep := Crew.step_of_await (ChatWorld.answer traffic.around) hrun
  rw [ChatTraffic.at, Crew.exec_concat]
  exact congrArg Crew.shared hstep

/-- A call of a session lets the tables grow and leaves the rows of other sessions. -/
theorem execute_keeps {around : ChatAround} {calls : ℕ} {tables tables' : ChatTables ι} {c : ChatCall ι} {value : c.Reply}
    (hof : Of task c) (h : tables.execute around calls c = .ok (tables', value)) :
    tables.Grows tables' ∧ ∀ other, other ≠ task → tables'.own other = tables.own other := by
  cases c with
  | signIn kcSub =>
    cases h
    exact ⟨tables.grows_signIn kcSub, fun _ _ => rfl⟩
  | answering session c =>
    obtain rfl : session = task := hof
    exact ⟨(executeAnswer_keeps h).1, (executeAnswer_keeps h).2.1⟩
  | saveConversation agentId userId subjectHash =>
    cases h
    exact ⟨tables.grows_saveConversation agentId userId subjectHash, fun _ _ => rfl⟩

/-- The tables after a step of a task that waits. -/
theorem tables_concat {c : ChatCall ι} {next : Except Raised c.Reply → Chatting ι Unit}
    (hrun : (traffic.at schedule).running task = .await c next) : traffic.tables (schedule ++ [task]) =
      (faulty (traffic.around.fault (traffic.at schedule).shared.calls) (traffic.tables schedule)
        ((traffic.tables schedule).execute traffic.around (traffic.at schedule).shared.calls c)).1 := by
  rw [tables, shared_concat hrun]
  rfl

/-- What sessions were answered after a step of a task that waits. -/
theorem served_concat {c : ChatCall ι} {next : Except Raised c.Reply → Chatting ι Unit}
    (hrun : (traffic.at schedule).running task = .await c next) (other : ι) : traffic.served (schedule ++ [task]) other =
      recorded (traffic.served schedule) c ((traffic.at schedule).shared.answer traffic.around c).2 other := by
  simp only [served, shared_concat hrun]
  rfl

/-- A step lets the tables grow, and leaves the rows and the answers of other tasks. -/
theorem step_keeps (schedule : List ι) (task : ι) :
    (traffic.tables schedule).Grows (traffic.tables (schedule ++ [task])) ∧ ∀ other, other ≠ task →
      (traffic.tables (schedule ++ [task])).own other = (traffic.tables schedule).own other ∧
      traffic.served (schedule ++ [task]) other = traffic.served schedule other := by
  rcases Crew.step_cases (ChatWorld.answer traffic.around) (traffic.at schedule) task with hsame | ⟨c, next, hrun⟩
  · have hat : traffic.at (schedule ++ [task]) = traffic.at schedule := by
      rw [ChatTraffic.at, Crew.exec_concat]
      exact hsame
    have htables : traffic.tables (schedule ++ [task]) = traffic.tables schedule := by
      rw [tables, hat]
      rfl
    refine ⟨.same (by rw [htables]) (by rw [htables]), fun other hother => ⟨by rw [htables], ?_⟩⟩
    simp only [served, hat]
  · have hof := of_await hrun
    have hkeeps : (traffic.tables schedule).Grows (traffic.tables (schedule ++ [task])) ∧ ∀ other, other ≠ task →
        (traffic.tables (schedule ++ [task])).own other = (traffic.tables schedule).own other := by
      rw [tables_concat hrun]
      exact faulty_keeps _ (fun tables => (traffic.tables schedule).Grows tables ∧ ∀ other, other ≠ task →
        tables.own other = (traffic.tables schedule).own other) ⟨.same rfl rfl, fun _ _ => rfl⟩
        fun tables' value h => execute_keeps hof h
    refine ⟨hkeeps.1, fun other hother => ⟨hkeeps.2 other hother, ?_⟩⟩
    rw [served_concat hrun]
    cases c with
    | answering session c =>
      obtain rfl : session = task := hof
      exact Function.update_of_ne hother _ _
    | _ => rfl

/-- Conversations belong to who opened them in tables that have grown by no conversation. -/
theorem Opened.grows {schedule' : List ι} (h : traffic.Opened schedule)
    (hgrows : (traffic.tables schedule).Grows (traffic.tables schedule'))
    (hsame : (traffic.tables schedule').conversations = (traffic.tables schedule).conversations) :
    traffic.Opened schedule' := by
  intro id row hrow
  rw [hsame] at hrow
  obtain ⟨opener, kcSub, agentId, hopener, huser, hhash⟩ := h id row hrow
  obtain ⟨rest, hrest⟩ := hgrows.users
  refine ⟨opener, kcSub, agentId, hopener, ?_, hhash⟩
  rw [← hrest, List.getElem?_append_left (List.getElem?_eq_some_iff.mp huser).1]
  exact huser

/-- A conversation that is saved belongs to who opens it. -/
theorem Opened.save {seen : AnswerTrace} {agentId userId : ℕ} {subjectHash : String}
    {next : Except Raised StoredConversation → Chatting ι Unit} (hopened : traffic.Opened schedule)
    (hholds : traffic.Holds schedule task seen)
    (hrun : (traffic.at schedule).running task = .await (.saveConversation agentId userId subjectHash) next)
    (hallowed : (traffic.requests task).MaySave traffic.setting seen userId subjectHash) :
    traffic.Opened (schedule ++ [task]) := by
  have hgrows : (traffic.tables schedule).Grows (traffic.tables (schedule ++ [task])) := (step_keeps schedule task).1
  have htables := tables_concat hrun
  rcases faulty_cases (traffic.around.fault (traffic.at schedule).shared.calls) (traffic.tables schedule)
    ((traffic.tables schedule).execute traffic.around (traffic.at schedule).shared.calls
      (.saveConversation agentId userId subjectHash)) with ⟨error, hfaulty⟩ | ⟨tables', value, reply, hexecuted, hfaulty, -⟩
  · rw [hfaulty] at htables
    exact hopened.grows hgrows (by rw [htables])
  · rw [hfaulty] at htables
    cases hexecuted
    cases hrequest : traffic.requests task with
    | sends => rw [hrequest] at hallowed; exact hallowed.elim
    | opens kcSub agentId' =>
      rw [hrequest] at hallowed
      obtain ⟨hgot, rfl⟩ := hallowed
      have husers : ∀ (userId : ℕ) kcSub, (traffic.tables schedule).users[userId]? = some kcSub →
          (traffic.tables (schedule ++ [task])).users[userId]? = some kcSub := by
        rw [htables]
        exact fun _ _ huser => huser
      intro id row hrow
      rw [htables] at hrow
      simp only [ChatTables.saveConversation, Table.row_insert] at hrow
      split at hrow
      · cases hrow
        exact ⟨task, kcSub, agentId', hrequest, husers _ _ (hholds.logged.users kcSub userId hgot), rfl⟩
      · obtain ⟨opener, kcSub', agentId'', hopener, huser, hhash⟩ := hopened id row hrow
        exact ⟨opener, kcSub', agentId'', hopener, husers _ _ huser, hhash⟩

/-- A call that a task may make keeps what is known of it. -/
theorem step_holds {seen : AnswerTrace} {c : ChatCall ι} {next : Except Raised c.Reply → Chatting ι Unit}
    (hopened : traffic.Opened schedule) (hholds : traffic.Holds schedule task seen)
    (hrun : (traffic.at schedule).running task = .await c next)
    (hallowed : (chatProtocol traffic.setting task (traffic.requests task)).allowed seen c) :
    traffic.Opened (schedule ++ [task]) ∧ ∃ seen', (chatProtocol traffic.setting task (traffic.requests task)).answers seen c
        ((traffic.at schedule).shared.answer traffic.around c).2 seen' ∧ traffic.Holds (schedule ++ [task]) task seen' := by
  have hgrows : (traffic.tables schedule).Grows (traffic.tables (schedule ++ [task])) := (step_keeps schedule task).1
  have htables := tables_concat hrun
  have hserved := served_concat hrun task
  cases c with
  | signIn kcSub =>
    have hsame : (traffic.tables (schedule ++ [task])).conversations = (traffic.tables schedule).conversations ∧
        (traffic.tables (schedule ++ [task])).own task = (traffic.tables schedule).own task := by
      rw [htables]
      apply faulty_keeps _ (fun tables : ChatTables ι => tables.conversations = (traffic.tables schedule).conversations ∧
        tables.own task = (traffic.tables schedule).own task) ⟨rfl, rfl⟩
      intro tables' value h
      cases h
      exact ⟨rfl, rfl⟩
    refine ⟨hopened.grows hgrows hsame.1, seen, rfl, hserved.trans hholds.served, hholds.lawful, ?_, hholds.logged.grows hgrows⟩
    rw [hsame.2]
    exact hholds.stands
  | answering session c =>
    obtain ⟨rfl, hmay⟩ := hallowed
    have hsame : (traffic.tables (schedule ++ [session])).conversations = (traffic.tables schedule).conversations := by
      rw [htables]
      apply faulty_keeps _ (fun tables : ChatTables ι => tables.conversations = (traffic.tables schedule).conversations) rfl
      intro tables' value h
      exact executeAnswer_conversations h
    refine ⟨hopened.grows hgrows hsame, _, rfl, ?_, hholds.lawful.concat hmay, ?_, ?_⟩
    · rw [hserved, recorded, Function.update_self, hholds.served]
    · rw [htables]
      exact stands_answer hholds.stands hmay
    · rw [htables]
      exact hholds.logged.answer
  | saveConversation agentId userId subjectHash =>
    have hsame : (traffic.tables (schedule ++ [task])).own task = (traffic.tables schedule).own task := by
      rw [htables]
      apply faulty_keeps _ (fun tables : ChatTables ι => tables.own task = (traffic.tables schedule).own task) rfl
      intro tables' value h
      cases h
      rfl
    refine ⟨?_, seen, rfl, hserved.trans hholds.served, hholds.lawful, ?_, hholds.logged.grows hgrows⟩
    · exact hopened.save hholds hrun hallowed
    · rw [hsame]
      exact hholds.stands

/-- At every moment conversations belong to who opened them, and what is known of each request holds. -/
theorem holds_schedule (schedule : List ι) : traffic.Opened schedule ∧ ∀ task, ∃ seen, traffic.Holds schedule task seen := by
  have hensures := @Crew.exec_ensures (ChatCall ι) ChatCall.Reply Raised (ChatWorld ι) ι Unit _
    (ChatWorld.answer traffic.around) traffic.start AnswerTrace
    (fun task => chatProtocol traffic.setting task (traffic.requests task)) (fun _ _ _ => True) (fun _ => True)
    traffic.Opened traffic.Holds (fun _ _ _ => trivial) (fun id row hrow => by cases hrow) ?_ ?_ ?_ ?_ schedule trivial
  · refine ⟨hensures.1, fun task => ?_⟩
    obtain ⟨seen, hholds, -⟩ := hensures.2 task
    exact ⟨seen, hholds⟩
  · intro task
    refine ⟨[], ⟨rfl, ?_, .unwritten rfl, ?_⟩, ensures_task (traffic.requests task)⟩
    · intro before event hprefix
      exact absurd (List.prefix_nil.mp hprefix) (by simp)
    · exact ⟨fun id row hgot => absurd hgot (not_got_nil _ _), fun kcSub id hgot => absurd hgot (not_got_nil _ _)⟩
  · intro schedule task seen c next _ hopened hholds hrun hallowed
    exact step_holds hopened hholds hrun hallowed
  · intro schedule task seen result hsame hopened hholds _
    have hat : traffic.at (schedule ++ [task]) = traffic.at schedule := hsame
    refine ⟨?_, ?_, hholds.lawful, ?_, ?_⟩
    · intro id row hrow
      simp only [tables, hat] at hrow ⊢
      exact hopened id row hrow
    · simp only [served, hat]
      exact hholds.served
    · simp only [tables, hat]
      exact hholds.stands
    · simp only [tables, hat]
      exact hholds.logged
  · intro schedule task other seen hne hholds
    have hgrows : (traffic.tables schedule).Grows (traffic.tables (schedule ++ [other])) := (step_keeps schedule other).1
    obtain ⟨hown, hserved⟩ := (step_keeps schedule other).2 task hne
    exact ⟨hserved.trans hholds.served, hholds.lawful, hown ▸ hholds.stands, hholds.logged.grows hgrows⟩

/-- A message that was written belongs to a conversation of its user. -/
theorem owns_of_written (hopened : traffic.Opened schedule) {seen : AnswerTrace} (hholds : traffic.Holds schedule task seen)
    {id : ℕ} (hwrite : .flushMessage id (traffic.requests task).content ∈ writes seen) : ∃ conversation,
      traffic.Owns schedule task conversation (traffic.requests task).content ∧ id = conversation.id := by
  obtain ⟨kcSub, conversationId, conversation, agent, hrequest, hadmitted, rfl⟩ := hholds.lawful.admitted hwrite
  obtain ⟨stored, hstored, rfl⟩ := hholds.logged.conversations conversationId conversation hadmitted.found
  obtain ⟨opener, kcSub', agentId, hopener, huser, -⟩ := hopened conversationId stored hstored
  have howner := hholds.logged.users kcSub stored.userId hadmitted.owner
  obtain rfl : kcSub = kcSub' := Option.some.inj (howner.symm.trans huser)
  have hid : stored.id = conversationId := (traffic.tables schedule).conversations.keyed conversationId stored hstored
  refine ⟨stored, ⟨⟨kcSub, agent, opener, agentId, ?_, ?_, hopener⟩, ?_⟩, rfl⟩
  · rw [hid]
    exact hrequest
  · rw [hid, hholds.served]
    exact hadmitted
  · rw [hid]
    exact hstored

/-- The rows of a request, from where they stand. -/
theorem rows_of_holds (hopened : traffic.Opened schedule) {seen : AnswerTrace} (hholds : traffic.Holds schedule task seen) :
    traffic.Rows schedule task := by
  have hstands := hholds.stands
  rw [Rows, ChatTables.rowsOf]
  cases hown : (traffic.tables schedule).own task with
  | nil => exact .inl rfl
  | cons first rest =>
    rw [hown] at hstands
    cases hstands with
    | pending => exact .inl rfl
    | kept h =>
      obtain ⟨conversation, howns, rfl⟩ := owns_of_written hopened hholds (h ▸ List.mem_cons_self)
      exact .inr ⟨conversation, _, _, howns, .inl rfl⟩
    | replied hlt h =>
      obtain ⟨conversation, howns, rfl⟩ := owns_of_written hopened hholds (h ▸ List.mem_cons_self)
      have hannounced := hholds.lawful.announced (h ▸ List.mem_cons_of_mem _ (List.mem_singleton.mpr rfl))
      rw [hholds.served]
      exact .inr ⟨conversation, _, _, howns, .inr ⟨_, _, _, hlt, rfl, hannounced⟩⟩

/-- A stream that ends names its reply. -/
theorem named_of_holds {seen : AnswerTrace} (hholds : traffic.Holds schedule task seen) {data : Json}
    (hdone : Got seen (.yieldEvent "done" data) ()) :
    ∃ (id convId : ℕ) (citations : List Citation) (traceId : String),
      data = .obj [("message_id", .int id), ("trace_id", .str traceId)] ∧
        replyRow id convId (delivered seen) citations traceId ∈ (traffic.tables schedule).rowsOf task := by
  obtain ⟨id, text, citations, traceId, messageId, hsaved, rfl⟩ := hholds.lawful.ended hdone
  have hwrite := mem_writes hsaved rfl
  have hstands := hholds.stands
  rw [ChatTables.rowsOf]
  generalize (traffic.tables schedule).own task = entries at hstands
  cases hstands with
  | unwritten h =>
    rw [h] at hwrite
    cases hwrite
  | lost h =>
    rw [h] at hwrite
    cases List.mem_singleton.mp hwrite
  | pending h hunsaved => exact absurd hsaved (hunsaved _ _ _ _ _)
  | kept h =>
    rw [h] at hwrite
    rcases List.mem_cons.mp hwrite with heq | hlast
    · cases heq
    · cases List.mem_singleton.mp hlast
  | replied hlt h hsaved' =>
    rw [h] at hwrite
    rcases List.mem_cons.mp hwrite with heq | hlast
    · cases heq
    · cases List.mem_singleton.mp hlast
      obtain rfl := hsaved' _ _ _ _ _ hsaved
      exact ⟨messageId, _, _, _, rfl, List.mem_cons_of_mem _ (List.mem_singleton.mpr rfl)⟩

variable (traffic schedule)

/-- Requests of chat, interleaved in any way and failing or abandoned at any call: every row of the table of messages is the
message of a request, in a conversation that its user opened, or its reply, which the stream delivered; and a stream that
ends names its reply. -/
theorem transcribed : traffic.Transcribed schedule := by
  obtain ⟨hopened, hholds⟩ := traffic.holds_schedule schedule
  refine ⟨hopened, fun task => ?_, fun task data hdone => ?_⟩
  · obtain ⟨seen, hholds⟩ := hholds task
    exact rows_of_holds hopened hholds
  · obtain ⟨seen, hholds⟩ := hholds task
    rw [hholds.served] at hdone ⊢
    exact named_of_holds hholds hdone

end ChatTraffic

end FleetWorkflow.Answers
