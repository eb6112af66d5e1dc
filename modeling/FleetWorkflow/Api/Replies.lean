import FleetWorkflow.Api.AgentsAdmin
import FleetWorkflow.Api.Approvals

/-!
# Asking agents

The two requests that make an agent answer a question, a chat message and the agent run of an
automation, and the automation's e-mail, which is only queued. Both ways of asking check that the
agent may read its collections and reply on one of three paths: analytics, retrieval, or the model
alone. The events that a chat streams are not modelled.
-/

namespace FleetWorkflow.Api

open Python Async Core Agents

/-! ## Sensitivity -/

/-- The level of a sensitivity. -/
def sensitivityLevel (py : Builtins) (sensitivity : Json) : Except Exc ℕ :=
  let level := match sensitivity with
    | .str text => ["public", "internal", "confidential", "pii"].findIdx? fun name => name = py.lower text
    | _ => none
  match level with
  | some level => .ok level
  | none => .error ⟨.valueError, "unknown sensitivity: " ++ py.repr sensitivity⟩

/-- Refuse the first collection above a level. -/
def refuseAbove (py : Builtins) (agent : AgentRow) (level : ℕ) : List Json → Coroutine Unit
  | [] => return ()
  | collection :: rest => do
    let sensitivity ← Prog.ofExcept (collection.item "sensitivity")
    let required ← Prog.ofExcept (sensitivityLevel py sensitivity)
    if level < required then
      let name ← Prog.ofExcept (collection.item "name")
      httpError 403 ("agent sensitivity " ++ py.repr (.str agent.sensitivity) ++ " cannot read collection " ++
        py.repr name ++ " (sensitivity " ++ py.repr sensitivity ++ ")")
    else refuseAbove py agent level rest

/-- `_assert_agent_may_read_its_collections`. -/
def assertAgentMayReadItsCollections (py : Builtins) (agent : AgentRow) : Coroutine Unit :=
  if agent.collectionIds.isEmpty then return ()
  else do
    let level ← Prog.ofExcept (sensitivityLevel py (.str agent.sensitivity))
    let collections ← await (.query "collections" [.arr (agent.collectionIds.map .int)])
    let collections ← Prog.ofExcept collections.iterate
    refuseAbove py agent level collections

/-! ## Reply paths -/

section Replies

variable (fleet : Fleet)

/-- The name of the agent that answers with queries. -/
def analyticsAgentName : String := "analytics"

/-- The model alone: one streamed call. -/
def plainReply (actor : Actor) (agent : AgentRow) (question : String) : Coroutine String := do
  let response ← await (.llm actor "reasoning_stream"
    [chatMessage "system" "You are a helpful assistant.", chatMessage "user" question]
    [("sensitivity", .str agent.sensitivity), ("agent_id", .str (toString agent.id)),
      ("trace_id", .str actor.thread)])
  return response.content

/-- The reply of an agent, on the path that its name and collections choose. -/
def replyOf (agent : AgentRow) (question traceId : String) : Coroutine String := do
  let actor : Actor := ⟨agent.name, traceId⟩
  await (.enter actor "reply")
  if agent.name = analyticsAgentName then fleet.analyticsReply actor agent question
  else if agent.collectionIds.isEmpty then plainReply actor agent question
  else fleet.ragReply actor agent question

/-! ## The automations' surface -/

/-- `POST /v1/service/agent-run`; the answer and its trace. -/
def agentRun (agentName question : String) : Coroutine (String × String) := do
  match ← await (.findAgent agentName) with
  | none => httpError 404 ("unknown agent: " ++ agentName)
  | some agent =>
    if agent.status ≠ "active" then httpError 409 ("agent is " ++ agent.status)
    else
      assertAgentMayReadItsCollections fleet.py agent
      await .buildClient
      let traceId ← await .uuid4
      let text ← replyOf fleet agent question traceId
      return (text, traceId)

/-- An e-mail to queue. -/
structure EmailSendIn where
  recipient : String
  subject : String
  body : String

/-- The payload under which an e-mail is queued. -/
def EmailSendIn.payload (body : EmailSendIn) : Dict :=
  [("to", .str body.recipient), ("subject", .str body.subject), ("body", .str body.body)]

/-- `POST /v1/service/email-send`: queue an e-mail for approval. -/
def emailSendRequest (body : EmailSendIn) : Coroutine (ℕ × String) :=
  if !isAllowedRecipient body.recipient allowedEmailDomains then
    httpError 422 ("recipient not allowed: " ++ fleet.py.repr (.str body.recipient))
  else do
    match ← await (.findAgent recipeAgentName) with
    | none => httpError 500 (fleet.py.repr (.str recipeAgentName) ++ " agent row is missing — run `make seed`")
    | some agent =>
      let runId ← await .uuid4
      let approval ← await (.insertApproval ⟨agent.id, runId, "email.send", body.payload⟩)
      let approval ← refreshApproval approval.id
      return (approval.id, runId)

/-! ## Chat -/

/-- A number that names a row. -/
def rowId : Json → Except Exc ℕ
  | .int n => .ok n.toNat
  | _ => .error ⟨.typeError, "expected int"⟩

/-- The agent of a conversation, if it is the user's. -/
def conversationAgent (conversationId : ℕ) (sub : String) : Coroutine AgentRow := do
  match ← await (.query "conversation" [.int conversationId]) with
  | .null => httpError 404 "conversation not found"
  | conversation =>
    let user ← await (.query "get_or_create_user" [.str sub])
    let userId ← Prog.ofExcept (user.item "id" >>= rowId)
    let ownerId ← Prog.ofExcept (conversation.item "user_id" >>= rowId)
    if ownerId ≠ userId then httpError 403 "not your conversation"
    else
      let agentId ← Prog.ofExcept (conversation.item "agent_id" >>= rowId)
      agentOr404 agentId

/-- The agent is paused, as its row or the kill switch says. -/
def agentIsPaused (killswitch : KillSwitch) (agent : AgentRow) : Coroutine Bool :=
  if agent.status = "paused" then return true else killswitch.isAgentPaused agent.name

/-- `_stream_reply`: keep the message, reply, keep the reply; a gateway's refusal ends the stream. -/
def streamReply (conversationId : ℕ) (agent : AgentRow) (content : String) : Coroutine Unit := do
  let traceId ← await .uuid4
  let _ ← await (.query "insert_message" [.int conversationId, .str "user", .str content])
  match ← (replyOf fleet agent content traceId).attempt with
  | .ok text =>
    let _ ← await (.query "insert_message" [.int conversationId, .str "assistant", .str text, .str traceId])
  | .error error =>
    if error.kind = .gateway then
      let _ ← await (.query "commit" [])
    else .raise error

/-- `POST /v1/conversations/(conversation_id)/messages`; each request has a kill switch. -/
def sendMessage (killswitch : KillSwitch) (conversationId : ℕ) (content sub : String) : Coroutine Unit := do
  let agent ← conversationAgent conversationId sub
  if ← agentIsPaused killswitch agent then httpError 409 "agent is paused"
  else
    assertAgentMayReadItsCollections fleet.py agent
    await .buildClient
    streamReply fleet conversationId agent content

end Replies

end FleetWorkflow.Api
