import FleetWorkflow.Answers.Query
import FleetWorkflow.Flow.Fallible

/-!
# Analytics

A question becomes one governed query: the model writes it over the views of the semantic layer, or
asks back. The query tool enforces what may be read.
-/

namespace FleetWorkflow.Answers

open Python Async Core Llm

/-- A view with its columns. -/
structure ViewSpec where
  name : String
  description : String
  columns : List (String × String)

/-- `DEFAULT_SEMANTIC_LAYER`. -/
def defaultSemanticLayer : List ViewSpec :=
  [⟨"fixture_sales", "One row per sale transaction.",
      [("id", "surrogate primary key"), ("region", "sale region code (TR, DE, US, FR)"),
        ("amount_usd", "sale amount in US dollars"), ("sold_on", "date the sale closed")]⟩,
    ⟨"fixture_orders", "One row per order line, referencing a sale.",
      [("id", "surrogate primary key"), ("sale_id", "foreign key into fixture_sales.id"),
        ("quantity", "units ordered on this line"), ("refunded", "true if this order line was refunded")]⟩]

/-- `describe()`. -/
def describe (views : List ViewSpec) : String :=
  String.intercalate "\n\n" (views.map fun view =>
    "### " ++ view.name ++ "\n" ++ view.description ++ "\nColumns:\n" ++
      String.intercalate "\n" (view.columns.map fun column => "  - " ++ column.1 ++ ": " ++ column.2))

/-- `_build_system_prompt(semantic_layer)`. -/
def analyticsPrompt (views : List ViewSpec) : String :=
  "You translate natural-language business questions into read-only " ++
  "PostgreSQL SELECT queries over the views described below. Only use these views and columns " ++
  "— never invent a table or column name.\n\n" ++ describe views ++
  "\n\nRespond with exactly one JSON object and nothing else — no markdown code fences, no commentary:\n" ++
  "- If the question is answerable: \x7b\"sql\": \"SELECT ...\"\x7d\n" ++
  "- If the question is ambiguous or missing information you need to write a correct query: " ++
  "\x7b\"clarify\": \"<one specific clarifying question>\"\x7d\n"

/-- The three characters of a code fence. -/
def fence : List Char := [Char.ofNat 96, Char.ofNat 96, Char.ofNat 96]

/-- `_strip_code_fence(text)`. -/
def stripCodeFence (text : String) : String :=
  let cs := stripChars text.toList
  if fence.isPrefixOf cs && fence.isSuffixOf cs && 6 ≤ cs.length then
    let body := (cs.drop 3).take (cs.length - 6)
    let untagged := if ['j', 's', 'o', 'n'].isPrefixOf body then body.drop 4 else body
    String.ofList (stripChars untagged)
  else text

variable (setting : Setting)

/-- The query that a reply of the model holds. -/
def sqlOf (content : String) : Except Exc String :=
  match Json.loads (stripCodeFence content) with
  | .error .decode =>
    .error ⟨.valueError, "model did not return valid JSON: " ++ setting.texts.py.repr (.str content)⟩
  | .error .intDigits => .error ⟨.valueError, "Exceeds the limit (4300 digits) for integer string conversion"⟩
  | .ok parsed => do
    if ← parsed.contains "clarify" then
      throw ⟨.clarificationNeeded, setting.texts.py.str (← parsed.item "clarify")⟩
    else if ← parsed.contains "sql" then return setting.texts.py.str (← parsed.item "sql")
    else throw ⟨.valueError, "model response missing both 'sql' and 'clarify': " ++ setting.texts.py.repr parsed⟩

/-- `generate_sql(question=..., semantic_layer=..., llm_client=..., ...)`. -/
def generateSql (question : String) (views : List ViewSpec) (sensitivity : String) (kwargs : Dict) :
    Answering String := do
  let messages := [message "system" (analyticsPrompt views), message "user" question]
  let content ← lift (asText (← awaitAnswer (.reasoning [] messages sensitivity kwargs)))
  lift (sqlOf setting content)

/-- An exception of one kind as one of another kind. -/
def renamed (kind kind' : ExcKind) : Raised → Raised
  | .exception error => .exception (if error.kind = kind then ⟨kind', error.message⟩ else error)
  | error => error

/-- `ask_analytics(...)`: the query and its rows. -/
def askAnalytics (question : String) (views : List ViewSpec) (sensitivity : String) (kwargs : Dict) :
    Answering (String × List Json) := do
  let sql ← (generateSql setting question views sensitivity kwargs).mapError
    (renamed .clarificationNeeded .analyticsClarification)
  let rows ← (awaitAnswer (.queryTables sql)).mapError (renamed .governedToolRefusal .analyticsRefusal)
  return (sql, rows)

/-!
## Replies

The reply paths of an agent, and the endpoints over them: chat, which streams events, the agent run
of an automation, and the query endpoint of a collection.
-/

variable (setting : Setting)

/-- A collection lies above the level of an agent. -/
def above (level : Sensitivity) (collection : CollectionRow) : Except Raised Bool := do
  let own ← Sensitivity.parse setting.texts (.text collection.sensitivity)
  return level.level < own.level

/-- Refuse the first collection above the level of the agent. -/
def refuseAbove (agent : AgentRow) (level : Sensitivity) : List CollectionRow → Except Raised Unit
  | [] => .ok ()
  | collection :: rest => do
    if ← above setting level collection then
      throw (.exception ⟨.http 403, "agent sensitivity " ++ setting.texts.py.repr (.str agent.sensitivity) ++
        " cannot read collection " ++ setting.texts.py.repr (.str collection.name) ++ " (sensitivity " ++
        setting.texts.py.repr (.str collection.sensitivity) ++ ")"⟩)
    else refuseAbove agent level rest

/-- No collection that the check of an agent passes is above the agent. -/
theorem above_of_refuseAbove {setting : Setting} {agent : AgentRow} {level : Sensitivity} {rows : List CollectionRow}
    (h : refuseAbove setting agent level rows = .ok ()) : ∀ row ∈ rows, above setting level row = .ok false := by
  induction rows with
  | nil => exact fun row hrow => by cases hrow
  | cons first rest ih =>
    rw [refuseAbove] at h
    obtain ⟨refused, habove, h⟩ := Flow.bind_eq_ok.mp h
    cases refused with
    | true => cases h
    | false =>
      intro row hrow
      rcases List.mem_cons.mp hrow with rfl | hrow
      · exact habove
      · exact ih h row hrow

/-- `_assert_agent_may_read_its_collections(session, agent)`. -/
def assertAgentMayReadItsCollections (agent : AgentRow) : Answering Unit :=
  if agent.collectionIds = [] then return ()
  else do
    let level ← Prog.ofExcept (Sensitivity.parse setting.texts (.text agent.sensitivity))
    let rows ← awaitAnswer (.selectCollections agent.collectionIds)
    Prog.ofExcept (refuseAbove setting agent level rows)

/-- The name of the analytics agent. -/
def analyticsAgentName : String := "analytics"

/-- What analytics answers to a refusal or a question back. -/
def analyticsText : Except Raised (String × List Json) → Except Raised String
  | .ok (sql, rows) => .ok ("```sql\n" ++ sql ++ "\n```\n\n" ++ Nat.repr rows.length ++ " row(s) returned.")
  | .error (.exception ⟨.analyticsClarification, text⟩) => .ok text
  | .error (.exception ⟨.analyticsRefusal, text⟩) => .ok ("I can't run that query: " ++ text)
  | .error error => .error error

/-- `_analytics_reply(agent=..., user_content=..., ...)`. -/
def analyticsReply (agent : AgentRow) (userContent traceId : String) : Answering String := do
  let result ← (askAnalytics setting userContent defaultSemanticLayer agent.sensitivity
    [("agent_id", .str (Nat.repr agent.id)), ("trace_id", .str traceId)]).attempt
  Prog.ofExcept (analyticsText result)

/-- The points of several collections. -/
def searchAll (queryVector : Json) (topK : ℕ) (keyword : Option String) : List String → Answering (List Hit)
  | [] => return []
  | name :: rest => do
    let points ← awaitAnswer (.search name queryVector topK keyword)
    return points.map ScoredPoint.hit ++ (← searchAll queryVector topK keyword rest)

/-- `_searcher(...)` of chat: the best hits of all collections of the agent. -/
def agentSearcher (agent : AgentRow) : Searcher := fun queryVector topK keyword => do
  let hits ← searchAll queryVector topK keyword (agent.collectionIds.map Rag.collectionName)
  return (hits.insertionSort fun a b => b.score ≤ a.score).take topK

/-- `_rag_reply(agent=..., user_content=..., ...)`. -/
def ragReply (agent : AgentRow) (userContent traceId : String) : Answering (String × List Citation) := do
  let answer ← answerQuery setting userContent (agentSearcher agent) (.ofTopK 5) agent.sensitivity none
    [("agent_id", .str (Nat.repr agent.id)), ("trace_id", .str traceId)]
  return (answer.text, answer.citations)

/-- The messages of a plain reply. -/
def plainMessages (userContent : String) : List Json :=
  [message "system" "You are a helpful assistant.", message "user" userContent]

/-- The loop over a streamed reply, each text of which is passed on to a consumer. -/
def collectDeltas (emit : Json → Answering Unit) : ℕ → String → Answering String
  | 0, text => return text
  | deltas + 1, text => do
    let delta ← awaitAnswer .nextDelta
    let added ← lift (asText delta)
    emit delta
    collectDeltas emit deltas (text ++ added)

/-- `_sse(event, data)`, emitted. -/
def emitEvent (event : String) (data : Dict) : Answering Unit := awaitAnswer (.yieldEvent event (.obj data))

/-- A plain reply, streamed. -/
def plainReply (emit : Json → Answering Unit) (agent : AgentRow) (userContent : String) (kwargs : Dict) :
    Answering String := do
  let deltas ← awaitAnswer (.reasoningStream (plainMessages userContent) agent.sensitivity kwargs)
  collectDeltas emit deltas ""

/-- The events of citations. -/
def citationsJson (citations : List Citation) : Json :=
  .arr (citations.map fun citation =>
    .obj [("chunk_ref", .str citation.chunkRef), ("document_id", .int citation.documentId)])

/-- The exceptions that become an error event. -/
def gatewayDetail : Except Raised (String × List Citation) → Except Raised (String ⊕ (String × List Citation))
  | .ok reply => .ok (.inr reply)
  | .error (.gateway detail) => .ok (.inl detail)
  | .error error => .error error

/-- The reply of an agent with its citations. -/
def chatReply (agent : AgentRow) (conversation : ConversationRow) (userContent traceId : String)
    (redactLangfuse : Bool) : Answering (String × List Citation) :=
  if agent.name = analyticsAgentName then do return (← analyticsReply setting agent userContent traceId, [])
  else if agent.collectionIds ≠ [] then ragReply setting agent userContent traceId
  else do
    let text ← plainReply (fun delta => emitEvent "token" [("delta", delta)]) agent userContent
      [("agent_id", .str (Nat.repr agent.id)), ("user_id", .str (Nat.repr conversation.userId)),
        ("trace_id", .str traceId), ("redact_langfuse", .bool redactLangfuse)]
    return (text, [])

/-- The reply is complete when it is returned, and not streamed. -/
def isWhole (agent : AgentRow) : Bool := agent.name = analyticsAgentName || agent.collectionIds ≠ []

/-- `_stream_reply(...)`. -/
def streamReply (conversation : ConversationRow) (agent : AgentRow) (userContent : String) : Answering Unit := do
  let traceId ← awaitAnswer .newUuid
  let pii := scrub setting.unicode userContent
  awaitAnswer (.logMessage conversation.id pii.text)
  awaitAnswer (.flushMessage conversation.id userContent)
  let outcome ← (chatReply setting agent conversation userContent traceId pii.found).attempt
  match ← Prog.ofExcept (gatewayDetail outcome) with
  | .inl detail =>
    emitEvent "error" [("detail", .str detail)]
    awaitAnswer .commit
  | .inr (text, citations) =>
    if isWhole agent then emitEvent "token" [("delta", .str text)]
    emitEvent "citations" [("citations", citationsJson citations)]
    let messageId ← awaitAnswer (.saveReply conversation.id text citations traceId)
    if pii.found then awaitAnswer (.redactTrace traceId)
    emitEvent "done" [("message_id", .int messageId), ("trace_id", .str traceId)]

/-- `send_message(conversation_id, body, ...)`, with the stream that it returns. -/
def sendMessage (kcSub : String) (conversationId : ℕ) (content : String) : Answering Unit := do
  let some conversation ← awaitAnswer (.getConversation conversationId)
    | fail (.http 404) "conversation not found"
  let userId ← awaitAnswer (.getOrCreateUser kcSub)
  if conversation.userId ≠ userId then fail (.http 403) "not your conversation"
  let some agent ← awaitAnswer (.getAgent conversation.agentId) | fail (.http 404) "agent not found"
  if agent.status = "paused" then fail (.http 409) "agent is paused"
  if ← awaitAnswer (.isAgentPaused agent.name) then fail (.http 409) "agent is paused"
  assertAgentMayReadItsCollections setting agent
  awaitAnswer .buildClient
  streamReply setting conversation agent content

/-- The reply to a question of an automation. -/
def questionReply (agent : AgentRow) (question traceId : String) : Answering String :=
  if agent.name = analyticsAgentName then analyticsReply setting agent question traceId
  else if agent.collectionIds ≠ [] then do return (← ragReply setting agent question traceId).1
  else plainReply (fun _ => return ()) agent question
    [("agent_id", .str (Nat.repr agent.id)), ("trace_id", .str traceId)]

/-- `agent_run(body)`. -/
def agentRun (agentName question : String) : Answering (String × String) := do
  let some agent ← awaitAnswer (.findAgent agentName) | fail (.http 404) ("unknown agent: " ++ agentName)
  if agent.status ≠ "active" then fail (.http 409) ("agent is " ++ agent.status)
  assertAgentMayReadItsCollections setting agent
  awaitAnswer .buildClient
  let traceId ← awaitAnswer .newUuid
  return (← questionReply setting agent question traceId, traceId)

/-- `_searcher(...)` of the query endpoint. -/
def collectionSearcher (collectionId : ℕ) : Searcher := fun queryVector topK keyword => do
  let points ← awaitAnswer (.search (Rag.collectionName collectionId) queryVector topK keyword)
  return points.map ScoredPoint.hit

/-- `query(body)` of the query endpoint. -/
def ragQuery (collectionId : ℕ) (question : String) (topK : ℕ) (keyword : Option String) : Answering Answer := do
  let some collection ← awaitAnswer (.getCollection collectionId) | fail (.http 404) "collection not found"
  awaitAnswer .buildClient
  answerQuery setting question (collectionSearcher collectionId) (.ofTopK topK) collection.sensitivity keyword []

end FleetWorkflow.Answers
