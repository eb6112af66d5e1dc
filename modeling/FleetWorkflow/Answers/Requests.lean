import FleetWorkflow.Answers.Replies
import FleetWorkflow.Async.Trace

/-!
# Requests to the gateway client

Each reply path sends all its requests to the gateway client with one sensitivity and one set of
keywords. What the endpoints read first decides the path, and some requests end before it.
-/

namespace FleetWorkflow.Answers

open Python Async Core Llm

/-- The sensitivity and the keywords of a call of the gateway client. -/
def AnswerCall.request? : AnswerCall → Option (String × Dict)
  | .embeddings _ sensitivity kwargs => some (sensitivity, kwargs)
  | .reasoning _ _ sensitivity kwargs => some (sensitivity, kwargs)
  | .reasoningStream _ sensitivity kwargs => some (sensitivity, kwargs)
  | _ => none

/-- A call goes elsewhere, or to the gateway client as one kind of request. -/
def AnswerCall.Within (request : String × Dict) (c : AnswerCall) : Prop := ∀ other ∈ c.request?, other = request

/-- The calls of the reply paths: requests, searches and queries, and the tokens that they emit. -/
def AnswerCall.OnPath : AnswerCall → Prop
  | .newNonce => True
  | .search .. => True
  | .queryTables _ => True
  | .embeddings .. => True
  | .reasoning .. => True
  | .reasoningStream .. => True
  | .nextDelta => True
  | .yieldEvent event data => event = "token" ∧ ∃ text, data = .obj [("delta", .str text)]
  | _ => False

/-- A call of a reply path, all requests of which are of one kind. -/
def AnswerCall.Replying (request : String × Dict) (c : AnswerCall) : Prop := c.OnPath ∧ c.Within request

/-- A call of a reply path that goes elsewhere. -/
theorem AnswerCall.replying_of_none {c : AnswerCall} {request : String × Dict} (hpath : c.OnPath)
    (h : c.request? = none) : c.Replying request := by
  refine ⟨hpath, ?_⟩
  simp [Within, h]

variable {setting : Setting} {agent : AgentRow} {request : String × Dict}

/-- A lifted computation makes no call. -/
theorem only_lift {α : Type} {calls : AnswerCall → Prop} (computed : Except Exc α) : (lift computed).Only calls :=
  Prog.only_ofExcept _

/-- An answer from retrieved chunks. -/
theorem only_generate {calls : AnswerCall → Prop} {sensitivity : String} {kwargs : Dict} {question : String}
    {hits : List Hit} (hnonce : calls .newNonce) (hask : ∀ messages, calls (.reasoning hits messages sensitivity kwargs)) :
    (generate setting question hits sensitivity kwargs).Only calls := by
  apply (Prog.only_call hnonce).bind
  intro nonce
  apply (Prog.only_call (hask _)).bind
  intro content
  apply (only_lift _).bind
  intro text
  exact (only_lift _).bind fun _ => Prog.only_pure _

/-- The attempts at an answer. -/
theorem only_attempts {calls : AnswerCall → Prop} {generated : Answering (String × List ℕ)} (hits : List Hit)
    (h : generated.Only calls) (n : ℕ) : (attempts generated hits n).Only calls := by
  induction n with
  | zero => exact Prog.only_pure _
  | succ n ih =>
    apply h.bind
    rintro ⟨text, positions⟩
    dsimp only
    split
    · exact Prog.only_pure _
    · exact ih

/-- A grounded answer that is generated or given up. -/
theorem only_buildAnswer {calls : AnswerCall → Prop} {generated : Answering (String × List ℕ)} (hits : List Hit)
    (h : generated.Only calls) : (buildAnswer generated hits).Only calls := by
  rw [buildAnswer]
  split
  · exact Prog.only_pure _
  · exact only_attempts hits h 2

/-- A grounded answer. -/
theorem only_answerQuery {sensitivity : String} {kwargs : Dict} {searcher : Searcher} {config : AgentQueryConfig}
    {keyword : Option String} (question : String)
    (h : ∀ vector topK keyword, (searcher vector topK keyword).Only (AnswerCall.Replying (sensitivity, kwargs))) :
    (answerQuery setting question searcher config sensitivity keyword kwargs).Only
      (AnswerCall.Replying (sensitivity, kwargs)) := by
  have hasks : ∀ c : AnswerCall, c.OnPath → c.request? = some (sensitivity, kwargs) →
      c.Replying (sensitivity, kwargs) := by
    intro c hpath hc
    refine ⟨hpath, ?_⟩
    simp [AnswerCall.Within, hc]
  apply Prog.Only.bind
  · exact Prog.only_call (hasks _ trivial rfl)
  · intro vectors
    apply (only_lift _).bind
    intro vector
    apply Prog.Only.bind
    · exact (h _ _ _).bind fun _ => Prog.only_pure _
    · intro hits
      apply only_buildAnswer
      exact only_generate (AnswerCall.replying_of_none trivial rfl) fun messages => hasks _ trivial rfl

/-- A search over collections. -/
theorem only_searchAll (queryVector : Json) (topK : ℕ) (keyword : Option String) (names : List String) :
    (searchAll queryVector topK keyword names).Only (AnswerCall.Replying request) := by
  induction names with
  | nil => exact Prog.only_pure _
  | cons name rest ih =>
    apply Prog.Only.bind
    · exact Prog.only_call (AnswerCall.replying_of_none trivial rfl)
    · intro points
      exact ih.bind fun _ => Prog.only_pure _

/-- The keywords of the reply paths that return a whole answer. -/
def wholeKwargs (agent : AgentRow) (traceId : String) : Dict :=
  [("agent_id", .str (Nat.repr agent.id)), ("trace_id", .str traceId)]

/-- A grounded reply. -/
theorem only_ragReply (userContent traceId : String) :
    (ragReply setting agent userContent traceId).Only
      (AnswerCall.Replying (agent.sensitivity, wholeKwargs agent traceId)) := by
  apply Prog.Only.bind
  · apply only_answerQuery
    intro vector topK keyword
    exact (only_searchAll _ _ _ _).bind fun _ => Prog.only_pure _
  · intro answer
    exact Prog.only_pure _

/-- A reply of analytics. -/
theorem only_analyticsReply {calls : AnswerCall → Prop} {userContent traceId : String}
    (hask : ∀ messages, calls (.reasoning [] messages agent.sensitivity (wholeKwargs agent traceId)))
    (hquery : ∀ sql, calls (.queryTables sql)) :
    (analyticsReply setting agent userContent traceId).Only calls := by
  apply Prog.Only.bind
  · apply Prog.Only.attempt
    apply Prog.Only.bind
    · apply Prog.Only.mapError
      apply (Prog.only_call (hask _)).bind
      intro content
      exact (only_lift _).bind fun _ => only_lift _
    · intro sql
      exact (Prog.only_call (hquery sql)).mapError.bind fun _ => Prog.only_pure _
  · intro result
    exact Prog.only_ofExcept _

/-- A reply of analytics sends its requests with the keywords of a whole answer. -/
theorem only_analyticsReply_replying (userContent traceId : String) :
    (analyticsReply setting agent userContent traceId).Only
      (AnswerCall.Replying (agent.sensitivity, wholeKwargs agent traceId)) := by
  apply only_analyticsReply
  · intro messages
    refine ⟨trivial, ?_⟩
    simp [AnswerCall.Within, AnswerCall.request?]
  · intro sql
    exact AnswerCall.replying_of_none trivial rfl

/-- The loop over a streamed reply. -/
theorem only_collectDeltas {calls : AnswerCall → Prop} {emit : Json → Answering Unit} (hnext : calls .nextDelta)
    (hemit : ∀ delta, (emit (.str delta)).Only calls) (deltas : ℕ) (text : String) :
    (collectDeltas emit deltas text).Only calls := by
  induction deltas generalizing text with
  | zero => exact Prog.only_pure _
  | succ deltas ih =>
    apply (Prog.only_call hnext).bind
    intro delta
    cases delta with
    | str delta => exact (hemit delta).bind fun _ => ih _
    | _ => trivial

/-- A plain reply. -/
theorem only_plainReply {calls : AnswerCall → Prop} {emit : Json → Answering Unit} {userContent : String} {kwargs : Dict}
    (hask : calls (.reasoningStream (plainMessages userContent) agent.sensitivity kwargs)) (hnext : calls .nextDelta)
    (hemit : ∀ delta, (emit (.str delta)).Only calls) : (plainReply emit agent userContent kwargs).Only calls := by
  apply (Prog.only_call hask).bind
  intro deltas
  exact only_collectDeltas hnext hemit deltas ""

/-- A plain reply sends its request with the keywords that it is given. -/
theorem only_plainReply_replying {emit : Json → Answering Unit} {kwargs : Dict}
    (hemit : ∀ delta, (emit (.str delta)).Only (AnswerCall.Replying (agent.sensitivity, kwargs))) (userContent : String) :
    (plainReply emit agent userContent kwargs).Only (AnswerCall.Replying (agent.sensitivity, kwargs)) := by
  apply only_plainReply _ (AnswerCall.replying_of_none trivial rfl) hemit
  refine ⟨trivial, ?_⟩
  simp [AnswerCall.Within, AnswerCall.request?]

/-- An agent answers plainly: it is not the analytics agent, and it reads no collections. -/
def Plain (agent : AgentRow) : Prop := agent.name ≠ analyticsAgentName ∧ agent.collectionIds = []

instance (agent : AgentRow) : Decidable (Plain agent) := inferInstanceAs (Decidable (_ ∧ _))

/-- The keywords of a plain reply in chat. -/
def plainKwargs (agent : AgentRow) (conversation : ConversationRow) (traceId : String) (redactLangfuse : Bool) : Dict :=
  [("agent_id", .str (Nat.repr agent.id)), ("user_id", .str (Nat.repr conversation.userId)),
    ("trace_id", .str traceId), ("redact_langfuse", .bool redactLangfuse)]

/-- The keywords of a reply in chat. -/
def chatKwargs (agent : AgentRow) (conversation : ConversationRow) (traceId : String) (redactLangfuse : Bool) : Dict :=
  if Plain agent then plainKwargs agent conversation traceId redactLangfuse else wholeKwargs agent traceId

/-- A reply in chat sends its requests with the keywords of its path. -/
theorem only_chatReply (conversation : ConversationRow) (userContent traceId : String) (redactLangfuse : Bool) :
    (chatReply setting agent conversation userContent traceId redactLangfuse).Only
      (AnswerCall.Replying (agent.sensitivity, chatKwargs agent conversation traceId redactLangfuse)) := by
  rw [chatReply]
  by_cases hname : agent.name = analyticsAgentName
  · have hkwargs : chatKwargs agent conversation traceId redactLangfuse = wholeKwargs agent traceId :=
      if_neg fun hplain => hplain.1 hname
    rw [if_pos hname, hkwargs]
    exact (only_analyticsReply_replying userContent traceId).bind fun _ => Prog.only_pure _
  · by_cases hids : agent.collectionIds = []
    · have hkwargs : chatKwargs agent conversation traceId redactLangfuse =
          plainKwargs agent conversation traceId redactLangfuse := if_pos ⟨hname, hids⟩
      rw [if_neg hname, if_neg (not_not.mpr hids), hkwargs]
      apply Prog.Only.bind
      · apply only_plainReply_replying
        intro delta
        exact Prog.only_call (AnswerCall.replying_of_none ⟨rfl, delta, rfl⟩ rfl)
      · intro text
        exact Prog.only_pure _
    · have hkwargs : chatKwargs agent conversation traceId redactLangfuse = wholeKwargs agent traceId :=
        if_neg fun hplain => hids hplain.2
      rw [if_neg hname, if_pos hids, hkwargs]
      exact only_ragReply userContent traceId

/-- A reply to an automation sends its requests with the same keywords on every path. -/
theorem only_questionReply (question traceId : String) :
    (questionReply setting agent question traceId).Only
      (AnswerCall.Replying (agent.sensitivity, wholeKwargs agent traceId)) := by
  rw [questionReply]
  split
  · exact only_analyticsReply_replying question traceId
  · split
    · exact (only_ragReply question traceId).bind fun _ => Prog.only_pure _
    · exact only_plainReply_replying (fun _ => Prog.only_pure _) question

/-- What follows a reply. -/
def closing (conversation : ConversationRow) (traceId : String) (found whole : Bool)
    (outcome : Except Raised (String × List Citation)) : Answering Unit := do
  match ← Prog.ofExcept (gatewayDetail outcome) with
  | .inl detail =>
    emitEvent "error" [("detail", .str detail)]
    awaitAnswer .commit
  | .inr (text, citations) =>
    if whole then emitEvent "token" [("delta", .str text)]
    emitEvent "citations" [("citations", citationsJson citations)]
    let messageId ← awaitAnswer (.saveReply conversation.id text citations traceId)
    if found then awaitAnswer (.redactTrace traceId)
    emitEvent "done" [("message_id", .int messageId), ("trace_id", .str traceId)]

/-- What follows a reply: an error that is committed, or the reply, which is saved between its events. -/
theorem only_closing {calls : AnswerCall → Prop} {conversation : ConversationRow} {traceId : String}
    (herror : ∀ detail, calls (.yieldEvent "error" (.obj [("detail", .str detail)]))) (hcommit : calls .commit)
    (htoken : ∀ text, calls (.yieldEvent "token" (.obj [("delta", .str text)])))
    (hcitations : ∀ citations, calls (.yieldEvent "citations" (.obj [("citations", citationsJson citations)])))
    (hsave : ∀ text citations, calls (.saveReply conversation.id text citations traceId))
    (hredact : calls (.redactTrace traceId))
    (hdone : ∀ messageId : ℕ, calls (.yieldEvent "done" (.obj [("message_id", .int messageId), ("trace_id", .str traceId)])))
    (found whole : Bool) (outcome : Except Raised (String × List Citation)) :
    (closing conversation traceId found whole outcome).Only calls := by
  apply (Prog.only_ofExcept _).bind
  rintro (detail | ⟨text, citations⟩)
  · exact (Prog.only_call (herror detail)).bind fun _ => Prog.only_call hcommit
  · have hrest : ∀ _ : Unit, Prog.Only calls (do
        emitEvent "citations" [("citations", citationsJson citations)]
        let messageId ← awaitAnswer (.saveReply conversation.id text citations traceId)
        if found then awaitAnswer (.redactTrace traceId)
        emitEvent "done" [("message_id", .int messageId), ("trace_id", .str traceId)] : Answering Unit) := by
      intro _
      apply (Prog.only_call (hcitations citations)).bind
      intro _
      apply (Prog.only_call (hsave text citations)).bind
      intro messageId
      split
      · exact (Prog.only_call hredact).bind fun _ => Prog.only_call (hdone messageId)
      · exact Prog.only_call (hdone messageId)
    dsimp only
    split
    · exact (Prog.only_call (htoken text)).bind hrest
    · exact hrest ()

/-- What follows a reply is sent nowhere but to the stream and the database. -/
theorem only_afterReply {calls : AnswerCall → Prop} (hquiet : ∀ c, c.request? = none → calls c)
    (conversation : ConversationRow) (traceId : String) (found whole : Bool)
    (outcome : Except Raised (String × List Citation)) :
    (closing conversation traceId found whole outcome).Only calls :=
  only_closing (fun _ => hquiet _ rfl) (hquiet _ rfl) (fun _ => hquiet _ rfl) (fun _ => hquiet _ rfl)
    (fun _ _ => hquiet _ rfl) (hquiet _ rfl) (fun _ => hquiet _ rfl) found whole outcome

/-- A chat message makes the calls of its reply, and others that are no requests. -/
theorem onlyGiven_streamReply {possible : (c : AnswerCall) → Except Raised c.Reply → Prop} {calls : AnswerCall → Prop}
    {conversation : ConversationRow} {userContent : String} (hquiet : ∀ c, c.request? = none → calls c)
    (h : ∀ traceId, (chatReply setting agent conversation userContent traceId
      (scrub setting.unicode userContent).found).OnlyGiven possible calls) :
    (streamReply setting conversation agent userContent).OnlyGiven possible calls := by
  refine Prog.onlyGiven_call_bind.mpr ⟨hquiet _ rfl, fun traceId _ => ?_⟩
  refine Prog.onlyGiven_call_bind.mpr ⟨hquiet _ rfl, fun _ _ => ?_⟩
  refine Prog.onlyGiven_call_bind.mpr ⟨hquiet _ rfl, fun _ _ => ?_⟩
  apply (Prog.onlyGiven_attempt.mpr (h traceId)).yields.onlyGiven_bind
  intro outcome _
  exact (only_afterReply hquiet conversation traceId _ _ outcome).given

/-! ## Which requests are made -/

/-- The first request of a reply. -/
def firstRequest (agent : AgentRow) (userContent : String) (kwargs : Dict) : AnswerCall :=
  if agent.name = analyticsAgentName then
    .reasoning [] [message "system" (analyticsPrompt defaultSemanticLayer), message "user" userContent]
      agent.sensitivity kwargs
  else if agent.collectionIds ≠ [] then .embeddings [userContent] agent.sensitivity kwargs
  else .reasoningStream (plainMessages userContent) agent.sensitivity kwargs

section Given

variable {possible : (c : AnswerCall) → Except Raised c.Reply → Prop} {calls : AnswerCall → Prop}

/-- Analytics asks its model. -/
theorem analyticsReply_first {userContent traceId : String}
    (h : (analyticsReply setting agent userContent traceId).OnlyGiven possible calls) :
    calls (.reasoning [] [message "system" (analyticsPrompt defaultSemanticLayer), message "user" userContent]
      agent.sensitivity (wholeKwargs agent traceId)) := by
  have hask : (askAnalytics setting userContent defaultSemanticLayer agent.sensitivity
      (wholeKwargs agent traceId)).OnlyGiven possible calls := Prog.onlyGiven_attempt.mp h.of_bind
  have hsql : (generateSql setting userContent defaultSemanticLayer agent.sensitivity
      (wholeKwargs agent traceId)).OnlyGiven possible calls := Prog.onlyGiven_attempt.mp hask.of_bind.of_bind
  exact hsql.first

/-- A question that is embedded is searched for. -/
theorem answerQuery_search {question : String} {searcher : Searcher} {config : AgentQueryConfig} {sensitivity : String}
    {keyword : Option String} {kwargs : Dict} {vector : Json} {vectors : List Json}
    (h : (answerQuery setting question searcher config sensitivity keyword kwargs).OnlyGiven possible calls)
    (hpossible : possible (.embeddings [question] sensitivity kwargs) (.ok (vector :: vectors))) :
    (retrieve searcher vector config keyword >>= fun hits =>
      buildAnswer (generate setting question hits sensitivity kwargs) hits).OnlyGiven possible calls :=
  h.next (vector :: vectors) hpossible

/-- An answer from some hits asks the model about them. -/
theorem buildAnswer_asks {question : String} {hits : List Hit} {sensitivity : String} {kwargs : Dict} {nonce : String}
    (h : (buildAnswer (generate setting question hits sensitivity kwargs) hits).OnlyGiven possible calls)
    (hhits : hits ≠ []) (hpossible : possible .newNonce (.ok nonce)) :
    ∃ messages, calls (.reasoning hits messages sensitivity kwargs) := by
  rw [buildAnswer, if_neg hhits] at h
  have hgenerate : (generate setting question hits sensitivity kwargs).OnlyGiven possible calls := h.of_bind
  have hask := hgenerate.next nonce hpossible
  exact ⟨_, hask.first⟩

/-- Retrieval embeds the question. -/
theorem ragReply_first {userContent traceId : String}
    (h : (ragReply setting agent userContent traceId).OnlyGiven possible calls) :
    calls (.embeddings [userContent] agent.sensitivity (wholeKwargs agent traceId)) :=
  h.of_bind.first

/-- A plain reply opens a stream. -/
theorem plainReply_first {emit : Json → Answering Unit} {userContent : String} {kwargs : Dict}
    (h : (plainReply emit agent userContent kwargs).OnlyGiven possible calls) :
    calls (.reasoningStream (plainMessages userContent) agent.sensitivity kwargs) :=
  h.first

/-- A reply in chat makes its first request. -/
theorem chatReply_first {conversation : ConversationRow} {userContent traceId : String} {redactLangfuse : Bool}
    (h : (chatReply setting agent conversation userContent traceId redactLangfuse).OnlyGiven possible calls) :
    calls (firstRequest agent userContent (chatKwargs agent conversation traceId redactLangfuse)) := by
  rw [chatReply] at h
  rw [firstRequest, chatKwargs]
  by_cases hname : agent.name = analyticsAgentName
  · rw [if_pos hname] at h
    rw [if_pos hname, if_neg fun hplain : Plain agent => hplain.1 hname]
    exact analyticsReply_first h.of_bind
  · rw [if_neg hname] at h
    rw [if_neg hname]
    by_cases hids : agent.collectionIds = []
    · rw [if_neg (not_not.mpr hids)] at h
      rw [if_neg (not_not.mpr hids), if_pos ⟨hname, hids⟩]
      exact plainReply_first h.of_bind
    · rw [if_pos hids] at h
      rw [if_pos hids, if_neg fun hplain : Plain agent => hids hplain.2]
      exact ragReply_first h

/-- A reply to an automation makes its first request. -/
theorem questionReply_first {question traceId : String}
    (h : (questionReply setting agent question traceId).OnlyGiven possible calls) :
    calls (firstRequest agent question (wholeKwargs agent traceId)) := by
  rw [questionReply] at h
  rw [firstRequest]
  split at h
  · rename_i hname
    rw [if_pos hname]
    exact analyticsReply_first h
  · rename_i hname
    rw [if_neg hname]
    split at h
    · rename_i hids
      rw [if_pos hids]
      exact ragReply_first h.of_bind
    · rename_i hids
      rw [if_neg hids]
      exact plainReply_first h

/-- The collections of an agent can be looked up. -/
def MayRead (setting : Setting) (agent : AgentRow) : Prop :=
  agent.collectionIds = [] ∨ ∃ level, Sensitivity.parse setting.texts (.text agent.sensitivity) = .ok level

/-- What follows the check of the collections can be reached exactly when they can be looked up. -/
theorem onlyGiven_assert_bind {α : Type} {next : Answering α} (hselect : calls (.selectCollections agent.collectionIds))
    (hpossible : possible (.selectCollections agent.collectionIds) (.ok [])) :
    (assertAgentMayReadItsCollections setting agent >>= fun _ => next).OnlyGiven possible calls ↔
      (MayRead setting agent → next.OnlyGiven possible calls) := by
  rw [assertAgentMayReadItsCollections]
  by_cases hids : agent.collectionIds = []
  · rw [if_pos hids]
    exact ⟨fun h _ => h, fun h => h (.inl hids)⟩
  · rw [if_neg hids]
    cases hparse : Sensitivity.parse setting.texts (.text agent.sensitivity) with
    | error error =>
      refine iff_of_true trivial ?_
      rintro (hempty | ⟨level, hlevel⟩)
      · exact absurd hempty hids
      · rw [hparse] at hlevel
        cases hlevel
    | ok level =>
      simp only [Prog.ofExcept, Prog.done_bind, Prog.bind_assoc, Prog.onlyGiven_call_bind]
      constructor
      · intro h _
        exact h.2 [] hpossible
      · intro h
        refine ⟨hselect, fun rows _ => ?_⟩
        cases refuseAbove setting agent level rows with
        | ok _ => exact h (.inr ⟨level, hparse⟩)
        | error error => trivial

end Given

/-- The database holds a conversation and its agent. -/
def Rows (conversation : ConversationRow) (agent : AgentRow) : (c : AnswerCall) → Except Raised c.Reply → Prop
  | .getConversation _, reply => ∀ row, reply = .ok row → row = some conversation
  | .getAgent _, reply => ∀ row, reply = .ok row → row = some agent
  | _, _ => True

/-- An agent takes chat messages. -/
def TakesMessages (setting : Setting) (agent : AgentRow) : Prop := agent.status ≠ "paused" ∧ MayRead setting agent

/-- An agent takes the questions of automations. -/
def TakesQuestions (setting : Setting) (agent : AgentRow) : Prop := agent.status = "active" ∧ MayRead setting agent

section Answered

variable {possible : (c : AnswerCall) → Except Raised c.Reply → Prop} {calls : AnswerCall → Prop}

/-- A chat message is answered by the agent of its conversation, after the check of its collections. -/
theorem onlyGiven_sendMessage_of {kcSub content : String} {conversationId : ℕ}
    (hquiet : ∀ c, c.request? = none → calls c)
    (h : ∀ conversation row, possible (.getConversation conversationId) (.ok (some conversation)) →
      possible (.getAgent conversation.agentId) (.ok (some row)) → row.status ≠ "paused" →
        (assertAgentMayReadItsCollections setting row >>= fun _ => awaitAnswer .buildClient >>= fun _ =>
          streamReply setting conversation row content).OnlyGiven possible calls) :
    (sendMessage setting kcSub conversationId content).OnlyGiven possible calls := by
  refine Prog.onlyGiven_call_bind.mpr ⟨hquiet _ rfl, fun found hconversation => ?_⟩
  cases found with
  | none => trivial
  | some conversation =>
    refine Prog.onlyGiven_call_bind.mpr ⟨hquiet _ rfl, fun userId _ => ?_⟩
    split
    · trivial
    · refine Prog.onlyGiven_call_bind.mpr ⟨hquiet _ rfl, fun found hagent => ?_⟩
      cases found with
      | none => trivial
      | some row =>
        dsimp only
        split
        · trivial
        · rename_i hstatus
          refine Prog.onlyGiven_call_bind.mpr ⟨hquiet _ rfl, fun paused _ => ?_⟩
          split
          · trivial
          · exact h conversation row hconversation hagent hstatus

/-- A question of an automation is answered by the agent of its name, after the check of its collections. -/
theorem onlyGiven_agentRun_of {agentName question : String} (hquiet : ∀ c, c.request? = none → calls c)
    (h : ∀ row, possible (.findAgent agentName) (.ok (some row)) → row.status = "active" →
      (assertAgentMayReadItsCollections setting row >>= fun _ => awaitAnswer .buildClient >>= fun _ =>
        awaitAnswer .newUuid >>= fun traceId => questionReply setting row question traceId >>= fun text =>
          (pure (text, traceId) : Answering (String × String))).OnlyGiven possible calls) :
    (agentRun setting agentName question).OnlyGiven possible calls := by
  refine Prog.onlyGiven_call_bind.mpr ⟨hquiet _ rfl, fun found hagent => ?_⟩
  cases found with
  | none => trivial
  | some row =>
    dsimp only
    split
    · trivial
    · rename_i hstatus
      exact h row hagent (not_not.mp hstatus)

end Answered

/-- A chat message is answered exactly by agents that take it. -/
theorem onlyGiven_sendMessage {calls : AnswerCall → Prop} {conversation : ConversationRow} {kcSub content : String}
    {conversationId : ℕ} (hquiet : ∀ c, c.request? = none → calls c) :
    (sendMessage setting kcSub conversationId content).OnlyGiven (Rows conversation agent) calls ↔
      (TakesMessages setting agent →
        (streamReply setting conversation agent content).OnlyGiven (Rows conversation agent) calls) := by
  constructor
  · rintro h ⟨hstatus, hread⟩
    rw [sendMessage] at h
    have hconversation := h.next (some conversation)
      fun row hrow => (Except.ok.inj hrow).symm
    have huser := hconversation.next conversation.userId trivial
    rw [if_neg (not_not_intro rfl)] at huser
    have hagent := huser.next (some agent) fun row hrow => (Except.ok.inj hrow).symm
    dsimp only at hagent
    rw [if_neg hstatus] at hagent
    have hpaused := hagent.next false trivial
    rw [if_neg Bool.false_ne_true] at hpaused
    have hclient := (onlyGiven_assert_bind (hquiet _ rfl) trivial).mp hpaused hread
    exact hclient.next () trivial
  · intro h
    apply onlyGiven_sendMessage_of hquiet
    intro found row hconversation hagent hstatus
    obtain rfl := Option.some.inj (hconversation _ rfl)
    obtain rfl := Option.some.inj (hagent _ rfl)
    refine (onlyGiven_assert_bind (hquiet _ rfl) trivial).mpr fun hread => ?_
    exact Prog.onlyGiven_call_bind.mpr ⟨hquiet _ rfl, fun _ _ => h ⟨hstatus, hread⟩⟩

/-- The database holds an agent. -/
def Finds (agent : AgentRow) : (c : AnswerCall) → Except Raised c.Reply → Prop
  | .findAgent _, reply => ∀ row, reply = .ok row → row = some agent
  | _, _ => True

/-- A question of an automation is answered exactly by agents that take it. -/
theorem onlyGiven_agentRun {calls : AnswerCall → Prop} {agentName question : String}
    (hquiet : ∀ c, c.request? = none → calls c) :
    (agentRun setting agentName question).OnlyGiven (Finds agent) calls ↔
      (TakesQuestions setting agent → ∀ traceId,
        (questionReply setting agent question traceId).OnlyGiven (Finds agent) calls) := by
  constructor
  · rintro h ⟨hstatus, hread⟩ traceId
    rw [agentRun] at h
    have hagent := h.next (some agent) fun row hrow => (Except.ok.inj hrow).symm
    dsimp only at hagent
    rw [if_neg (not_not_intro hstatus)] at hagent
    have hclient := (onlyGiven_assert_bind (hquiet _ rfl) trivial).mp hagent hread
    have huuid := hclient.next () trivial
    exact (huuid.next traceId trivial).of_bind
  · intro h
    apply onlyGiven_agentRun_of hquiet
    intro row hagent hstatus
    obtain rfl := Option.some.inj (hagent _ rfl)
    refine (onlyGiven_assert_bind (hquiet _ rfl) trivial).mpr fun hread => ?_
    refine Prog.onlyGiven_call_bind.mpr ⟨hquiet _ rfl, fun _ _ => ?_⟩
    refine Prog.onlyGiven_call_bind.mpr ⟨hquiet _ rfl, fun traceId _ => ?_⟩
    exact (h ⟨hstatus, hread⟩ traceId).bind_pure

/-- A chat message that is answered makes the first request of its path. -/
theorem streamReply_first {calls : AnswerCall → Prop} {conversation : ConversationRow} {content : String}
    (h : (streamReply setting conversation agent content).OnlyGiven (Rows conversation agent) calls)
    (traceId : String) :
    calls (firstRequest agent content
      (chatKwargs agent conversation traceId (scrub setting.unicode content).found)) := by
  have hlog := h.next traceId trivial
  have hflush := hlog.next () trivial
  have hreply := hflush.next () trivial
  exact chatReply_first (Prog.onlyGiven_attempt.mp hreply.of_bind)

end FleetWorkflow.Answers
