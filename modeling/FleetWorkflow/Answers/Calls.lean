import Mathlib.Data.Rat.Defs
import FleetWorkflow.Async.Prog
import FleetWorkflow.Core.Guardrails
import FleetWorkflow.Llm.Routing
import FleetWorkflow.Rag.Calls

/-!
# The calls of the answering endpoints

What chat, the agent runs of automations and the query endpoint wait for: rows of the database, the
vector store, the governed query tool, the gateway client and the consumer of the event stream. A
call of the gateway client is one call here. The reasoning call also names the hits that its prompt
was built from; they are not sent on their own.
-/

namespace FleetWorkflow.Answers

open Python Async Core Llm

/-- A row of `conversations`. -/
structure ConversationRow where
  id : ℕ
  agentId : ℕ
  userId : ℕ

/-- What the endpoints read of a row of `agents`. -/
structure AgentRow where
  id : ℕ
  name : String
  status : String
  sensitivity : String
  collectionIds : List ℕ

/-- What the endpoints read of a row of `collections`. -/
structure CollectionRow where
  id : ℕ
  name : String
  sensitivity : String

/-- A point that the vector store returns for a query. -/
structure ScoredPoint where
  id : String
  score : ℚ
  payload : Rag.Payload

/-- A retrieved chunk. -/
structure Hit where
  id : String
  score : ℚ
  documentId : ℕ
  chunkRef : String
  content : String
  redacted : Bool
deriving DecidableEq

/-- A citation of an answer. -/
structure Citation where
  chunkRef : String
  documentId : ℕ

/-- What an answering coroutine can wait for. -/
inductive AnswerCall where
  | getConversation (id : ℕ)
  | getOrCreateUser (kcSub : String)
  | getAgent (id : ℕ)
  | findAgent (name : String)
  | isAgentPaused (name : String)
  | getCollection (id : ℕ)
  | selectCollections (ids : List ℕ)
  | buildClient
  | newUuid
  | newNonce
  | logMessage (conversationId : ℕ) (content : String)
  | flushMessage (conversationId : ℕ) (content : String)
  | saveReply (conversationId : ℕ) (content : String) (citations : List Citation) (traceId : String)
  | commit
  | search (collection : String) (queryVector : Json) (topK : ℕ) (keyword : Option String)
  | queryTables (sql : String)
  | embeddings (texts : List String) (sensitivity : String) (kwargs : Dict)
  | reasoning (sources : List Hit) (messages : List Json) (sensitivity : String) (kwargs : Dict)
  | reasoningStream (messages : List Json) (sensitivity : String) (kwargs : Dict)
  | nextDelta
  | yieldEvent (event : String) (data : Json)
  | redactTrace (traceId : String)

/-- What each call returns: a stream is answered with the number of texts that it can deliver. -/
@[reducible] def AnswerCall.Reply : AnswerCall → Type
  | getConversation _ => Option ConversationRow
  | getOrCreateUser _ => ℕ
  | getAgent _ => Option AgentRow
  | findAgent _ => Option AgentRow
  | isAgentPaused _ => Bool
  | getCollection _ => Option CollectionRow
  | selectCollections _ => List CollectionRow
  | newUuid => String
  | newNonce => String
  | saveReply .. => ℕ
  | search .. => List ScoredPoint
  | queryTables _ => List Json
  | embeddings .. => List Json
  | reasoning .. => Json
  | reasoningStream .. => ℕ
  | nextDelta => Json
  | _ => Unit

/-- An answering coroutine. -/
abbrev Answering := Prog AnswerCall AnswerCall.Reply Raised

/-- Await one call. -/
abbrev awaitAnswer (c : AnswerCall) : Answering c.Reply := Prog.call c

/-- Raise an exception of the language or of the framework. -/
def fail {α : Type} (kind : ExcKind) (message : String) : Answering α := .raise (.exception ⟨kind, message⟩)

/-- A computation whose exceptions are raised. -/
def lift {α : Type} (computed : Except Exc α) : Answering α := .ofExcept (computed.mapError .exception)

/-- A value that has to be a text. -/
def asText : Json → Except Exc String
  | .str text => .ok text
  | _ => .error ⟨.typeError, "expected string or bytes-like object"⟩

/-- What the endpoints take from elsewhere: the functions on texts and the character database. -/
structure Setting where
  texts : GatewayTexts
  unicode : Unicode

end FleetWorkflow.Answers
