import FleetWorkflow.Async.StateGraph
import FleetWorkflow.Python.Value

/-!
# The calls of the fleet

Everything the modelled coroutines wait for: the rows of the API's database, Redis, the pause cache
of a kill switch, the checkpointer, the language model and the tools. Rows keep the columns that
the modelled code reads. Two calls are notices without an effect: that a request enters a node of
an agent, and that it starts the resume handler of an approval.
-/

namespace FleetWorkflow.Core

open Python Async

/-- Points of time, in microseconds. -/
abbrev Time := ℕ

/-- The request body from which an agent row is created or updated. -/
structure AgentIn where
  name : String
  sensitivity : String
  collectionIds : List ℤ
deriving DecidableEq, Repr

/-- A row of `agents`. -/
structure AgentRow where
  id : ℕ
  name : String
  status : String
  sensitivity : String
  collectionIds : List ℤ
deriving DecidableEq, Repr

/-- The columns with which a row is added to `approvals`; its status starts as pending. -/
structure ApprovalDraft where
  agentId : ℕ
  runId : String
  action : String
  payload : Dict

/-- A row of `approvals`. -/
structure ApprovalRow where
  id : ℕ
  agentId : ℕ
  runId : String
  action : String
  payload : Dict
  status : String
  decidedBy : Option String
  decidedAt : Option Time

/-- The row that a draft is stored as. -/
def ApprovalDraft.row (draft : ApprovalDraft) (id : ℕ) : ApprovalRow :=
  ⟨id, draft.agentId, draft.runId, draft.action, draft.payload, "pending", none, none⟩

/-- The row with a decision written to it. -/
def ApprovalRow.decided (row : ApprovalRow) (editedPayload : Option Dict) (status decidedBy : String)
    (time : Time) : ApprovalRow :=
  { row with payload := editedPayload.getD row.payload, status := status, decidedBy := some decidedBy,
             decidedAt := some time }

/-- The row that a request body is stored as; a new agent is active. -/
def AgentIn.row (body : AgentIn) (id : ℕ) : AgentRow :=
  ⟨id, body.name, "active", body.sensitivity, body.collectionIds⟩

/-- The row with a request body written over it; its status stays. -/
def AgentRow.overwritten (row : AgentRow) (body : AgentIn) : AgentRow :=
  { row with name := body.name, sensitivity := body.sensitivity, collectionIds := body.collectionIds }

/-- The row with another status. -/
def AgentRow.withStatus (row : AgentRow) (status : String) : AgentRow := { row with status := status }

/-! A row carries the id it is stored under, whatever is written to it. -/

theorem ApprovalDraft.row_id (draft : ApprovalDraft) (id : ℕ) : (draft.row id).id = id := rfl

theorem ApprovalRow.decided_id (editedPayload : Option Dict) (status decidedBy : String) (time : Time)
    (row : ApprovalRow) : (row.decided editedPayload status decidedBy time).id = row.id := rfl

theorem AgentIn.row_id (body : AgentIn) (id : ℕ) : (body.row id).id = id := rfl

theorem AgentRow.overwritten_id (body : AgentIn) (row : AgentRow) : (row.overwritten body).id = row.id := rfl

theorem AgentRow.withStatus_id (status : String) (row : AgentRow) : (row.withStatus status).id = row.id := rfl

/-- A tool of an agent and the risk class under which it is registered. -/
structure ToolSpec where
  name : String
  riskClass : String
deriving DecidableEq, Repr

/-- On whose behalf a model or a tool is called: the agent and the thread of its run. -/
structure Actor where
  agent : String
  thread : String
deriving DecidableEq, Repr

/-- What a call to the language model returns; `toolCall` is null when it proposes none. -/
structure LlmResponse where
  content : String
  toolCall : Json

/-- A checkpoint of any graph: the saved state and the name of the node to run next. -/
abbrev SavedRun := Checkpoint String Dict

/-- What a coroutine of the fleet can wait for. -/
inductive Call where
  | getApproval (id : ℕ)
  | findApprovalByRun (runId : String)
  | insertApproval (draft : ApprovalDraft)
  | commitDecision (id : ℕ) (editedPayload : Option Dict) (status decidedBy : String)
  | getAgent (id : ℕ)
  | findAgent (name : String)
  | insertAgent (body : AgentIn)
  | updateAgent (id : ℕ) (body : AgentIn)
  | deleteAgent (id : ℕ)
  | setAgentStatus (id : ℕ) (status : String)
  | redisGet (key : String)
  | redisSet (key value : String)
  | readPauseCache (killswitch : ℕ) (agent : String)
  | writePauseCache (killswitch : ℕ) (agent : String) (paused : Bool) (time : Time)
  | uuid4
  | uuidToken
  | loadCheckpoint (thread : String)
  | putCheckpoint (thread : String) (run : SavedRun)
  | enter (actor : Actor) (node : String)
  | resumeStarted (agent runId : String) (approved : Bool)
  | buildClient
  | llm (actor : Actor) (method : String) (messages : List Json) (kwargs : Dict)
  | tool (actor : Actor) (tool : ToolSpec) (args : Dict)
  | query (name : String) (args : List Json)

/-- What each call returns. -/
@[reducible] def Reply : Call → Type
  | .getApproval _ | .findApprovalByRun _ => Option ApprovalRow
  | .insertApproval _ => ApprovalRow
  | .getAgent _ | .findAgent _ => Option AgentRow
  | .insertAgent _ => AgentRow
  | .redisGet _ => Option String
  | .readPauseCache _ _ => Time × Option (Bool × Time)
  | .uuid4 | .uuidToken => String
  | .loadCheckpoint _ => Option SavedRun
  | .llm _ _ _ _ => LlmResponse
  | .tool _ _ _ | .query _ _ => Json
  | _ => Unit

/-- A coroutine of the fleet. -/
abbrev Coroutine := Prog Call Reply Exc

/-- One call of the fleet with its reply. -/
abbrev CallEvent := Event Call Reply Exc

/-- Await one call. -/
abbrev await (c : Call) : Coroutine (Reply c) := Prog.call c

/-- `raise HTTPException(status_code=..., detail=...)`. -/
def httpError {α : Type} (status : ℕ) (detail : String) : Coroutine α := .raise ⟨.http status, detail⟩

end FleetWorkflow.Core
