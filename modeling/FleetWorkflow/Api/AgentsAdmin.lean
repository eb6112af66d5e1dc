import FleetWorkflow.Core.Gates

/-!
# The agent registry

The requests of the admin router for agents: create, update, delete, pause and resume, and the
platform-wide read-only flag. The status column is the durable record of a pause, the Redis flag
the one that the runtime polls.
-/

namespace FleetWorkflow.Api

open Python Async Core

/-- The sensitivities that an agent may have. -/
def validSensitivity : List String := ["public", "internal", "confidential", "pii"]

/-- Reject an unknown sensitivity. -/
def validate (body : AgentIn) : Coroutine Unit :=
  if body.sensitivity ∈ validSensitivity then return ()
  else httpError 422 ("unknown sensitivity: " ++ body.sensitivity)

/-- `session.refresh(row)` after a commit. -/
def refreshAgent (id : ℕ) : Coroutine AgentRow := do
  match ← await (.getAgent id) with
  | some row => return row
  | none => .raise ⟨.external, "Could not refresh instance"⟩

/-- The row of an id, or the 404 that every handler raises without one. -/
def agentOr404 (id : ℕ) : Coroutine AgentRow := do
  match ← await (.getAgent id) with
  | some row => return row
  | none => httpError 404 "agent not found"

/-- `POST /v1/admin/agents`. -/
def createAgent (body : AgentIn) : Coroutine AgentRow := do
  validate body
  match ← await (.findAgent body.name) with
  | some _ => httpError 409 "agent name already exists"
  | none =>
    let row ← await (.insertAgent body)
    refreshAgent row.id

/-- `PATCH /v1/admin/agents/(agent_id)`. -/
def updateAgent (agentId : ℕ) (body : AgentIn) : Coroutine AgentRow := do
  validate body
  let row ← agentOr404 agentId
  await (.updateAgent row.id body)
  refreshAgent row.id

/-- `DELETE /v1/admin/agents/(agent_id)`. -/
def deleteAgent (agentId : ℕ) : Coroutine Unit := do
  let row ← agentOr404 agentId
  await (.deleteAgent row.id)

/-- `POST /v1/admin/agents/(agent_id)/pause`. -/
def pauseAgent (agentId : ℕ) : Coroutine Unit := do
  let row ← agentOr404 agentId
  await (.setAgentStatus row.id "paused")
  KillSwitch.pauseAgent row.name

/-- `POST /v1/admin/agents/(agent_id)/resume`. -/
def resumeAgent (agentId : ℕ) : Coroutine Unit := do
  let row ← agentOr404 agentId
  await (.setAgentStatus row.id "active")
  KillSwitch.resumeAgent row.name

/-- `PUT /v1/admin/agents/global/read-only`. -/
def setGlobalReadOnly (enabled : Bool) : Coroutine Unit := KillSwitch.setGlobalReadOnly enabled

end FleetWorkflow.Api
