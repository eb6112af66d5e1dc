import FleetWorkflow.Core.Call

/-!
# Kill switches and the approval rule

The two gates that the graphs share: whether an agent is paused or the platform is read-only, as
Redis says, and whether a tool of some risk class has to wait for an approval. A lookup of the
pause flag is cached for five seconds by the kill switch that made it.
-/

namespace FleetWorkflow.Core

open Python Async

/-! ## Kill switches -/

/-- How long a lookup of a pause flag is reused. -/
def pauseCacheTtl : Time := 5000000

/-- The key of the platform-wide flag. -/
def globalReadOnlyKey : String := "global:read_only"

/-- A flag is set when its value is the text `1`. -/
def isFlagSet (value : Option String) : Bool := value = some "1"

/-- The key of the pause flag of an agent. -/
def pauseKey (agentId : String) : String := "agent:paused:" ++ agentId

/-- A kill switch; its cache is kept under its number. -/
structure KillSwitch where
  id : ℕ

namespace KillSwitch

/-- Ask Redis for the pause flag and cache the answer. -/
def lookupPaused (killswitch : KillSwitch) (agentId : String) (currentTime : Time) : Coroutine Bool := do
  let value ← await (.redisGet (pauseKey agentId))
  let paused := isFlagSet value
  await (.writePauseCache killswitch.id agentId paused currentTime)
  return paused

/-- Whether an agent is paused, from the cache while its entry is fresh. -/
def isAgentPaused (killswitch : KillSwitch) (agentId : String) : Coroutine Bool := do
  match ← await (.readPauseCache killswitch.id agentId) with
  | (currentTime, some (paused, time)) =>
    if currentTime - time < pauseCacheTtl then return paused
    else killswitch.lookupPaused agentId currentTime
  | (currentTime, none) => killswitch.lookupPaused agentId currentTime

/-- Whether the platform-wide flag blocks a tool; only writes are blocked. -/
def blocksTool (riskClass : String) : Coroutine Bool :=
  if startsWith riskClass "write:" then do
    let value ← await (.redisGet globalReadOnlyKey)
    return isFlagSet value
  else return false

/-- Set the pause flag of an agent. -/
def pauseAgent (agentId : String) : Coroutine Unit := await (.redisSet (pauseKey agentId) "1")

/-- Clear the pause flag of an agent. -/
def resumeAgent (agentId : String) : Coroutine Unit := await (.redisSet (pauseKey agentId) "0")

/-- Set or clear the platform-wide flag. -/
def setGlobalReadOnly (enabled : Bool) : Coroutine Unit :=
  await (.redisSet globalReadOnlyKey (if enabled then "1" else "0"))

end KillSwitch

/-- Different agents have different pause keys. -/
theorem pauseKey_inj {a b : String} : pauseKey a = pauseKey b ↔ a = b := by
  simp [pauseKey]

/-- No pause key is the key of the platform-wide flag. -/
theorem pauseKey_ne_globalReadOnlyKey (agentId : String) : pauseKey agentId ≠ globalReadOnlyKey := by
  intro h
  have hchars := congrArg String.toList h
  simp [pauseKey, globalReadOnlyKey] at hchars

/-! ## The approval rule -/

/-- The pass rate from which an agent may be autonomous. -/
def autonomyPassRateThreshold : PyFloat := .decimal false 9 (-1)

/-- Whether a tool call of a risk class has to go through the approval queue. -/
def requiresApproval (py : Builtins) (riskClass : String) (evalPassRate : PyFloat)
    (autonomyEnabled : Bool) : Except Exc Bool :=
  if riskClass = "read" then .ok false
  else if riskClass = "write:external" then .ok true
  else if riskClass = "write:internal" then
    .ok (!(autonomyEnabled && autonomyPassRateThreshold.le evalPassRate))
  else .error ⟨.valueError, "unknown risk_class: " ++ py.repr (.str riskClass)⟩

/-- An external write always waits for an approval. -/
theorem requiresApproval_external (py : Builtins) (evalPassRate : PyFloat) (autonomyEnabled : Bool) :
    requiresApproval py "write:external" evalPassRate autonomyEnabled = .ok true := by
  rw [requiresApproval, if_neg (by decide), if_pos rfl]

end FleetWorkflow.Core
