import Mathlib.Data.List.Sort
import FleetWorkflow.Async.Prog
import FleetWorkflow.Llm.Cost
import FleetWorkflow.Llm.Routing

/-!
# The gateway client

The governed entry point for calls to models. A call selects a model for its sensitivity, has the
budget checked, goes to the proxy and is metered in the spend ledger, in this order.
-/

namespace FleetWorkflow.Llm

open Python Async

/-- The outcome of evaluating the spend of a scope against its budget. -/
structure BudgetStatus where
  scope : String
  spentUsd : ℚ
  limitUsd : Option ℚ
  softPct : ℤ
  allowed : Bool
  softExceeded : Bool
  hardExceeded : Bool
  utilization : ℚ
deriving DecidableEq

/-- A row of the spend ledger as the client hands it over. -/
structure SpendRow where
  model : Json
  agentId : Json
  userId : Json
  deptId : Json
  tokIn : ℤ
  tokOut : ℤ
  tokCached : ℤ
  costUsd : ℚ
  traceId : Json

/-- What the client awaits: the budget checker, the proxy, the consumer of a stream and the ledger. -/
inductive LlmCall where
  | checkBudget (callMeta : Dict)
  | countSoftLimit (scope : String)
  | complete (model : String) (messages : List Json) (callMeta : Dict)
  | embed (model : String) (input : List String) (callMeta : Dict)
  | streamComplete (model : String) (messages : List Json) (callMeta : Dict)
  | nextChunk
  | yieldDelta (delta : Json)
  | record (row : SpendRow)

/-- The replies. A stream that is opened is answered with the number of chunks that it can deliver. -/
@[reducible] def LlmCall.Reply : LlmCall → Type
  | checkBudget _ => BudgetStatus
  | countSoftLimit _ => Unit
  | complete .. => Dict
  | embed .. => Dict
  | streamComplete .. => ℕ
  | nextChunk => Dict
  | yieldDelta _ => Unit
  | record _ => Unit

/-- The coroutines of the client. -/
abbrev Gateway := Prog LlmCall LlmCall.Reply Raised

/-- Await one call of the client. -/
abbrev awaitLlm (c : LlmCall) : Gateway c.Reply := Prog.call c

/-- A completed call. -/
structure LlmResponse where
  model : Json
  content : Json
  tokIn : ℤ
  tokOut : ℤ
  tokCached : ℤ
  costUsd : ℚ
  raw : Dict
  budgetSoftExceeded : Bool
  budget : Option BudgetStatus

/-- A completed embeddings call. -/
structure EmbeddingResponse where
  model : Json
  vectors : List Json
  tokIn : ℤ
  costUsd : ℚ
  raw : Dict

/-- The registry rows that the client routes to, and whether it has a budget checker. -/
structure LlmClient where
  models : List ModelRow
  hasBudgetChecker : Bool
  texts : GatewayTexts

/-- `_first_content(body)`. -/
def firstContent (body : Dict) : Except Exc Json := do
  match orElse ((Json.get? body "choices").getD .null) (.arr []) with
  | .arr [] => return .str ""
  | .arr (choice :: _) =>
    let message ← choice.getOr "message" (.obj [])
    let content ← message.getOr "content" (.str "")
    return orElse content (.str "")
  | .obj _ => throw ⟨.keyError, "0"⟩
  | .str _ => throw ⟨.attributeError, "'str' object has no attribute 'get'"⟩
  | _ => throw ⟨.typeError, "object is not subscriptable"⟩

/-- `status.raise_if_exceeded()`. -/
def BudgetStatus.raiseIfExceeded (status : BudgetStatus) : Except Raised Unit :=
  if status.hardExceeded then .error (.budgetExceeded status.scope status.spentUsd (status.limitUsd.getD 0))
  else .ok ()

namespace LlmClient

variable (client : LlmClient)

/-- `_check_budget(meta)`. -/
def checkBudget (callMeta : Dict) : Gateway (Option BudgetStatus) :=
  if client.hasBudgetChecker then do
    let budget ← awaitLlm (.checkBudget callMeta)
    if budget.softExceeded then awaitLlm (.countSoftLimit budget.scope)
    Prog.ofExcept budget.raiseIfExceeded
    return some budget
  else return none

/-- `_price_for(model_name, fallback=...)`. -/
def priceFor (modelName : Json) (fallback : ModelRow) : ModelRow :=
  (client.models.find? fun model => modelName.eqStr model.name || modelName.eqStr model.litellmModelId).getD fallback

/-- The exceptions that leave the block of a call to the proxy. -/
def gatewayError (call : String) (name : String) : Raised → Raised
  | .gateway message => .gateway message
  | .abandoned => .abandoned
  | error => .gateway (call ++ " failed for model " ++ client.texts.py.repr (.str name) ++ ": " ++ client.texts.str error)

/-- A keyword that is given by name and once more among the unpacked ones. -/
def duplicated (keywords : List String) (callMeta : Dict) : Except Raised Unit :=
  match keywords.find? fun keyword => (Json.get? callMeta keyword).isSome with
  | some keyword =>
    .error (.exception ⟨.typeError, "got multiple values for keyword argument '" ++ keyword ++ "'"⟩)
  | none => .ok ()

/-- `meta.get(key)`. -/
def metaValue (callMeta : Dict) (key : String) : Json := (Json.get? callMeta key).getD .null

/-- The row of a call. -/
def spendRow (callMeta : Dict) (served : Json) (usage : Usage) (cost : ℚ) : SpendRow where
  model := served
  agentId := metaValue callMeta "agent_id"
  userId := metaValue callMeta "user_id"
  deptId := metaValue callMeta "dept_id"
  tokIn := usage.tokIn
  tokOut := usage.tokOut
  tokCached := usage.tokCached
  costUsd := cost
  traceId := metaValue callMeta "trace_id"

/-- `parse_usage(body)` with its exception. -/
def usageOf (body : Dict) : Except Raised Usage := (parseUsage client.texts.py body).mapError .exception

/-- `_call(role, messages, sensitivity, redacted, meta)`. -/
def call (role : String) (messages : List Json) (sensitivity : Declared) (redacted : Bool) (callMeta : Dict) :
    Gateway LlmResponse := do
  let model ← Prog.ofExcept (selectModel client.texts client.models role sensitivity redacted)
  let budget ← client.checkBudget callMeta
  let send : Gateway Dict := do
    Prog.ofExcept (duplicated ["model"] callMeta)
    awaitLlm (.complete model.name messages callMeta)
  let body ← send.mapError (client.gatewayError "gateway call" model.name)
  let served := (Json.get? body "model").getD (.str model.name)
  let priced := client.priceFor served model
  let usage ← Prog.ofExcept (client.usageOf body)
  let cost := computeCost usage priced.inputPricePer1k priced.outputPricePer1k priced.cachedInputPrice
  awaitLlm (.record (spendRow callMeta served usage cost))
  let content ← Prog.ofExcept ((firstContent body).mapError .exception)
  return ⟨served, content, usage.tokIn, usage.tokOut, usage.tokCached, cost, body,
    budget.any (·.softExceeded), budget⟩

/-- `reasoning(messages, ...)`. -/
def reasoning := client.call "reasoning"

/-- `utility(messages, ...)`. -/
def utility := client.call "utility"

/-- What a stream has told so far: the model that serves it and the last chunk with a usage block. -/
def hear (heard : Json × Dict) (chunk : Dict) : Json × Dict :=
  ((Json.get? chunk "model").getD heard.1, if Json.flag chunk "usage" then chunk else heard.2)

/-- The loop over the chunks of a stream. -/
def consume : ℕ → Json × Dict → Gateway (Json × Dict)
  | 0, heard => return heard
  | chunks + 1, heard => do
    let chunk ← awaitLlm .nextChunk
    let delta := (Json.get? chunk "delta").getD (.str "")
    if delta.truthy then awaitLlm (.yieldDelta delta)
    consume chunks (hear heard chunk)

/-- `reasoning_stream(messages, ...)`. -/
def reasoningStream (messages : List Json) (sensitivity : Declared) (redacted : Bool) (callMeta : Dict) :
    Gateway Unit := do
  let model ← Prog.ofExcept (selectModel client.texts client.models "reasoning" sensitivity redacted)
  let _ ← client.checkBudget callMeta
  let opened : Gateway ℕ := do
    Prog.ofExcept (duplicated ["model"] callMeta)
    awaitLlm (.streamComplete model.name messages callMeta)
  let chunks ← opened.mapError (client.gatewayError "gateway stream call" model.name)
  let heard ← (consume chunks (.str model.name, [])).mapError (client.gatewayError "gateway stream call" model.name)
  let served := heard.1
  let priced := client.priceFor served model
  let usage ← Prog.ofExcept (client.usageOf heard.2)
  let cost := computeCost usage priced.inputPricePer1k priced.outputPricePer1k priced.cachedInputPrice
  awaitLlm (.record (spendRow callMeta served usage cost))

/-- The number that an index is. -/
def indexKey : Json → Option PyFloat
  | .int n => some (.decimal (n < 0) n.natAbs 0)
  | .bool b => some (.decimal false b.toNat 0)
  | .float x => some x
  | _ => none

/-- `sorted(data, key=lambda d: d.get("index", 0))`; a single item is compared with nothing. -/
def sortedByIndex (data : List Json) : Except Exc (List Json) := do
  let indices ← data.mapM fun item => item.getOr "index" (.int 0)
  match indices.mapM indexKey with
  | some keys => return ((keys.zip data).insertionSort fun a b => a.1.le b.1 = true).map Prod.snd
  | none =>
    if data.length ≤ 1 then return data
    else throw ⟨.typeError, "'<' not supported between the indices"⟩

/-- The vectors of an embeddings reply, in the order of their index. -/
def vectorsOf (body : Dict) : Except Exc (List Json) := do
  let data ← sortedByIndex (← (orElse ((Json.get? body "data").getD .null) (.arr [])).iterate)
  data.mapM fun item => item.item "embedding"

/-- `embeddings(texts, ...)`. -/
def embeddings (input : List String) (sensitivity : Declared) (redacted : Bool) (callMeta : Dict) :
    Gateway EmbeddingResponse := do
  let model ← Prog.ofExcept (selectModel client.texts client.models "embeddings" sensitivity redacted)
  let _ ← client.checkBudget callMeta
  let send : Gateway Dict := do
    Prog.ofExcept (duplicated ["model", "input"] callMeta)
    awaitLlm (.embed model.name input callMeta)
  let body ← send.mapError (client.gatewayError "gateway embed call" model.name)
  let served := (Json.get? body "model").getD (.str model.name)
  let priced := client.priceFor served model
  let usage ← Prog.ofExcept (client.usageOf body)
  let cost := computeCost usage priced.inputPricePer1k priced.outputPricePer1k none
  awaitLlm (.record (spendRow callMeta served { usage with tokOut := 0, tokCached := 0 } cost))
  let vectors ← Prog.ofExcept ((vectorsOf body).mapError .exception)
  return ⟨served, vectors, usage.tokIn, cost, body⟩

end LlmClient

end FleetWorkflow.Llm
