import FleetWorkflow.Llm.Clearance
import FleetWorkflow.Store.Sessions
import FleetWorkflow.Store.Table

/-!
# The model registry

Admins add models to the registry, each after a probe, and delete them; a fresh installation is seeded with a default
matrix. The client routes to the rows that are active or degraded. Over every sequence of these requests, and whichever of
their statements fail, the rows keep what routing relies on: valid clearances, and personal data for local lanes only.
-/

namespace FleetWorkflow.Llm

open Python Async Store

/-! ## Drafts and rows -/

/-- `_CLEARANCES`. -/
def clearances : List String := ["public", "internal", "confidential", "pii"]

/-- `_LOCAL_PROVIDERS`. -/
def localProviders : List String := ["ollama", "vllm"]

/-- An admin-submitted model definition. -/
structure ModelDraft where
  name : String
  provider : String
  litellmModelId : String
  inputPricePer1k : ℚ
  outputPricePer1k : ℚ
  contextWindow : ℤ
  capabilities : List String
  maxOutputTokens : ℤ
  sensitivityClearance : String
  endpoint : Option String
  cachedInputPrice : Option ℚ
  region : Option String

/-- Add-a-model form payload: a draft within the bounds of its fields. -/
structure ModelIn extends ModelDraft where
  input_nonneg : 0 ≤ inputPricePer1k
  output_nonneg : 0 ≤ outputPricePer1k
  context_pos : 0 < contextWindow
  output_pos : 0 < maxOutputTokens

/-- The fields that a smoke test decides. -/
structure SmokeFields where
  status : String
  smokeStatus : String
  smokeDetail : Option String
  smokeLatencyMs : Option ℕ

/-- The row to persist, without its id. -/
structure ModelFields extends ModelDraft, SmokeFields

/-- A row of `models`. -/
structure RegistryRow extends ModelFields where
  id : ℕ
  smokeAt : Option ℚ

section Drafts

variable (py : Builtins)

/-- `_is_local(draft)`. -/
def ModelDraft.isLocal (draft : ModelDraft) : Bool :=
  py.lower draft.provider ∈ localProviders ||
    localProviders.any fun provider => Python.startsWith draft.litellmModelId (provider ++ "/")

/-- `build_model_row(draft)`. -/
def buildModelRow (draft : ModelDraft) : Except Exc ModelFields :=
  if draft.sensitivityClearance ∉ clearances then
    .error ⟨.valueError, "unknown sensitivity_clearance: " ++ draft.sensitivityClearance⟩
  else if draft.sensitivityClearance = "pii" ∧ ¬ draft.isLocal py then
    .error ⟨.valueError, "no cloud model may be cleared for pii (TRD §4.2); provider=" ++ py.repr (.str draft.provider) ++
      " is not a local lane"⟩
  else if draft.inputPricePer1k < 0 ∨ draft.outputPricePer1k < 0 then
    .error ⟨.valueError, "prices must be non-negative"⟩
  else .ok { draft with status := "pending", smokeStatus := "pending", smokeDetail := none, smokeLatencyMs := none }

/-- What routing relies on: a valid clearance, and one for personal data on a local lane only. -/
structure ModelDraft.Admissible (draft : ModelDraft) : Prop where
  valid : draft.sensitivityClearance ∈ clearances
  lane : draft.sensitivityClearance = "pii" → draft.isLocal py

variable {py} in
/-- A row that is built is of the draft, and admissible. -/
theorem buildModelRow_ok {draft : ModelDraft} {fields : ModelFields} (h : buildModelRow py draft = .ok fields) :
    fields.toModelDraft = draft ∧ draft.Admissible py := by
  rw [buildModelRow] at h
  split at h
  · cases h
  · rename_i hvalid
    split at h
    · cases h
    · rename_i hlane
      split at h
      · cases h
      · cases h
        refine ⟨rfl, not_not.mp hvalid, fun hpii => ?_⟩
        by_contra hcloud
        exact hlane ⟨hpii, hcloud⟩

end Drafts

/-! ## The smoke test -/

/-- The outcome of the connectivity and capability probe. -/
structure SmokeResult where
  reachable : Bool
  capabilitiesOk : Bool
  detail : String
  latencyMs : Option ℕ

/-- What the proxy answers to a ping: a transport error, or a response whose body may be JSON. -/
inductive Ping where
  | failed (error : String)
  | answered (statusCode : ℕ) (text : String) (body : Option Json) (latencyMs : ℕ)

/-- `bool(choices) and "message" in choices[0]` for the choices of a body. -/
def hasMessage (body : Json) : Except Exc Bool := do
  match orElse (← body.getOr "choices" .null) (.arr []) with
  | .arr [] => return false
  | .arr (choice :: _) => choice.contains "message"
  | .str _ => return false
  | .obj _ => throw ⟨.keyError, "0"⟩
  | _ => throw ⟨.typeError, "object is not subscriptable"⟩

/-- What a response to a ping says. -/
def smokeResult : Ping → Except Exc SmokeResult
  | .failed error => return ⟨false, false, "transport error: " ++ error, none⟩
  | .answered statusCode text body latencyMs => do
    if statusCode ≠ 200 then
      return ⟨false, false, "HTTP " ++ toString statusCode ++ ": " ++ String.ofList (text.toList.take 200), some latencyMs⟩
    match body with
    | none => return ⟨true, false, "reachable but response was not JSON", some latencyMs⟩
    | some body =>
      if ← hasMessage body then return ⟨true, true, "ok", some latencyMs⟩
      else return ⟨true, false, "reachable but response had no choices", some latencyMs⟩

/-- `evaluate_smoke(draft, probe)`. -/
def evaluateSmoke (probe : SmokeResult) : SmokeFields :=
  let (status, smoke) :=
    if !probe.reachable then ("error", "failed")
    else if !probe.capabilitiesOk then ("degraded", "degraded")
    else ("active", "ok")
  ⟨status, smoke, some probe.detail, probe.latencyMs⟩

/-! ## The registry -/

/-- The table of models: names are unique. -/
structure Registry where
  models : Table RegistryRow RegistryRow.id
  name_unique : ∀ id id' row row', models.row id = some row → models.row id' = some row' → row.name = row'.name → id = id'

namespace Registry

variable (registry : Registry)

/-- No model. -/
def empty : Registry where
  models := .empty
  name_unique _ _ _ _ h := by cases h

/-- The row of a name. -/
def findName (name : String) : Option RegistryRow := registry.models.rows.find? fun row => row.name = name

/-- A name that is not found is that of no row. -/
theorem findName_eq_none {name : String} :
    registry.findName name = none ↔ ∀ id row, registry.models.row id = some row → row.name ≠ name := by
  simp only [findName, List.find?_eq_none, Table.mem_rows, decide_eq_true_eq, forall_exists_index]
  exact ⟨fun h id row hrow => h row id hrow, fun h row id hrow => h id row hrow⟩

/-- Add a model under a new name. -/
def insert (fields : ModelFields) (hnew : registry.findName fields.name = none) : Registry where
  models := registry.models.insert { fields with id := registry.models.next, smokeAt := none } rfl
  name_unique id id' row row' h h' hname := by
    have hother := registry.findName_eq_none.mp hnew
    rw [Table.row_insert] at h h'
    split at h
    · split at h'
      · rename_i hid hid'
        rw [hid, hid']
      · cases h
        exact absurd hname.symm (hother id' row' h')
    · split at h'
      · cases h'
        exact absurd hname (hother id row h)
      · exact registry.name_unique id id' row row' h h' hname

/-- Change what the smoke test decided. -/
def setSmoke (id : ℕ) (smoke : SmokeFields) (smokeAt : ℚ) : Registry where
  models := registry.models.update id (fun row => { row with toSmokeFields := smoke, smokeAt := some smokeAt }) fun _ => rfl
  name_unique id₁ id₂ row₁ row₂ h₁ h₂ hname := by
    have hbefore (id' : ℕ) (row' : RegistryRow) (h : (registry.models.update id (fun row =>
        { row with toSmokeFields := smoke, smokeAt := some smokeAt }) fun _ => rfl).row id' = some row') :
        ∃ row, registry.models.row id' = some row ∧ row.name = row'.name := by
      rw [Table.row_update] at h
      split at h
      · rename_i hid
        obtain ⟨row, hrow, rfl⟩ := Option.map_eq_some_iff.mp h
        exact ⟨row, hid ▸ hrow, rfl⟩
      · exact ⟨row', h, rfl⟩
    obtain ⟨row, hrow, hsame⟩ := hbefore id₁ row₁ h₁
    obtain ⟨row', hrow', hsame'⟩ := hbefore id₂ row₂ h₂
    exact registry.name_unique id₁ id₂ row row' hrow hrow' (by rw [hsame, hname, hsame'])

/-- Delete a model. -/
def delete (id : ℕ) : Registry where
  models := registry.models.delete id
  name_unique id₁ id₂ row₁ row₂ h₁ h₂ := by
    rw [Table.row_delete] at h₁ h₂
    split at h₁
    · cases h₁
    · split at h₂
      · cases h₂
      · exact registry.name_unique id₁ id₂ row₁ row₂ h₁ h₂

end Registry

/-! ## Requests -/

/-- What the requests to the registry wait for. -/
inductive RegistryCall where
  | insertModel (fields : ModelFields)
  | seedModel (fields : ModelFields)
  | postPing (model : String)
  | now
  | setSmoke (id : ℕ) (smoke : SmokeFields) (smokeAt : ℚ)
  | getModel (id : ℕ)
  | deleteModel (id : ℕ)
  | commit
  | refresh (id : ℕ)

/-- What each call returns. -/
@[reducible] def RegistryCall.Reply : RegistryCall → Type
  | insertModel _ => ℕ
  | seedModel _ => Unit
  | postPing _ => Ping
  | now => ℚ
  | setSmoke _ _ _ => Unit
  | getModel _ => Option RegistryRow
  | deleteModel _ => Unit
  | commit => Unit
  | refresh _ => RegistryRow

/-- A coroutine over the registry. -/
abbrev Registering := Prog RegistryCall RegistryCall.Reply Exc

/-- Await one call. -/
abbrev awaitRegistry (c : RegistryCall) : Registering c.Reply := Prog.call c

/-- `probe_model(draft, ...)`. -/
def probeModel (draft : ModelDraft) : Registering SmokeResult := do
  Prog.ofExcept (smokeResult (← awaitRegistry (.postPing draft.name)))

/-- `add_model(body)`. -/
def addModel (py : Builtins) (body : ModelIn) : Registering RegistryRow := do
  let fields ← Prog.ofExcept ((buildModelRow py body.toModelDraft).mapError fun error => ⟨.http 422, error.message⟩)
  let id ← awaitRegistry (.insertModel fields)
  let probe ← probeModel body.toModelDraft
  let smokeAt ← awaitRegistry .now
  awaitRegistry (.setSmoke id (evaluateSmoke probe) smokeAt)
  awaitRegistry .commit
  awaitRegistry (.refresh id)

/-- `delete_model(model_id)`. -/
def deleteModel (modelId : ℕ) : Registering Unit := do
  match ← awaitRegistry (.getModel modelId) with
  | none => .raise ⟨.http 404, "model not found"⟩
  | some _ => do
    awaitRegistry (.deleteModel modelId)
    awaitRegistry .commit

/-- A row of the default matrix, as if it had passed its smoke test. -/
def defaultModel (name provider litellmModelId : String) (inputPricePer1k outputPricePer1k : ℚ) (contextWindow : ℤ)
    (capabilities : List String) (maxOutputTokens : ℤ) (sensitivityClearance region : String) : ModelFields where
  name := name
  provider := provider
  litellmModelId := litellmModelId
  inputPricePer1k := inputPricePer1k
  outputPricePer1k := outputPricePer1k
  contextWindow := contextWindow
  capabilities := capabilities
  maxOutputTokens := maxOutputTokens
  sensitivityClearance := sensitivityClearance
  endpoint := none
  cachedInputPrice := none
  region := some region
  status := "active"
  smokeStatus := "ok"
  smokeDetail := none
  smokeLatencyMs := none

/-- `_DEFAULT_MODELS`. -/
def defaultModels : List ModelFields :=
  [defaultModel "reasoning" "anthropic" "anthropic/claude-sonnet-4-5" (3 / 1000) (15 / 1000) 200000
      ["tools", "json", "vision"] 8192 "internal" "us",
    defaultModel "reasoning-fallback-1" "openai" "openai/gpt-4o" (25 / 10000) (1 / 100) 128000
      ["tools", "json", "vision"] 16384 "internal" "us",
    defaultModel "reasoning-fallback-2" "gemini" "gemini/gemini-3.6-flash" (125 / 100000) (5 / 1000) 1000000
      ["tools", "json", "vision"] 8192 "internal" "us",
    defaultModel "utility" "openai" "openai/gpt-4o-mini" (15 / 100000) (6 / 10000) 128000
      ["tools", "json", "vision"] 16384 "internal" "us",
    defaultModel "utility-fallback-1" "gemini" "gemini/gemini-3.6-flash" (75 / 1000000) (3 / 10000) 1000000
      ["tools", "json", "vision"] 8192 "internal" "us",
    defaultModel "utility-fallback-2" "anthropic" "anthropic/claude-haiku-4-5" (1 / 1000) (5 / 1000) 200000
      ["tools", "json"] 8192 "internal" "us",
    defaultModel "embeddings" "openai" "openai/text-embedding-3-small" (2 / 100000) 0 8191 ["json"] 1 "internal" "us",
    defaultModel "local-reasoning" "ollama" "ollama/qwen2.5:7b-instruct-q4_K_M" 0 0 32768 ["tools", "json"] 4096 "pii"
      "local",
    defaultModel "local-embeddings" "ollama" "ollama/bge-m3" 0 0 8192 ["json"] 1 "pii" "local"]

/-- Seed some models, each unless its name is taken, and commit. -/
def seedModels : List ModelFields → Registering Unit
  | [] => awaitRegistry .commit
  | fields :: rest => do
    awaitRegistry (.seedModel fields)
    seedModels rest

/-- The database refuses a second row of a name. -/
def duplicateModel : Exc := ⟨.integrityError, "IntegrityError"⟩

/-- What is around one request: the answer to a ping, and the time. -/
structure Around where
  ping : Ping
  time : ℚ

/-- What a statement makes of the registry. -/
def Registry.execute (around : Around) (registry : Registry) : (c : RegistryCall) → Except Exc (Registry × c.Reply)
  | .insertModel fields =>
    if hnew : registry.findName fields.name = none then .ok (registry.insert fields hnew, registry.models.next)
    else .error duplicateModel
  | .seedModel fields =>
    if hnew : registry.findName fields.name = none then .ok (registry.insert fields hnew, ())
    else .ok (registry, ())
  | .postPing _ => .ok (registry, around.ping)
  | .now => .ok (registry, around.time)
  | .setSmoke id smoke smokeAt => .ok (registry.setSmoke id smoke smokeAt, ())
  | .getModel id => .ok (registry, registry.models.row id)
  | .deleteModel id => .ok (registry.delete id, ())
  | .commit => .ok (registry, ())
  | .refresh id =>
    match registry.models.row id with
    | some row => .ok (registry, row)
    | none => .error ⟨.external, "Could not refresh instance"⟩

/-- The database of the registry. -/
def registryDatabase (around : Around) : Database RegistryCall RegistryCall.Reply Exc Registry where
  execute := Registry.execute around
  commits
    | .commit => true
    | _ => false

/-- A request that changes the registry. -/
inductive RegistryRequest where
  | add (body : ModelIn)
  | delete (modelId : ℕ)
  | seed

/-- The handler of a request. -/
def RegistryRequest.task (py : Builtins) : RegistryRequest → Registering Unit
  | .add body => discard (addModel py body)
  | .delete modelId => deleteModel modelId
  | .seed => seedModels defaultModels

/-- A request with what is around it and which of its statements fail. -/
structure RegistryTurn where
  request : RegistryRequest
  around : Around
  fault : ℕ → Option (Fault Exc)

/-- The registry after requests, one after another. -/
def Registry.serveAll (py : Builtins) (registry : Registry) (turns : List RegistryTurn) : Registry :=
  turns.foldl (fun registry turn => (registryDatabase turn.around).serve turn.fault (turn.request.task py) registry) registry

/-! ## What the rows keep -/

section Rows

variable (py : Builtins)

/-- Every row is admissible. -/
def Registry.Admissible (registry : Registry) : Prop :=
  ∀ id row, registry.models.row id = some row → row.toModelDraft.Admissible py

/-- Only admissible rows are written. -/
def WritesAdmissible : RegistryCall → Prop
  | .insertModel fields => fields.toModelDraft.Admissible py
  | .seedModel fields => fields.toModelDraft.Admissible py
  | _ => True

variable {py}

/-- An admissible row is added. -/
theorem Registry.Admissible.insert {registry : Registry} (h : registry.Admissible py) {fields : ModelFields}
    (hfields : fields.toModelDraft.Admissible py) (hnew : registry.findName fields.name = none) :
    (registry.insert fields hnew).Admissible py := by
  intro id row hrow
  rw [Registry.insert, Table.row_insert] at hrow
  split at hrow
  · cases hrow
    exact hfields
  · exact h id row hrow

/-- A statement that writes admissible rows keeps every row admissible. -/
theorem Registry.Admissible.execute {around : Around} {registry registry' : Registry} {c : RegistryCall} {value : c.Reply}
    (hc : WritesAdmissible py c) (h : registry.Admissible py) (hexecute : registry.execute around c = .ok (registry', value)) :
    registry'.Admissible py := by
  cases c with
  | insertModel fields =>
    rw [Registry.execute] at hexecute
    split at hexecute
    · cases hexecute
      exact h.insert hc _
    · cases hexecute
  | seedModel fields =>
    rw [Registry.execute] at hexecute
    split at hexecute
    · cases hexecute
      exact h.insert hc _
    · cases hexecute
      exact h
  | setSmoke id smoke smokeAt =>
    cases hexecute
    intro id' row hrow
    rw [Registry.setSmoke, Table.row_update] at hrow
    split at hrow
    · obtain ⟨row', hrow', rfl⟩ := Option.map_eq_some_iff.mp hrow
      exact h id row' hrow'
    · exact h id' row hrow
  | deleteModel id =>
    cases hexecute
    intro id' row hrow
    rw [Registry.delete, Table.row_delete] at hrow
    split at hrow
    · cases hrow
    · exact h id' row hrow
  | refresh id =>
    rw [Registry.execute] at hexecute
    split at hexecute
    · cases hexecute
      exact h
    · cases hexecute
  | postPing model | now | getModel id | commit =>
    cases hexecute
    exact h

/-- The default matrix is admissible. -/
theorem defaultModels_admissible : ∀ fields ∈ defaultModels, fields.toModelDraft.Admissible py := by
  intro fields hfields
  have hvalid : defaultModels.all (fun fields => fields.sensitivityClearance ∈ clearances) = true := by decide
  have hlane : defaultModels.all (fun fields => fields.sensitivityClearance ≠ "pii" ||
      localProviders.any fun provider => Python.startsWith fields.litellmModelId (provider ++ "/")) = true := by decide
  refine ⟨by simpa using List.all_eq_true.mp hvalid fields hfields, fun hpii => ?_⟩
  have hlocal := List.all_eq_true.mp hlane fields hfields
  rw [hpii] at hlocal
  rw [ModelDraft.isLocal, Bool.or_eq_true]
  exact .inr hlocal

/-- Adding a model writes what was built. -/
theorem only_addModel (body : ModelIn) : (addModel py body).Only (WritesAdmissible py) := by
  rw [addModel]
  cases hbuilt : buildModelRow py body.toModelDraft with
  | error error => trivial
  | ok fields =>
    obtain ⟨hdraft, hadmissible⟩ := buildModelRow_ok hbuilt
    have hwrites : WritesAdmissible py (.insertModel fields) := by
      rw [WritesAdmissible, hdraft]
      exact hadmissible
    apply (Prog.only_call hwrites).bind
    intro id
    have hprobe : (probeModel body.toModelDraft).Only (WritesAdmissible py) :=
      (Prog.only_call trivial).bind fun reply => Prog.only_ofExcept (smokeResult reply)
    apply hprobe.bind
    intro probe
    apply (Prog.only_call trivial).bind
    intro smokeAt
    apply (Prog.only_call trivial).bind
    intro _
    apply (Prog.only_call trivial).bind
    intro _
    exact Prog.only_call trivial

/-- Seeding writes what it is given. -/
theorem only_seedModels {models : List ModelFields} (h : ∀ fields ∈ models, fields.toModelDraft.Admissible py) :
    (seedModels models).Only (WritesAdmissible py) := by
  induction models with
  | nil => exact Prog.only_call trivial
  | cons fields rest ih =>
    apply (Prog.only_call (show WritesAdmissible py (.seedModel fields) from h fields List.mem_cons_self)).bind
    intro _
    exact ih fun other hother => h other (List.mem_cons_of_mem fields hother)

/-- Every request writes admissible rows only. -/
theorem RegistryRequest.only_task (request : RegistryRequest) : (request.task py).Only (WritesAdmissible py) := by
  cases request with
  | add body => exact (only_addModel body).bind fun _ => trivial
  | delete modelId =>
    apply (Prog.only_call trivial).bind
    intro found
    cases found with
    | none => trivial
    | some row => exact (Prog.only_call trivial).bind fun _ => Prog.only_call trivial
  | seed => exact only_seedModels defaultModels_admissible

/-- Requests keep every row admissible. -/
theorem Registry.admissible_serveAll (turns : List RegistryTurn) {registry : Registry} (h : registry.Admissible py) :
    (registry.serveAll py turns).Admissible py := by
  induction turns generalizing registry with
  | nil => exact h
  | cons turn rest ih =>
    exact ih (Database.serve_keeps turn.request.only_task
      (fun _ _ _ _ hc hregistry hexecute => hregistry.execute hc hexecute) h)

end Rows

/-! ## Routing -/

/-- `word in text`. -/
def mentions (word text : String) : Bool := text.toList.tails.any fun rest => word.toList.isPrefixOf rest

/-- `derive_role(model_name)`. -/
def deriveRole (modelName : String) : String :=
  if mentions "embeddings" modelName then "embeddings"
  else if mentions "utility" modelName then "utility"
  else "reasoning"

/-- What the client reads of a row, with its derived role. -/
def RegistryRow.annotated (row : RegistryRow) : ModelRow where
  name := row.name
  provider := row.provider
  litellmModelId := row.litellmModelId
  sensitivityClearance := row.sensitivityClearance
  inputPricePer1k := row.inputPricePer1k
  outputPricePer1k := row.outputPricePer1k
  cachedInputPrice := row.cachedInputPrice
  fleetRole := deriveRole row.name

/-- A row that the gateway may route to. -/
def RegistryRow.IsRoutable (row : RegistryRow) : Prop := row.status ∈ ["active", "degraded"]

instance (row : RegistryRow) : Decidable row.IsRoutable := inferInstanceAs (Decidable (row.status ∈ ["active", "degraded"]))

/-- `load_active_models(...)`, in the order of the ids. -/
def loadActiveModels (registry : Registry) : List ModelRow :=
  (registry.models.rows.filter fun row => row.IsRoutable).map RegistryRow.annotated

/-- `build_client()` over the models that were loaded. -/
def buildClient (texts : GatewayTexts) (models : List ModelRow) : LlmClient where
  models := models
  hasBudgetChecker := true
  texts := texts

/-- The texts of the classification in upper case are its names. -/
def GatewayTexts.UppersLevels (texts : GatewayTexts) : Prop :=
  ∀ member ∈ Sensitivity.members, texts.upper member.2.lowerName = member.1

section Routing

variable {texts : GatewayTexts} {registry : Registry} {models : List ModelRow}

/-- A model that is loaded is that of a row. -/
theorem mem_loadActiveModels {model : ModelRow} : model ∈ loadActiveModels registry ↔
    ∃ id row, registry.models.row id = some row ∧ row.IsRoutable ∧ row.annotated = model := by
  simp only [loadActiveModels, List.mem_map, List.mem_filter, Table.mem_rows, decide_eq_true_eq]
  constructor
  · rintro ⟨row, ⟨⟨id, hrow⟩, hroutable⟩, hmodel⟩
    exact ⟨id, row, hrow, hroutable, hmodel⟩
  · rintro ⟨id, row, hrow, hroutable, hmodel⟩
    exact ⟨row, ⟨⟨id, hrow⟩, hroutable⟩, hmodel⟩

/-- A row is found by its name. -/
theorem Registry.findName_name {id : ℕ} {row : RegistryRow} (h : registry.models.row id = some row) :
    registry.findName row.name = some row := by
  cases hfound : registry.findName row.name with
  | none => exact absurd rfl (registry.findName_eq_none.mp hfound id row h)
  | some found =>
    obtain ⟨id', hrow'⟩ := registry.models.mem_rows.mp (List.mem_of_find?_eq_some hfound)
    have hname : found.name = row.name := by simpa using List.find?_some hfound
    obtain rfl := registry.name_unique id' id found row hrow' h hname
    rw [hrow', Option.some.injEq] at h
    rw [h]

/-- The clearance of a level is parsed to the level. -/
theorem parse_lowerName (hupper : texts.UppersLevels) (level : Sensitivity) :
    Sensitivity.parse texts (.text level.lowerName) = .ok level := by
  have hmember : ∃ name, (name, level) ∈ Sensitivity.members ∧
      Sensitivity.members.find? (fun member => member.1 = name) = some (name, level) := by
    cases level
    · exact ⟨"PUBLIC", by decide, by decide⟩
    · exact ⟨"INTERNAL", by decide, by decide⟩
    · exact ⟨"CONFIDENTIAL", by decide, by decide⟩
    · exact ⟨"PII", by decide, by decide⟩
  obtain ⟨name, hmem, hfind⟩ := hmember
  simp only [Sensitivity.parse, hupper _ hmem, hfind]

/-- An admissible clearance is that of a level. -/
theorem exists_lowerName {clearance : String} (h : clearance ∈ clearances) :
    ∃ level : Sensitivity, clearance = level.lowerName := by
  simp only [clearances, List.mem_cons, List.not_mem_nil, or_false] at h
  rcases h with rfl | rfl | rfl | rfl
  · exact ⟨.unclassified, rfl⟩
  · exact ⟨.internal, rfl⟩
  · exact ⟨.confidential, rfl⟩
  · exact ⟨.pii, rfl⟩

/-- Nothing but the clearance for personal data covers personal data. -/
theorem eq_pii_of_level_le {level : Sensitivity} (h : Sensitivity.pii.level ≤ level.level) : level = .pii := by
  cases level <;> simp [Sensitivity.level] at h ⊢

/-- Admissible rows have valid clearances. -/
theorem Registry.Admissible.clearance (h : registry.Admissible texts.py) (hupper : texts.UppersLevels) {id : ℕ}
    {row : RegistryRow} (hrow : registry.models.row id = some row) :
    ∃ level, Llm.clearance texts row.annotated = .ok level ∧ row.sensitivityClearance = level.lowerName := by
  obtain ⟨level, hlevel⟩ := exists_lowerName (h id row hrow).valid
  refine ⟨level, ?_, hlevel⟩
  rw [Llm.clearance, show row.annotated.sensitivityClearance = level.lowerName from hlevel]
  exact parse_lowerName hupper level

/-- Over every sequence of additions, deletions and seedings, whatever the probes answer and whichever statements fail: a
client that is built of the registry then has valid clearances only, and personal data reaches the proxy only under the name
of a row on a local lane that is active or degraded, through each entry point and also when it is marked redacted. -/
theorem pii_stays_local (hupper : texts.UppersLevels) (turns : List RegistryTurn)
    (hmodels : models.Perm (loadActiveModels (Registry.empty.serveAll texts.py turns))) :
    (∀ model ∈ models, ∃ cleared, clearance texts model = .ok cleared) ∧
      ∀ (entry : Entry) (sensitivity : Declared) (redacted : Bool) (callMeta : Dict) (events : List LlmEvent)
        (result : Except Raised Answer), Sensitivity.parse texts sensitivity = .ok .pii →
        ((buildClient texts models).perform sensitivity redacted callMeta entry).Runs events result →
          ∀ event ∈ events, ∀ name, event.call.sentTo = some name →
            ∃ row, (Registry.empty.serveAll texts.py turns).findName name = some row ∧ row.IsRoutable ∧
              row.isLocal texts.py = true := by
  have hadmissible : (Registry.empty.serveAll texts.py turns).Admissible texts.py :=
    Registry.admissible_serveAll turns fun _ _ hrow => by cases hrow
  have hvalid : ∀ model ∈ models, ∃ cleared, clearance texts model = .ok cleared := by
    intro model hmodel
    obtain ⟨id, row, hrow, -, rfl⟩ := mem_loadActiveModels.mp (hmodels.mem_iff.mp hmodel)
    obtain ⟨level, hlevel, -⟩ := hadmissible.clearance hupper hrow
    exact ⟨level, hlevel⟩
  refine ⟨hvalid, ?_⟩
  intro entry sensitivity redacted callMeta events result hparse hruns event hevent name hsent
  have hcleared := (perform_cleared hvalid hruns).2 .pii hparse
  obtain ⟨model, ⟨hmodel, ⟨-, cleared, hcleared, hlevel⟩, -⟩, rfl⟩ := hcleared.1 event hevent name hsent
  rw [required_pii] at hlevel
  obtain ⟨id, row, hrow, hroutable, rfl⟩ := mem_loadActiveModels.mp (hmodels.mem_iff.mp hmodel)
  refine ⟨row, Registry.findName_name hrow, hroutable, (hadmissible id row hrow).lane ?_⟩
  obtain ⟨level, hrowLevel, hname⟩ := hadmissible.clearance hupper hrow
  have hsame : level = cleared := Except.ok.inj (hrowLevel.symm.trans hcleared)
  rw [hname, hsame, eq_pii_of_level_le hlevel]
  rfl

end Routing

/-- Texts in upper case, as far as the classification needs them. -/
def levelTexts : GatewayTexts where
  py := ⟨fun _ => "", id, fun _ => .error ⟨.typeError, ""⟩, fun _ => .error ⟨.typeError, ""⟩⟩
  upper s :=
    if s = "public" then "PUBLIC" else if s = "internal" then "INTERNAL" else if s = "confidential" then "CONFIDENTIAL"
    else if s = "pii" then "PII" else s
  str _ := ""

/-- A reasoning model on the local lane. -/
def localLane : ModelIn where
  name := "reasoning-local"
  provider := "ollama"
  litellmModelId := "ollama/14b"
  inputPricePer1k := 0
  outputPricePer1k := 0
  contextWindow := 32768
  capabilities := []
  maxOutputTokens := 4096
  sensitivityClearance := "pii"
  endpoint := none
  cachedInputPrice := none
  region := none
  input_nonneg := le_rfl
  output_nonneg := le_rfl
  context_pos := by decide
  output_pos := by decide

/-- It is added, and its probe is answered. -/
def addLocalLane : RegistryTurn where
  request := .add localLane
  around := ⟨.answered 200 "" (some (.obj [("choices", .arr [.obj [("message", .null)]])])) 5, 0⟩
  fault _ := none

/-- Personal data goes to the local lane that was added. -/
theorem addLocalLane_pii :
    let registry := Registry.empty.serveAll levelTexts.py [addLocalLane]
    let events : List LlmEvent := [⟨.checkBudget [], .ok ⟨"global", 0, none, 80, true, false, false, 0⟩⟩,
      ⟨.complete "reasoning-local" [] [], .error (.gateway "down")⟩]
    ((buildClient levelTexts (loadActiveModels registry)).perform (.text "pii") true [] (.reasoning [])).Runs events
        (.error (.gateway "down")) ∧
      ∃ row, registry.findName "reasoning-local" = some row ∧ row.IsRoutable ∧ row.isLocal levelTexts.py = true := by
  intro registry events
  have hrun : ((buildClient levelTexts (loadActiveModels registry)).perform (.text "pii") true [] (.reasoning [])).Runs
      events (.error (.gateway "down")) := .await (.await (.raise _))
  have hupper : levelTexts.UppersLevels := by
    rw [GatewayTexts.UppersLevels]
    decide
  refine ⟨hrun, ?_⟩
  exact (pii_stays_local hupper [addLocalLane] (.refl _)).2 _ _ _ _ _ _ rfl hrun _
    (List.mem_cons_of_mem _ List.mem_cons_self) _ rfl

end FleetWorkflow.Llm
