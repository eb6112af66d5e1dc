import FleetWorkflow.Flow.Fallible
import FleetWorkflow.Python.Binary64
import FleetWorkflow.Python.Value

/-!
# The pricing sync

One pass over the models of a gateway configuration, which takes the prices of each from a price map. The pass works on
a deep copy. A configuration is a tree of values as it is read from a file without aliases; what is in it may be of any
kind, and the pass raises where it is not of the kind that it expects.

An entry without `litellm_params` is given an empty one even when no price is set in it. Otherwise nothing but the two
prices of an entry is changed, and a second pass finds nothing to change.
-/

namespace FleetWorkflow.Gateway

open Python Flow

/-! ## Prices -/

/-- A price map: the entry of each model. -/
abbrev Prices := List (String × Dict)

/-- `"input_cost_per_token"`. -/
def inputKey : String := "input_cost_per_token"

/-- `"output_cost_per_token"`. -/
def outputKey : String := "output_cost_per_token"

/-- The two price fields. -/
def priceKeys : List String := [inputKey, outputKey]

/-- `0.0`. -/
def zeroPrice : Json := .float (.decimal false 0 0)

/-- `_valid_price(value)`. -/
def validPrice : Json → Bool
  | .int n => 0 ≤ n
  | .float x => (FloatValue.finite 0).le x.double
  | _ => false

/-- `value > 0` of a valid price. -/
def isPositive : Json → Bool
  | .int n => 0 < n
  | .float x => x.double.gt (.finite 0)
  | _ => false

/-- What a value is compared as with a number. -/
def numberValue? : Json → Option FloatValue
  | .bool b => some (.finite (if b then 1 else 0))
  | .int n => some (.finite n)
  | .float x => some x.double
  | _ => none

/-- `value == price` for a price that is a number; a NaN equals nothing. -/
def equalsPrice (value price : Json) : Bool :=
  match numberValue? value, numberValue? price with
  | some x, some y => x ≠ .nan && x = y
  | _, _ => false

/-- `_is_local(model_id)`. -/
def isLocal (modelId : String) : Bool := startsWith modelId "ollama/" || startsWith modelId "vllm/"

/-! ## The pass -/

/-- Where the name of an entry is reported. -/
inductive Outcome where
  | updated
  | unchanged
  | unresolved
  | invalid
deriving DecidableEq, Repr

/-- The outcome of a sync pass. -/
structure SyncReport where
  updated : List Json
  unchanged : List Json
  unresolved : List Json
  invalid : List Json

/-- The names with an outcome. -/
def SyncReport.names (report : SyncReport) : Outcome → List Json
  | .updated => report.updated
  | .unchanged => report.unchanged
  | .unresolved => report.unresolved
  | .invalid => report.invalid

/-- Append a name to one of the lists. -/
def SyncReport.record (report : SyncReport) (name : Json) : Outcome → SyncReport
  | .updated => { report with updated := report.updated ++ [name] }
  | .unchanged => { report with unchanged := report.unchanged ++ [name] }
  | .unresolved => { report with unresolved := report.unresolved ++ [name] }
  | .invalid => { report with invalid := report.invalid ++ [name] }

/-- `fields.setdefault(key, value)`. -/
def setDefault (fields : Dict) (key : String) (value : Json) : Dict :=
  if (Json.get? fields key).isSome then fields else Json.insert fields key value

/-- `source.get("input_cost_per_token")`. -/
def sourceInput (source : Dict) : Json := (Json.get? source inputKey).getD .null

/-- `source.get("output_cost_per_token", 0.0)`. -/
def sourceOutput (source : Dict) : Json := (Json.get? source outputKey).getD zeroPrice

/-- `params.get(key) != price`. -/
def differs (params : Dict) (key : String) (price : Json) : Bool := !equalsPrice ((Json.get? params key).getD .null) price

/-- The parameters with both prices set. -/
def setPrices (params : Dict) (inPrice outPrice : Json) : Dict :=
  Json.insert (Json.insert params inputKey inPrice) outputKey outPrice

/-- The config has a positive price of its own. -/
def isPinned (params : Dict) : Bool :=
  validPrice ((Json.get? params inputKey).getD .null) && isPositive ((Json.get? params inputKey).getD .null)

/-- The parameters and the outcome of a model with a text as its id. -/
def syncModel (prices : Prices) (modelId : String) (params : Dict) : Dict × Outcome :=
  match prices.lookup modelId with
  | some source =>
    if !validPrice (sourceInput source) || !validPrice (sourceOutput source) then (params, .invalid)
    else
      (setPrices params (sourceInput source) (sourceOutput source),
        if differs params inputKey (sourceInput source) || differs params outputKey (sourceOutput source) then .updated
        else .unchanged)
  | none =>
    if isLocal modelId then (setDefault (setDefault params inputKey zeroPrice) outputKey zeroPrice, .unchanged)
    else (params, if isPinned params then .unchanged else .unresolved)

/-- The parameters of an entry: a list or a mapping cannot be looked up in the price map, and what is found nowhere is
asked for its beginning. -/
def syncParams (prices : Prices) : Json → Except Exc (Dict × Outcome)
  | .obj params =>
    match (Json.get? params "model").getD (.str "") with
    | .str modelId => .ok (syncModel prices modelId params)
    | .arr _ => .error ⟨.typeError, "unhashable type: 'list'"⟩
    | .obj _ => .error ⟨.typeError, "unhashable type: 'dict'"⟩
    | _ => .error ⟨.attributeError, "object has no attribute 'startswith'"⟩
  | _ => .error ⟨.attributeError, "object has no attribute 'get'"⟩

/-- What a round of the loop makes of an entry. -/
structure Round where
  entry : Json
  name : Json
  outcome : Outcome

/-- One round of the loop. -/
def syncEntry (prices : Prices) : Json → Except Exc Round
  | .obj fields => do
    let (params, outcome) ← syncParams prices ((Json.get? fields "litellm_params").getD (.obj []))
    return ⟨.obj (Json.insert fields "litellm_params" (.obj params)),
      (Json.get? fields "model_name").getD (.str "<unnamed>"), outcome⟩
  | _ => .error ⟨.attributeError, "object has no attribute 'get'"⟩

/-- The loop over the entries. -/
def syncEntries (prices : Prices) : List Json → SyncReport → Except Exc (List Json × SyncReport)
  | [], report => .ok ([], report)
  | entry :: rest, report => do
    let round ← syncEntry prices entry
    let (entries, report) ← syncEntries prices rest (report.record round.name round.outcome)
    return (round.entry :: entries, report)

/-- What the pass works on: the dictionary that it was given and its deep copy, which shares nothing with it. -/
structure Memory where
  config : Dict
  out : Dict

/-- `copy.deepcopy(config)`. -/
def deepcopy (config : Dict) : Memory := ⟨config, config⟩

/-- Write the entries back into the list that they are in. -/
def Memory.setEntries (memory : Memory) (entries : List Json) : Memory :=
  match Json.get? memory.out "model_list" with
  | some (.arr _) => { memory with out := Json.insert memory.out "model_list" (.arr entries) }
  | _ => memory

/-- `sync_prices(config, prices)`, not strict. -/
def syncPrices (prices : Prices) (config : Dict) : Except Exc (Memory × SyncReport) := do
  let memory := deepcopy config
  let entries ← ((Json.get? memory.out "model_list").getD (.arr [])).iterate
  let (entries, report) ← syncEntries prices entries ⟨[], [], [], []⟩
  return (memory.setEntries entries, report)

/-! ## What a pass is for -/

/-- `value[key]` of a mapping. -/
def entryField (value : Json) (key : String) : Option Json :=
  match value with
  | .obj fields => Json.get? fields key
  | _ => none

/-- A parameter of an entry. -/
def param? (entry : Json) (key : String) : Option Json := (entryField entry "litellm_params").bind (entryField · key)

/-- The name under which an entry is reported. -/
def entryName (entry : Json) : Json := (entryField entry "model_name").getD (.str "<unnamed>")

/-- The entries of a configuration. -/
def modelList (config : Dict) : List Json :=
  match Json.get? config "model_list" with
  | some (.arr entries) => entries
  | _ => []

/-- Every field of an entry but the two prices is the same, and it is there if it was. -/
def KeepsFields (entry entry' : Json) : Prop :=
  (∀ key, key ≠ "litellm_params" → entryField entry' key = entryField entry key) ∧
    (entryField entry' "litellm_params").isSome = (entryField entry "litellm_params").isSome ∧
    ∀ key ∉ priceKeys, param? entry' key = param? entry key

/-- The prices of an entry are the same. -/
def KeepsPrices (entry entry' : Json) : Prop := ∀ key ∈ priceKeys, param? entry' key = param? entry key

/-- The price map has valid prices for an entry. -/
def HasSource (prices : Prices) (entry inPrice outPrice : Json) : Prop :=
  ∃ modelId source, (param? entry "model").getD (.str "") = .str modelId ∧ prices.lookup modelId = some source ∧
    sourceInput source = inPrice ∧ sourceOutput source = outPrice ∧ validPrice inPrice = true ∧ validPrice outPrice = true

/-- What a round has to do with an entry. -/
structure Serves (prices : Prices) (entry : Json) (round : Round) : Prop where
  name : round.name = entryName entry
  fields : KeepsFields entry round.entry
  untouched : round.outcome = .invalid ∨ round.outcome = .unresolved → KeepsPrices entry round.entry
  priced : ∀ inPrice outPrice, HasSource prices entry inPrice outPrice →
    param? round.entry inputKey = some inPrice ∧ param? round.entry outputKey = some outPrice

/-- A report has the name of every entry in the one list of its outcome, in order. -/
def Reports (report : SyncReport) (rounds : List Round) : Prop :=
  ∀ outcome, report.names outcome = (rounds.filter fun round => round.outcome = outcome).map Round.name

/-- Another pass over the output updates nothing and finds the same entries invalid and unresolved. -/
def Settled (prices : Prices) (out : Dict) (report : SyncReport) : Prop :=
  ∃ memory again, syncPrices prices out = .ok (memory, again) ∧ again.updated = [] ∧ again.invalid = report.invalid ∧
    again.unresolved = report.unresolved

/-- What a pass has to do. -/
def SyncsFaithfully (prices : Prices) (config : Dict) : Prop :=
  ∃ memory report rounds, syncPrices prices config = .ok (memory, report) ∧ memory.config = config ∧
    (∀ key, key ≠ "model_list" → Json.get? memory.out key = Json.get? config key) ∧
    modelList memory.out = rounds.map Round.entry ∧ List.Forall₂ (Serves prices) (modelList config) rounds ∧
    Reports report rounds ∧ Settled prices memory.out report

/-- An entry is a mapping with parameters, whose model is a text if there is one. -/
def EntryShaped (entry : Json) : Prop :=
  ∃ fields params, entry = .obj fields ∧ Json.get? fields "litellm_params" = some (.obj params) ∧
    ∀ model, Json.get? params "model" = some model → ∃ modelId, model = .str modelId

/-- The models of a configuration, if it has any, are a list of such entries. -/
def Shaped (config : Dict) : Prop :=
  ∀ models, Json.get? config "model_list" = some models →
    ∃ entries, models.iterate = .ok entries ∧ ∀ entry ∈ entries, EntryShaped entry

/-! ## A model -/

section Models

variable {prices : Prices} {modelId : String} {params : Dict}

/-- A set default leaves the other fields alone. -/
theorem get?_setDefault {fields : Dict} {key other : String} {value : Json} (h : other ≠ key) :
    Json.get? (setDefault fields key value) other = Json.get? fields other := by
  rw [setDefault]
  split
  · rfl
  · rw [Json.get?_insert, if_neg h]

/-- The input price that is set. -/
theorem get?_setPrices_input {inPrice outPrice : Json} :
    Json.get? (setPrices params inPrice outPrice) inputKey = some inPrice := by
  rw [setPrices, Json.get?_insert, if_neg (by decide), Json.get?_insert, if_pos rfl]

/-- The output price that is set. -/
theorem get?_setPrices_output {inPrice outPrice : Json} :
    Json.get? (setPrices params inPrice outPrice) outputKey = some outPrice := by
  rw [setPrices, Json.get?_insert, if_pos rfl]

/-- The outcome of another pass over what a pass has made. -/
def Outcome.settled : Outcome → Outcome
  | .updated => .unchanged
  | outcome => outcome

/-- What a round does to the parameters of a model: it touches nothing and finds it invalid, unresolved or pinned; it
sets the prices of the source; or it sets the missing prices of a local model. -/
inductive Step (prices : Prices) (modelId : String) (params : Dict) : Dict × Outcome → Prop where
  | invalid {source : Dict} (hsource : prices.lookup modelId = some source)
      (hprices : (!validPrice (sourceInput source) || !validPrice (sourceOutput source)) = true) :
      Step prices modelId params (params, .invalid)
  | priced {source : Dict} (hsource : prices.lookup modelId = some source)
      (hprices : ¬(!validPrice (sourceInput source) || !validPrice (sourceOutput source)) = true) :
      Step prices modelId params (setPrices params (sourceInput source) (sourceOutput source),
        if differs params inputKey (sourceInput source) || differs params outputKey (sourceOutput source) then .updated
        else .unchanged)
  | isLocal (hsource : prices.lookup modelId = none) (hlocal : isLocal modelId = true) :
      Step prices modelId params (setDefault (setDefault params inputKey zeroPrice) outputKey zeroPrice, .unchanged)
  | cloud (hsource : prices.lookup modelId = none) (hcloud : ¬isLocal modelId = true) :
      Step prices modelId params (params, if isPinned params then .unchanged else .unresolved)

/-- A round takes one of these steps. -/
theorem syncModel_step (prices : Prices) (modelId : String) (params : Dict) :
    Step prices modelId params (syncModel prices modelId params) := by
  rw [syncModel]
  cases hsource : prices.lookup modelId with
  | some source =>
    dsimp only
    split
    · rename_i hprices
      exact .invalid hsource hprices
    · rename_i hprices
      exact .priced hsource hprices
  | none =>
    dsimp only
    split
    · rename_i hlocal
      exact .isLocal hsource hlocal
    · rename_i hcloud
      exact .cloud hsource hcloud

variable {result : Dict × Outcome}

/-- Nothing but the two prices is set. -/
theorem Step.other (h : Step prices modelId params result) {key : String} (hkey : key ∉ priceKeys) :
    Json.get? result.1 key = Json.get? params key := by
  have hinput : key ≠ inputKey := fun heq => hkey (heq ▸ List.mem_cons_self)
  have houtput : key ≠ outputKey := fun heq => hkey (heq ▸ List.mem_cons_of_mem _ List.mem_cons_self)
  cases h with
  | invalid _ _ => rfl
  | priced _ _ => rw [setPrices, Json.get?_insert, if_neg houtput, Json.get?_insert, if_neg hinput]
  | isLocal _ _ => rw [get?_setDefault houtput, get?_setDefault hinput]
  | cloud _ _ => rfl

/-- Where there is no valid price, none is set. -/
theorem Step.untouched (h : Step prices modelId params result) (houtcome : result.2 = .invalid ∨ result.2 = .unresolved) :
    result.1 = params := by
  cases h with
  | invalid _ _ => rfl
  | priced _ _ =>
    dsimp only at houtcome
    split at houtcome <;> simp at houtcome
  | isLocal _ _ => simp at houtcome
  | cloud _ _ => rfl

/-- Where there are valid prices, they are set. -/
theorem Step.set (h : Step prices modelId params result) {source : Dict} (hsource : prices.lookup modelId = some source)
    (hinput : validPrice (sourceInput source) = true) (houtput : validPrice (sourceOutput source) = true) :
    Json.get? result.1 inputKey = some (sourceInput source) ∧
      Json.get? result.1 outputKey = some (sourceOutput source) := by
  cases h with
  | invalid hother hprices =>
    cases hsource.symm.trans hother
    simp [hinput, houtput] at hprices
  | priced hother _ =>
    cases hsource.symm.trans hother
    exact ⟨get?_setPrices_input, get?_setPrices_output⟩
  | isLocal hother _ => cases hsource.symm.trans hother
  | cloud hother _ => cases hsource.symm.trans hother

/-- A valid price equals itself. -/
theorem equalsPrice_self {price : Json} (h : validPrice price = true) : equalsPrice price price = true := by
  cases price with
  | int n => simp [equalsPrice, numberValue?]
  | float x =>
    have hnan : x.double ≠ .nan := by
      intro hnan
      rw [validPrice, hnan] at h
      cases h
    simp [equalsPrice, numberValue?, hnan]
  | _ => cases h

/-- Another round for a model finds the prices that the first one has set. -/
theorem syncModel_again (prices : Prices) (modelId : String) (params : Dict) :
    (syncModel prices modelId (syncModel prices modelId params).1).2 = (syncModel prices modelId params).2.settled := by
  have hstep := syncModel_step prices modelId params
  generalize hresult : syncModel prices modelId params = result at hstep
  cases hstep with
  | invalid _ _ =>
    rw [hresult]
    rfl
  | @priced source hsource hprices =>
    have hvalid : validPrice (sourceInput source) = true ∧ validPrice (sourceOutput source) = true := by
      simpa using hprices
    have hsettled : ∀ p : Prop, [Decidable p] → (if p then Outcome.updated else .unchanged).settled = .unchanged := by
      intro p _
      split <;> rfl
    rw [hsettled]
    simp only [syncModel, hsource, if_neg hprices, differs, get?_setPrices_input, get?_setPrices_output, Option.getD_some,
      equalsPrice_self hvalid.1, equalsPrice_self hvalid.2]
    rfl
  | isLocal hsource hlocal => simp only [syncModel, hsource, if_pos hlocal, Outcome.settled]
  | cloud hsource hcloud =>
    rw [hresult]
    dsimp only
    split <;> rfl

end Models

/-! ## An entry -/

section Entries

variable {prices : Prices} {entry : Json} {round : Round}

/-- A round for a well-formed entry. -/
theorem syncEntry_obj {fields params : Dict} {modelId : String}
    (hparams : Json.get? fields "litellm_params" = some (.obj params))
    (hmodel : (Json.get? params "model").getD (.str "") = .str modelId) :
    syncEntry prices (.obj fields) = .ok ⟨.obj (Json.insert fields "litellm_params" (.obj (syncModel prices modelId params).1)),
      (Json.get? fields "model_name").getD (.str "<unnamed>"), (syncModel prices modelId params).2⟩ := by
  simp only [syncEntry, hparams, Option.getD_some, syncParams, hmodel]
  rfl

/-- The model of an entry of the right kind. -/
theorem EntryShaped.model (h : EntryShaped entry) :
    ∃ fields params modelId, entry = .obj fields ∧ Json.get? fields "litellm_params" = some (.obj params) ∧
      (Json.get? params "model").getD (.str "") = .str modelId := by
  obtain ⟨fields, params, hentry, hparams, hmodel⟩ := h
  refine ⟨fields, params, ?_⟩
  cases hget : Json.get? params "model" with
  | none => exact ⟨"", hentry, hparams, rfl⟩
  | some model =>
    obtain ⟨modelId, rfl⟩ := hmodel model hget
    exact ⟨modelId, hentry, hparams, rfl⟩

/-- A parameter of a mapping with parameters. -/
theorem param?_obj {fields params : Dict} (h : Json.get? fields "litellm_params" = some (.obj params)) (key : String) :
    param? (.obj fields) key = Json.get? params key := by
  simp only [param?, entryField, h, Option.bind_some]

/-- A round does what it has to with a well-formed entry. -/
theorem serves_of_syncEntry (hentry : EntryShaped entry) (h : syncEntry prices entry = .ok round) :
    Serves prices entry round := by
  obtain ⟨fields, params, modelId, rfl, hparams, hmodel⟩ := hentry.model
  rw [syncEntry_obj hparams hmodel] at h
  cases Except.ok.inj h
  have hstep := syncModel_step prices modelId params
  have hnew : Json.get? (Json.insert fields "litellm_params" (.obj (syncModel prices modelId params).1)) "litellm_params" =
      some (.obj (syncModel prices modelId params).1) := by
    rw [Json.get?_insert, if_pos rfl]
  constructor
  · rfl
  · refine ⟨?_, ?_, ?_⟩
    · intro key hkey
      simp only [entryField, Json.get?_insert, if_neg hkey]
    · simp only [entryField, hnew, hparams, Option.isSome_some]
    · intro key hkey
      rw [param?_obj hnew, param?_obj hparams, hstep.other hkey]
  · intro houtcome key _
    rw [param?_obj hnew, param?_obj hparams, hstep.untouched houtcome]
  · intro inPrice outPrice hprices
    obtain ⟨other, source, hother, hsource, rfl, rfl, hinput, houtput⟩ := hprices
    rw [param?_obj hparams, hmodel] at hother
    cases Json.str.inj hother
    rw [param?_obj hnew, param?_obj hnew]
    exact hstep.set hsource hinput houtput

/-- Another round finds what the first one has made. -/
theorem syncEntry_again (hentry : EntryShaped entry) (h : syncEntry prices entry = .ok round) :
    ∃ again, syncEntry prices round.entry = .ok again ∧ again.name = round.name ∧
      again.outcome = round.outcome.settled := by
  obtain ⟨fields, params, modelId, rfl, hparams, hmodel⟩ := hentry.model
  rw [syncEntry_obj hparams hmodel] at h
  cases Except.ok.inj h
  have hnew : Json.get? (Json.insert fields "litellm_params" (.obj (syncModel prices modelId params).1)) "litellm_params" =
      some (.obj (syncModel prices modelId params).1) := by
    rw [Json.get?_insert, if_pos rfl]
  have hsame : (Json.get? (syncModel prices modelId params).1 "model").getD (.str "") = .str modelId := by
    rw [(syncModel_step prices modelId params).other (by decide), hmodel]
  refine ⟨_, syncEntry_obj hnew hsame, ?_, syncModel_again prices modelId params⟩
  simp only [Json.get?_insert, if_neg (show "model_name" ≠ "litellm_params" by decide)]

/-- An entry that goes through a round is a mapping. -/
theorem obj_of_syncEntry (h : syncEntry prices entry = .ok round) : ∃ fields, entry = .obj fields := by
  cases entry with
  | obj fields => exact ⟨fields, rfl⟩
  | _ => cases h

/-- An entry that goes through a round, and whose parameters are not made by it, is well formed. -/
theorem entryShaped_of_syncEntry (h : syncEntry prices entry = .ok round) (hkeeps : KeepsFields entry round.entry) :
    EntryShaped entry := by
  cases entry with
  | obj fields =>
    obtain ⟨⟨made, outcome⟩, hmade, hround⟩ := bind_eq_ok.mp h
    cases Except.ok.inj hround
    have hsome := hkeeps.2.1
    simp only [entryField, Json.get?_insert, if_true] at hsome
    cases hparams : Json.get? fields "litellm_params" with
    | none =>
      rw [hparams] at hsome
      cases hsome
    | some params =>
      rw [hparams, Option.getD_some] at hmade
      cases params with
      | obj params =>
        refine ⟨fields, params, rfl, hparams, ?_⟩
        intro model hmodel
        rw [syncParams, hmodel, Option.getD_some] at hmade
        cases model with
        | str modelId => exact ⟨modelId, rfl⟩
        | _ => cases hmade
      | _ => cases hmade
  | _ => cases h

end Entries

/-! ## A pass -/

section Passes

variable {prices : Prices} {entries entries' : List Json} {report report' : SyncReport} {rounds : List Round}

/-- The loop makes a round for every entry and reports it. -/
theorem syncEntries_eq_ok_iff :
    syncEntries prices entries report = .ok (entries', report') ↔
      ∃ rounds, List.Forall₂ (fun entry round => syncEntry prices entry = .ok round) entries rounds ∧
        entries' = rounds.map Round.entry ∧
        report' = rounds.foldl (fun report round => report.record round.name round.outcome) report := by
  induction entries generalizing entries' report with
  | nil =>
    constructor
    · intro h
      cases Except.ok.inj h
      exact ⟨[], .nil, rfl, rfl⟩
    · rintro ⟨rounds, hrounds, rfl, rfl⟩
      cases hrounds
      rfl
  | cons entry rest ih =>
    constructor
    · intro h
      obtain ⟨round, hround, h⟩ := bind_eq_ok.mp h
      obtain ⟨⟨others, final⟩, hrest, h⟩ := bind_eq_ok.mp h
      cases Except.ok.inj h
      obtain ⟨rounds, hrounds, rfl, rfl⟩ := ih.mp hrest
      exact ⟨round :: rounds, .cons hround hrounds, rfl, rfl⟩
    · rintro ⟨rounds, hrounds, rfl, rfl⟩
      cases hrounds with
      | cons hround hrest =>
        exact bind_eq_ok.mpr ⟨_, hround, bind_eq_ok.mpr ⟨_, ih.mpr ⟨_, hrest, rfl, rfl⟩, rfl⟩⟩

/-- A recorded name is the last one of its list. -/
theorem names_record (report : SyncReport) (name : Json) (outcome other : Outcome) :
    (report.record name outcome).names other = report.names other ++ if outcome = other then [name] else [] := by
  cases outcome <;> cases other <;> simp [SyncReport.record, SyncReport.names]

/-- The names that a loop has reported. -/
theorem names_foldl (rounds : List Round) (report : SyncReport) (outcome : Outcome) :
    (rounds.foldl (fun report round => report.record round.name round.outcome) report).names outcome =
      report.names outcome ++ (rounds.filter fun round => round.outcome = outcome).map Round.name := by
  induction rounds generalizing report with
  | nil => simp
  | cons round rest ih =>
    rw [List.foldl_cons, ih, names_record, List.append_assoc, List.filter_cons]
    by_cases houtcome : round.outcome = outcome <;> simp [houtcome]

variable {config : Dict} {memory : Memory}

/-- `config.get("model_list", [])`. -/
def models (config : Dict) : Json := (Json.get? config "model_list").getD (.arr [])

/-- A pass goes through the models and writes their entries back. -/
theorem syncPrices_eq_ok_iff :
    syncPrices prices config = .ok (memory, report) ↔
      ∃ entries rounds, (models config).iterate = .ok entries ∧
        List.Forall₂ (fun entry round => syncEntry prices entry = .ok round) entries rounds ∧
        memory = (deepcopy config).setEntries (rounds.map Round.entry) ∧
        report = rounds.foldl (fun report round => report.record round.name round.outcome) ⟨[], [], [], []⟩ := by
  constructor
  · intro h
    obtain ⟨entries, hentries, h⟩ := bind_eq_ok.mp h
    obtain ⟨⟨others, final⟩, hloop, h⟩ := bind_eq_ok.mp h
    cases Except.ok.inj h
    obtain ⟨rounds, hrounds, rfl, rfl⟩ := syncEntries_eq_ok_iff.mp hloop
    exact ⟨entries, rounds, hentries, hrounds, rfl, rfl⟩
  · rintro ⟨entries, rounds, hentries, hrounds, rfl, rfl⟩
    exact bind_eq_ok.mpr ⟨entries, hentries,
      bind_eq_ok.mpr ⟨_, syncEntries_eq_ok_iff.mpr ⟨rounds, hrounds, rfl, rfl⟩, rfl⟩⟩

/-- Models that are mappings are those of a list; there are none otherwise. -/
theorem models_cases (hentries : (models config).iterate = .ok entries)
    (hobj : ∀ entry ∈ entries, ∃ fields, entry = .obj fields) :
    (∃ listed, Json.get? config "model_list" = some (.arr listed) ∧ entries = listed) ∨
      entries = [] ∧ ∀ listed, Json.get? config "model_list" ≠ some (.arr listed) := by
  have htexts : ∀ texts : List String, entries = texts.map Json.str → entries = [] := by
    intro texts heq
    cases texts with
    | nil => exact heq
    | cons text rest =>
      obtain ⟨fields, hfields⟩ := hobj (.str text) (by rw [heq]; exact List.mem_cons_self)
      cases hfields
  cases hget : Json.get? config "model_list" with
  | none =>
    rw [models, hget] at hentries
    cases Except.ok.inj hentries
    exact .inr ⟨rfl, fun _ => by simp⟩
  | some models =>
    rw [Gateway.models, hget, Option.getD_some] at hentries
    cases models with
    | arr listed =>
      cases Except.ok.inj hentries
      exact .inl ⟨_, rfl, rfl⟩
    | str text =>
      refine .inr ⟨htexts (text.toList.map String.singleton) ?_, fun _ => by simp⟩
      rw [List.map_map]
      exact (Except.ok.inj hentries).symm
    | obj fields =>
      refine .inr ⟨htexts (fields.map Prod.fst) ?_, fun _ => by simp⟩
      rw [List.map_map]
      exact (Except.ok.inj hentries).symm
    | _ => cases hentries

/-- The entries of a configuration whose models are mappings. -/
theorem modelList_eq (hentries : (models config).iterate = .ok entries)
    (hobj : ∀ entry ∈ entries, ∃ fields, entry = .obj fields) : modelList config = entries := by
  rcases models_cases hentries hobj with ⟨listed, hget, rfl⟩ | ⟨rfl, hget⟩
  · rw [modelList, hget]
  · rw [modelList]
    split
    · rename_i listed hlisted
      exact absurd hlisted (hget listed)
    · rfl

/-- The entries that are written back are those of the output, and the rest of it is that of the configuration. -/
theorem setEntries_out (hentries : (models config).iterate = .ok entries)
    (hobj : ∀ entry ∈ entries, ∃ fields, entry = .obj fields) (hlength : entries'.length = entries.length) :
    (models ((deepcopy config).setEntries entries').out).iterate = .ok entries' ∧
      modelList ((deepcopy config).setEntries entries').out = entries' ∧
      ∀ key, key ≠ "model_list" → Json.get? ((deepcopy config).setEntries entries').out key = Json.get? config key := by
  rcases models_cases hentries hobj with ⟨listed, hget, rfl⟩ | ⟨rfl, hget⟩
  · have hset : (deepcopy config).setEntries entries' = ⟨config, Json.insert config "model_list" (.arr entries')⟩ := by
      simp only [Memory.setEntries, deepcopy, hget]
    rw [hset]
    refine ⟨?_, ?_, ?_⟩
    · simp [models, Json.get?_insert, Json.iterate]
    · simp [modelList, Json.get?_insert]
    · intro key hkey
      rw [Json.get?_insert, if_neg hkey]
  · have hset : (deepcopy config).setEntries entries' = deepcopy config := by
      rw [Memory.setEntries]
      split
      · rename_i listed hlisted
        exact absurd hlisted (hget listed)
      · rfl
    have hnil : entries' = [] := List.length_eq_zero_iff.mp hlength
    rw [hset, hnil]
    exact ⟨hentries, modelList_eq hentries hobj, fun _ _ => rfl⟩

/-- Rounds that find what others have made are reported as settled. -/
theorem map_name_filter_settled {again : List Round}
    (h : List.Forall₂ (fun round next => next.name = round.name ∧ next.outcome = round.outcome.settled) rounds again)
    (outcome : Outcome) : (again.filter fun round => round.outcome = outcome).map Round.name =
      (rounds.filter fun round => round.outcome.settled = outcome).map Round.name := by
  induction h with
  | nil => rfl
  | cons hnext _ ih =>
    rw [List.filter_cons, List.filter_cons, hnext.2]
    split <;> simp [ih, hnext.1]

/-- The rounds of another pass. -/
theorem exists_again (hshaped : ∀ entry ∈ entries, EntryShaped entry)
    (hrounds : List.Forall₂ (fun entry round => syncEntry prices entry = .ok round) entries rounds) :
    ∃ again, List.Forall₂ (fun round next => syncEntry prices round.entry = .ok next) rounds again ∧
      List.Forall₂ (fun round next => next.name = round.name ∧ next.outcome = round.outcome.settled) rounds again := by
  induction hrounds with
  | nil => exact ⟨[], .nil, .nil⟩
  | cons hround _ ih =>
    rw [List.forall_mem_cons] at hshaped
    obtain ⟨next, hnext, hsettled⟩ := syncEntry_again hshaped.1 hround
    obtain ⟨again, hagain, hall⟩ := ih hshaped.2
    exact ⟨next :: again, .cons hnext hagain, .cons hsettled hall⟩

/-- What the rounds of a pass are reported as. -/
theorem reports_foldl (rounds : List Round) :
    Reports (rounds.foldl (fun report round => report.record round.name round.outcome) ⟨[], [], [], []⟩) rounds := by
  intro outcome
  rw [names_foldl]
  cases outcome <;> rfl

/-- Entries with a form are mappings. -/
theorem obj_of_shaped (hshaped : ∀ entry ∈ entries, EntryShaped entry) : ∀ entry ∈ entries, ∃ fields, entry = .obj fields := by
  intro entry hentry
  obtain ⟨fields, _, hfields, -⟩ := hshaped entry hentry
  exact ⟨fields, hfields⟩

/-- A pass over the output of a pass finds everything settled. -/
theorem settled_of_rounds (hentries : (models config).iterate = .ok entries) (hshaped : ∀ entry ∈ entries, EntryShaped entry)
    (hrounds : List.Forall₂ (fun entry round => syncEntry prices entry = .ok round) entries rounds)
    (hreport : Reports report rounds) :
    Settled prices ((deepcopy config).setEntries (rounds.map Round.entry)).out report := by
  have hlength : (rounds.map Round.entry).length = entries.length := by
    rw [List.length_map, hrounds.length_eq]
  obtain ⟨again, hagain, hsettled⟩ := exists_again hshaped hrounds
  have hout := (setEntries_out hentries (obj_of_shaped hshaped) hlength).1
  have hnames (outcome : Outcome) : (again.filter fun round => round.outcome = outcome).map Round.name =
      (rounds.filter fun round => round.outcome.settled = outcome).map Round.name :=
    map_name_filter_settled hsettled outcome
  have hkept (outcome : Outcome) (h : ∀ other : Outcome, other.settled = outcome ↔ other = outcome) :
      (again.filter fun round => round.outcome = outcome).map Round.name = report.names outcome := by
    rw [hnames, hreport outcome]
    simp only [h]
  refine ⟨_, _, syncPrices_eq_ok_iff.mpr ⟨_, again, hout, List.forall₂_map_left_iff.mpr hagain, rfl, rfl⟩, ?_, ?_, ?_⟩
  · have hupdated := reports_foldl again .updated
    rw [hnames] at hupdated
    refine hupdated.trans ?_
    rw [List.filter_eq_nil_iff.mpr, List.map_nil]
    intro round _
    cases round.outcome <;> decide
  · exact (reports_foldl again .invalid).trans (hkept .invalid fun other => by cases other <;> decide)
  · exact (reports_foldl again .unresolved).trans (hkept .unresolved fun other => by cases other <;> decide)

/-- The entries of a configuration that has them in the right form. -/
theorem exists_entries (h : Shaped config) :
    ∃ entries, (models config).iterate = .ok entries ∧ ∀ entry ∈ entries, EntryShaped entry := by
  cases hget : Json.get? config "model_list" with
  | none => exact ⟨[], by rw [models, hget]; rfl, List.forall_mem_nil _⟩
  | some listed =>
    rw [models, hget]
    exact h listed hget

/-- A configuration whose pass is faithful has its entries in the right form. -/
theorem shaped_of_syncsFaithfully (h : SyncsFaithfully prices config) : Shaped config := by
  obtain ⟨memory, report, rounds, hsync, -, -, hout, hserves, -, -⟩ := h
  intro listed hlisted
  obtain ⟨entries, made, hentries, hmade, rfl, -⟩ := syncPrices_eq_ok_iff.mp hsync
  have hobj : ∀ entry ∈ entries, ∃ fields, entry = .obj fields := by
    intro entry hentry
    obtain ⟨round, -, hround⟩ := exists_of_forall₂ hmade.flip hentry
    exact obj_of_syncEntry hround
  have hlength : (made.map Round.entry).length = entries.length := by
    rw [List.length_map, hmade.length_eq]
  rw [(setEntries_out hentries hobj hlength).2.1] at hout
  rw [modelList_eq hentries hobj] at hserves
  -- The two lists of rounds have the same entries, so what is kept in one is kept in the other.
  have hkeeps : List.Forall₂ KeepsFields entries (made.map Round.entry) := by
    rw [hout, List.forall₂_map_right_iff]
    exact hserves.imp fun _ _ h => h.fields
  have hshaped : List.Forall₂ (fun entry _ => EntryShaped entry) entries made :=
    List.Forall₂.mp (fun _ _ h hkeeps => entryShaped_of_syncEntry h hkeeps) hmade (List.forall₂_map_right_iff.mp hkeeps)
  rw [models, hlisted, Option.getD_some] at hentries
  refine ⟨entries, hentries, ?_⟩
  intro entry hentry
  obtain ⟨_, -, hentry⟩ := exists_of_forall₂ hshaped.flip hentry
  exact hentry

/-- A pass syncs faithfully exactly when the models of the configuration, if it has any, are a list of entries with
parameters whose model, if it is there, is a text. -/
theorem syncsFaithfully_iff (prices : Prices) (config : Dict) : SyncsFaithfully prices config ↔ Shaped config := by
  constructor
  · exact shaped_of_syncsFaithfully
  · intro h
    obtain ⟨entries, hentries, hshaped⟩ := exists_entries h
    have hrun : ∀ entry ∈ entries, ∃ round, syncEntry prices entry = .ok round := by
      intro entry hentry
      obtain ⟨fields, params, modelId, rfl, hparams, hmodel⟩ := (hshaped entry hentry).model
      exact ⟨_, syncEntry_obj hparams hmodel⟩
    obtain ⟨rounds, hrounds⟩ := mapM_ok (syncEntry prices) entries hrun
    have hrounds := forall₂_of_mapM hrounds
    have hlength : (rounds.map Round.entry).length = entries.length := by
      rw [List.length_map, hrounds.length_eq]
    obtain ⟨-, hout, hkept⟩ := setEntries_out hentries (obj_of_shaped hshaped) hlength
    refine ⟨_, _, rounds, syncPrices_eq_ok_iff.mpr ⟨entries, rounds, hentries, hrounds, rfl, rfl⟩, ?_, hkept, hout, ?_,
      reports_foldl rounds, settled_of_rounds hentries hshaped hrounds (reports_foldl rounds)⟩
    · rw [Memory.setEntries]
      split <;> rfl
    · rw [modelList_eq hentries (obj_of_shaped hshaped)]
      have hboth := (List.forall₂_and_left entries rounds).mpr ⟨hshaped, hrounds⟩
      exact hboth.imp fun _ _ h => serves_of_syncEntry h.1 h.2

end Passes

/-- An entry with nothing but a name. -/
def bareConfig : Dict := [("model_list", .arr [.obj [("model_name", .str "reasoning")]])]

/-- It is given empty parameters. -/
theorem bareConfig_unfaithful : ¬SyncsFaithfully [] bareConfig := by
  intro h
  obtain ⟨entries, hentries, hshaped⟩ := shaped_of_syncsFaithfully h _ rfl
  cases Except.ok.inj hentries
  obtain ⟨fields, params, hfields, hparams, -⟩ := hshaped _ List.mem_cons_self
  cases Json.obj.inj hfields
  simp [Json.get?] at hparams

/-- A price that the map knows is set, and what another field says is kept. -/
example : (syncModel [("openai/gpt-4o", [(inputKey, .int 2), (outputKey, .int 8)])] "openai/gpt-4o"
    [("model", .str "openai/gpt-4o"), (inputKey, .int 1)]).1 =
    [("model", .str "openai/gpt-4o"), (inputKey, .int 2), (outputKey, .int 8)] := by
  rfl

end FleetWorkflow.Gateway
