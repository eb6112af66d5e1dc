import FleetWorkflow.Async.Runs
import FleetWorkflow.Llm.Client

/-!
# Cleared calls

Whatever the budget checker, the proxy, the consumer of a stream and the ledger reply, only a model
that is cleared for the content of a call gets to see it. A call that no model is cleared for ends
before it has any effect, and one over its budget ends with the check of the budget.
-/

namespace FleetWorkflow.Llm

open Python Async

/-- The entry points of the client. -/
inductive Entry where
  | reasoning (messages : List Json)
  | utility (messages : List Json)
  | reasoningStream (messages : List Json)
  | embeddings (input : List String)

/-- The role of the model that an entry point asks for. -/
def Entry.role : Entry → String
  | reasoning _ => "reasoning"
  | utility _ => "utility"
  | reasoningStream _ => "reasoning"
  | embeddings _ => "embeddings"

/-- What the entry points return. -/
inductive Answer where
  | completed (response : LlmResponse)
  | streamed
  | embedded (response : EmbeddingResponse)

/-- Call an entry point. -/
def LlmClient.perform (client : LlmClient) (sensitivity : Declared) (redacted : Bool) (callMeta : Dict) :
    Entry → Gateway Answer
  | .reasoning messages => do return .completed (← client.reasoning messages sensitivity redacted callMeta)
  | .utility messages => do return .completed (← client.utility messages sensitivity redacted callMeta)
  | .reasoningStream messages => do
    client.reasoningStream messages sensitivity redacted callMeta
    return .streamed
  | .embeddings input => do return .embedded (← client.embeddings input sensitivity redacted callMeta)

/-- An event of a run of the client. -/
abbrev LlmEvent := Event LlmCall LlmCall.Reply Raised

namespace LlmCall

/-- The model that a request to the proxy names. -/
def sentTo : LlmCall → Option String
  | complete model _ _ => some model
  | embed model _ _ => some model
  | streamComplete model _ _ => some model
  | _ => none

/-- The calls of a budget check. -/
def OfBudget : LlmCall → Prop
  | checkBudget _ => True
  | countSoftLimit _ => True
  | _ => False

/-- The calls after a budget check, with one model for the proxy. -/
def OfService (name : String) : LlmCall → Prop
  | checkBudget _ => False
  | countSoftLimit _ => False
  | call => ∀ model, call.sentTo = some model → model = name

end LlmCall

/-- The budget checker answers with a hard stop. -/
def isHardStop : LlmEvent → Prop
  | ⟨.checkBudget _, .ok status⟩ => status.hardExceeded = true
  | _ => False

/-- The sensitivity that a model has to cover: only redacted confidential content counts for less. -/
def required (level : Sensitivity) (redacted : Bool) : Sensitivity :=
  if redacted = true ∧ level = .confidential then .internal else level

/-- Content that is personal data is never taken for anything less. -/
theorem required_pii (redacted : Bool) : required .pii redacted = .pii := by simp [required]

variable {client : LlmClient} {sensitivity : Declared} {redacted : Bool} {callMeta : Dict}

/-! ## The parts of a call -/

/-- A budget check makes the calls of a budget check. -/
theorem only_checkBudget : (client.checkBudget callMeta).Only LlmCall.OfBudget := by
  rw [LlmClient.checkBudget]
  split
  · apply (Prog.only_call trivial).bind
    intro budget
    split
    · apply (Prog.only_call trivial).bind
      intro _
      exact (Prog.only_ofExcept _).bind fun _ => Prog.only_pure _
    · exact (Prog.only_ofExcept _).bind fun _ => Prog.only_pure _
  · exact Prog.only_pure _

/-- A budget check that lets a call go on has not met a hard stop. -/
theorem not_isHardStop_of_runs {events : List LlmEvent} {budget : Option BudgetStatus}
    (h : (client.checkBudget callMeta).Runs events (.ok budget)) : ∀ event ∈ events, ¬ isHardStop event := by
  rw [LlmClient.checkBudget] at h
  split at h
  · obtain ⟨_, _, hnever⟩ | ⟨status, rest, rfl, hrest⟩ := Prog.runs_call_bind.mp h
    · cases hnever
    · have hallowed : ∀ events, (Prog.ofExcept status.raiseIfExceeded >>= fun _ =>
          (pure (some status) : Gateway (Option BudgetStatus))).Runs events (.ok budget) →
          events = [] ∧ ¬ status.hardExceeded = true := by
        intro events hraise
        rcases Prog.runs_ofExcept_bind.mp hraise with ⟨_, _, _, hnever⟩ | ⟨_, hok, hdone⟩
        · cases hnever
        · refine ⟨(Prog.runs_done.mp hdone).1, ?_⟩
          intro hhard
          rw [BudgetStatus.raiseIfExceeded, if_pos hhard] at hok
          cases hok
      split at hrest
      · rcases Prog.runs_call_bind.mp hrest with ⟨_, _, hnever⟩ | ⟨_, rest', rfl, hrest'⟩
        · cases hnever
        · obtain ⟨rfl, hhard⟩ := hallowed rest' hrest'
          simpa [isHardStop] using hhard
      · obtain ⟨rfl, hhard⟩ := hallowed rest hrest
        simpa [isHardStop] using hhard
  · obtain ⟨rfl, _⟩ := Prog.runs_done.mp h
    simp

/-- A call selects its model, has its budget checked and only then goes on. -/
theorem runs_selected {α : Type} {selected : Except Raised ModelRow}
    {next : ModelRow → Option BudgetStatus → Gateway α} {events : List LlmEvent} {result : Except Raised α}
    (h : (Prog.ofExcept selected >>= fun model =>
      client.checkBudget callMeta >>= fun budget => next model budget).Runs events result) :
    (∃ error, selected = .error error ∧ events = [] ∧ result = .error error) ∨
      ∃ model, selected = .ok model ∧
        ((∃ error, (client.checkBudget callMeta).Runs events (.error error) ∧ result = .error error) ∨
          ∃ before after budget, events = before ++ after ∧ (client.checkBudget callMeta).Runs before (.ok budget) ∧
            (next model budget).Runs after result) := by
  rcases Prog.runs_ofExcept_bind.mp h with herror | ⟨model, hmodel, hnext⟩
  · exact .inl herror
  · exact .inr ⟨model, hmodel, Prog.runs_bind.mp hnext⟩

/-- The events of a call of one role: none when it is refused, those of the budget check when that ends it, and
else those of the budget check and then those of the service by the selected model. -/
def Cleared (client : LlmClient) (role : String) (sensitivity : Declared) (redacted : Bool)
    (events : List LlmEvent) (failed : Raised → Prop) : Prop :=
  (∃ error, selectModel client.texts client.models role sensitivity redacted = .error error ∧
      events = [] ∧ failed error) ∨
    ∃ model, selectModel client.texts client.models role sensitivity redacted = .ok model ∧
      ((∀ event ∈ events, event.call.OfBudget) ∨
        (∀ event ∈ events, ¬ isHardStop event) ∧
          ∀ event ∈ events, event.call.OfBudget ∨ event.call.OfService model.name)

/-- A call whose service keeps to the selected model. -/
theorem cleared_of_runs {α : Type} {role : String} {next : ModelRow → Option BudgetStatus → Gateway α}
    {events : List LlmEvent} {result : Except Raised α}
    (hnext : ∀ model budget, (next model budget).Only (LlmCall.OfService model.name))
    (h : (Prog.ofExcept (selectModel client.texts client.models role sensitivity redacted) >>= fun model =>
      client.checkBudget callMeta >>= fun budget => next model budget).Runs events result) :
    Cleared client role sensitivity redacted events fun error => result = .error error := by
  rcases runs_selected h with ⟨error, hselect, rfl, rfl⟩ | ⟨model, hselect, hrest⟩
  · exact .inl ⟨error, hselect, rfl, rfl⟩
  · refine .inr ⟨model, hselect, ?_⟩
    rcases hrest with ⟨error, hcheck, -⟩ | ⟨before, after, budget, rfl, hcheck, hafter⟩
    · exact .inl (only_checkBudget.runs hcheck)
    · have hservice := (hnext model budget).runs hafter
      refine .inr ⟨?_, ?_⟩
      · intro event hevent
        rcases List.mem_append.mp hevent with hbefore | hafter
        · exact not_isHardStop_of_runs hcheck event hbefore
        · have hcall := hservice event hafter
          obtain ⟨call, reply⟩ := event
          cases call with
          | checkBudget _ => exact hcall.elim
          | _ => exact id
      · intro event hevent
        rcases List.mem_append.mp hevent with hbefore | hafter
        · exact .inl (only_checkBudget.runs hcheck event hbefore)
        · exact .inr (hservice event hafter)

/-! ## The entry points -/

/-- A call whose keywords are not duplicated is sent to one model. -/
theorem only_send {call : LlmCall} {name : String} {keywords : List String} {f : Raised → Raised}
    (h : call.OfService name) :
    ((Prog.ofExcept (LlmClient.duplicated keywords callMeta) >>= fun _ => awaitLlm call).mapError f).Only
      (LlmCall.OfService name) :=
  ((Prog.only_ofExcept _).bind fun _ => Prog.only_call h).mapError

/-- Reading a stream sends nothing to another model. -/
theorem only_consume (name : String) (chunks : ℕ) (heard : Json × Dict) :
    (LlmClient.consume chunks heard).Only (LlmCall.OfService name) := by
  induction chunks generalizing heard with
  | zero => exact Prog.only_pure _
  | succ chunks ih =>
    rw [LlmClient.consume]
    apply (Prog.only_call (by simp [LlmCall.OfService, LlmCall.sentTo])).bind
    intro chunk
    dsimp only
    split
    · exact (Prog.only_call (by simp [LlmCall.OfService, LlmCall.sentTo])).bind fun _ => ih _
    · exact ih _

/-- Metering a call sends nothing to a model. -/
theorem ofService_record (row : SpendRow) (name : String) : (LlmCall.record row).OfService name := by
  simp [LlmCall.OfService, LlmCall.sentTo]

/-- A completion. -/
theorem cleared_call {role : String} {messages : List Json} {events : List LlmEvent}
    {result : Except Raised LlmResponse}
    (h : (client.call role messages sensitivity redacted callMeta).Runs events result) :
    Cleared client role sensitivity redacted events fun error => result = .error error := by
  refine cleared_of_runs (fun model budget => ?_) h
  apply (only_send (by simp [LlmCall.OfService, LlmCall.sentTo])).bind
  intro body
  apply (Prog.only_ofExcept _).bind
  intro usage
  apply (Prog.only_call (ofService_record _ _)).bind
  intro _
  exact (Prog.only_ofExcept _).bind fun _ => Prog.only_pure _

/-- A streamed completion. -/
theorem cleared_reasoningStream {messages : List Json} {events : List LlmEvent} {result : Except Raised Unit}
    (h : (client.reasoningStream messages sensitivity redacted callMeta).Runs events result) :
    Cleared client "reasoning" sensitivity redacted events fun error => result = .error error := by
  refine cleared_of_runs (fun model budget => ?_) h
  apply (only_send (by simp [LlmCall.OfService, LlmCall.sentTo])).bind
  intro chunks
  apply (only_consume _ _ _).mapError.bind
  intro heard
  apply (Prog.only_ofExcept _).bind
  intro usage
  exact Prog.only_call (ofService_record _ _)

/-- An embedding. -/
theorem cleared_embeddings {input : List String} {events : List LlmEvent} {result : Except Raised EmbeddingResponse}
    (h : (client.embeddings input sensitivity redacted callMeta).Runs events result) :
    Cleared client "embeddings" sensitivity redacted events fun error => result = .error error := by
  refine cleared_of_runs (fun model budget => ?_) h
  apply (only_send (by simp [LlmCall.OfService, LlmCall.sentTo])).bind
  intro body
  apply (Prog.only_ofExcept _).bind
  intro usage
  apply (Prog.only_call (ofService_record _ _)).bind
  intro _
  exact (Prog.only_ofExcept _).bind fun _ => Prog.only_pure _

/-- Returning an answer adds no event, and an exception stays what it is. -/
theorem runs_answer {α : Type} {p : Gateway α} {f : α → Answer} {events : List LlmEvent}
    {result : Except Raised Answer} (h : (p >>= fun value => pure (f value)).Runs events result) :
    ∃ inner, p.Runs events inner ∧ ∀ error, inner = .error error → result = .error error := by
  rcases Prog.runs_bind.mp h with ⟨error, hp, rfl⟩ | ⟨before, after, value, rfl, hp, hdone⟩
  · refine ⟨.error error, hp, ?_⟩
    intro other hother
    cases hother
    rfl
  · obtain ⟨rfl, rfl⟩ := Prog.runs_done.mp hdone
    rw [List.append_nil]
    exact ⟨.ok value, hp, fun _ hnever => by cases hnever⟩

/-- An exception that fails the part of a call fails the call. -/
theorem Cleared.mono {role : String} {events : List LlmEvent} {failed failed' : Raised → Prop}
    (h : Cleared client role sensitivity redacted events failed) (hfailed : ∀ error, failed error → failed' error) :
    Cleared client role sensitivity redacted events failed' := by
  rcases h with ⟨error, hselect, hevents, herror⟩ | hserved
  · exact .inl ⟨error, hselect, hevents, hfailed error herror⟩
  · exact .inr hserved

/-- Every entry point. -/
theorem cleared_perform {entry : Entry} {events : List LlmEvent} {result : Except Raised Answer}
    (h : (client.perform sensitivity redacted callMeta entry).Runs events result) :
    Cleared client entry.role sensitivity redacted events fun error => result = .error error := by
  cases entry with
  | reasoning messages =>
    obtain ⟨inner, hinner, herror⟩ := runs_answer h
    exact (cleared_call hinner).mono herror
  | utility messages =>
    obtain ⟨inner, hinner, herror⟩ := runs_answer h
    exact (cleared_call hinner).mono herror
  | reasoningStream messages =>
    have h' : (client.reasoningStream messages sensitivity redacted callMeta >>= fun value =>
        pure ((fun _ => Answer.streamed) value)).Runs events result := h
    obtain ⟨inner, hinner, herror⟩ := runs_answer h'
    exact (cleared_reasoningStream hinner).mono herror
  | embeddings input =>
    obtain ⟨inner, hinner, herror⟩ := runs_answer h
    exact (cleared_embeddings hinner).mono herror

/-- A sensitivity that cannot be parsed selects nothing. -/
theorem selectModel_eq_error (models : List ModelRow) {texts : GatewayTexts} (role : String) (redacted : Bool) {error : Raised}
    (h : Sensitivity.parse texts sensitivity = .error error) :
    selectModel texts models role sensitivity redacted = .error error := by
  simp only [selectModel, effectiveSensitivity, List.mapM_cons, h]
  rfl

/-- A reasoning model of the cloud lane and one of the local lane. -/
def twoLanes : LlmClient where
  models := [⟨"reasoning-cloud", "cloud", "cloud/large", "internal", 3, 15, some (3 / 10), "reasoning"⟩,
    ⟨"reasoning-local", "local", "local/14b", "pii", 0, 0, none, "reasoning"⟩]
  hasBudgetChecker := false
  texts :=
    { py := ⟨fun _ => "", id, fun _ => .error ⟨.typeError, ""⟩, fun _ => .error ⟨.typeError, ""⟩⟩
      upper := fun s => if s = "pii" then "PII" else if s = "internal" then "INTERNAL" else s
      str := fun _ => "" }

/-- The clearances of the two lanes are valid. -/
theorem twoLanes_valid : ∀ model ∈ twoLanes.models, ∃ cleared, clearance twoLanes.texts model = .ok cleared := by
  intro model hmodel
  simp only [twoLanes, List.mem_cons, List.not_mem_nil, or_false] at hmodel
  rcases hmodel with rfl | rfl
  · exact ⟨.internal, rfl⟩
  · exact ⟨.pii, rfl⟩

/-- The proxy sees a call only under the name of a model of the asked role with the least clearance that covers
the content; without such a model nothing happens but the refusal, and a hard stop ends the call at the budget
check. -/
theorem perform_cleared {entry : Entry} {events : List LlmEvent} {result : Except Raised Answer}
    (hvalid : ∀ model ∈ client.models, ∃ cleared, clearance client.texts model = .ok cleared)
    (h : (client.perform sensitivity redacted callMeta entry).Runs events result) :
    (∀ error, Sensitivity.parse client.texts sensitivity = .error error → events = [] ∧ result = .error error) ∧
      ∀ level, Sensitivity.parse client.texts sensitivity = .ok level →
        (∀ event ∈ events, ∀ name, event.call.sentTo = some name →
          ∃ model, LeastCovering client.texts client.models entry.role (required level redacted) model ∧
            model.name = name) ∧
        ((∀ model ∈ client.models, ¬ Covers client.texts entry.role (required level redacted) model) →
          events = [] ∧ ∃ message, result = .error (.refusal message)) ∧
        ((∃ event ∈ events, isHardStop event) → ∀ event ∈ events, event.call.OfBudget) := by
  have hcleared := cleared_perform h
  refine ⟨?_, ?_⟩
  · intro error hparse
    have hselect := selectModel_eq_error client.models entry.role redacted hparse
    rcases hcleared with ⟨error', hselect', rfl, hresult⟩ | ⟨model, hselect', -⟩
    · rw [hselect] at hselect'
      cases hselect'
      exact ⟨rfl, hresult⟩
    · rw [hselect] at hselect'
      cases hselect'
  · intro level hlevel
    have hrequired : effectiveLevel [level] redacted = required level redacted := effectiveLevel_singleton level redacted
    have hspec := selectModel_spec entry.role redacted hvalid hlevel
    rw [hrequired] at hspec
    rcases hspec with ⟨model, hselect, hleast⟩ | ⟨⟨message, hselect⟩, hnone⟩
    · rcases hcleared with ⟨error, hselect', -, -⟩ | ⟨model', hselect', hevents⟩
      · rw [hselect] at hselect'
        cases hselect'
      · rw [hselect] at hselect'
        cases hselect'
        refine ⟨?_, fun hnone => absurd hleast.2.1 (hnone model hleast.1), ?_⟩
        · intro event hevent name hsent
          refine ⟨model, hleast, ?_⟩
          have hcall : event.call.OfBudget ∨ event.call.OfService model.name :=
            hevents.elim (fun hbudget => .inl (hbudget event hevent)) fun hserved => hserved.2 event hevent
          obtain ⟨call, reply⟩ := event
          cases call <;> simp_all [LlmCall.sentTo, LlmCall.OfBudget, LlmCall.OfService]
        · rintro ⟨event, hevent, hhard⟩
          rcases hevents with hbudget | ⟨hnone, -⟩
          · exact hbudget
          · exact absurd hhard (hnone event hevent)
    · rcases hcleared with ⟨error, hselect', rfl, hresult⟩ | ⟨model, hselect', -⟩
      · rw [hselect] at hselect'
        cases hselect'
        refine ⟨fun event hevent => (by cases hevent), fun _ => ⟨rfl, message, hresult⟩, ?_⟩
        rintro ⟨event, hevent, -⟩
        cases hevent
      · rw [hselect] at hselect'
        cases hselect'

/-- Personal data goes to the local lane, also when it is marked redacted. -/
theorem twoLanes_cleared :
    let events : List LlmEvent := [⟨.complete "reasoning-local" [] [], .error (.gateway "down")⟩]
    (twoLanes.perform (.text "pii") true [] (.reasoning [])).Runs events (.error (.gateway "down")) ∧
      ∃ model, LeastCovering twoLanes.texts twoLanes.models "reasoning" .pii model ∧ model.name = "reasoning-local" := by
  intro events
  have hrun : (twoLanes.perform (.text "pii") true [] (.reasoning [])).Runs events (.error (.gateway "down")) :=
    .await (.raise _)
  refine ⟨hrun, ?_⟩
  have hcleared := (perform_cleared twoLanes_valid hrun).2 .pii rfl
  exact hcleared.1 _ List.mem_cons_self _ rfl

end FleetWorkflow.Llm
