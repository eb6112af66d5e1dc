import Mathlib.Tactic.NormNum
import FleetWorkflow.Llm.Clearance

/-!
# Metered calls

The proxy reports the usage of a call in the body of its reply, or in a chunk of its stream. A call
is metered when each report leads to one row of the spend ledger, and nothing else does. What a run
tells is read off its events, independently of how the client keeps it.
-/

namespace FleetWorkflow.Llm

open Python Async

/-- The reply of a call is a value. -/
def answered (event : LlmEvent) : Bool := event.reply.isOk

/-- The rows that the ledger has accepted. -/
def written (events : List LlmEvent) : List SpendRow :=
  events.filterMap fun
    | ⟨.record row, .ok _⟩ => some row
    | _ => none

/-- What one reply of the proxy adds to what it has told: the serving model and the last body with a usage block. -/
def tell (told : Json × Dict) : LlmEvent → Json × Dict
  | ⟨.complete _ _ _, .ok body⟩ => ((Json.get? body "model").getD told.1, body)
  | ⟨.embed _ _ _, .ok body⟩ => ((Json.get? body "model").getD told.1, body)
  | ⟨.nextChunk, .ok chunk⟩ => LlmClient.hear told chunk
  | _ => told

/-- What the proxy tells in a run, which asked for a model. -/
def told (model : ModelRow) (events : List LlmEvent) : Json × Dict := events.foldl tell (.str model.name, [])

/-- The proxy has answered: a body, a chunk, or the end of a stream without chunks. -/
def Reached : LlmEvent → Prop
  | ⟨.complete _ _ _, .ok _⟩ => True
  | ⟨.embed _ _ _, .ok _⟩ => True
  | ⟨.streamComplete _ _ _, .ok chunks⟩ => chunks = 0
  | ⟨.nextChunk, .ok _⟩ => True
  | _ => False

namespace LlmClient

variable (client : LlmClient)

/-- The proxy has reported the usage of a call. -/
def Reports (model : ModelRow) (events : List LlmEvent) (usage : Usage) : Prop :=
  Json.flag (told model events).2 "usage" = true ∧ client.usageOf (told model events).2 = .ok usage ∧ usage.Counts

/-- The row that is due for a report: its counts, and their cost at the prices of the model that served the call. -/
def dueRow (model : ModelRow) (callMeta : Dict) (events : List LlmEvent) (usage : Usage) : SpendRow :=
  let priced := client.priceFor (told model events).1 model
  spendRow callMeta (told model events).1 usage
    (computeCost usage priced.inputPricePer1k priced.outputPricePer1k priced.cachedInputPrice)

/-- Each report leads to its row and no other, and a call that did not reach the proxy to none. -/
structure Metered (role : String) (sensitivity : Declared) (redacted : Bool) (callMeta : Dict)
    (events : List LlmEvent) : Prop where
  reported : ∀ model, selectModel client.texts client.models role sensitivity redacted = .ok model →
    ∀ usage, client.Reports model events usage → written events = [client.dueRow model callMeta events usage]
  unreached : (∀ event ∈ events, ¬ Reached event) → written events = []

end LlmClient

/-- The counts that an entry point does not hand over to the ledger are zero. -/
def Entry.Recorded : Entry → Usage → Prop
  | .embeddings _, usage => usage.tokOut = 0 ∧ usage.tokCached = 0
  | _, _ => True

/-! ## Rows and reports along a run -/

/-- The calls that write no row. -/
def LlmCall.Unmetered : LlmCall → Prop
  | record _ => False
  | _ => True

/-- Without a call of the ledger no row is written. -/
theorem written_eq_nil {events : List LlmEvent} (h : ∀ event ∈ events, event.call.Unmetered) : written events = [] := by
  rw [written, List.filterMap_eq_nil_iff]
  rintro ⟨call, reply⟩ hevent
  have hcall := h _ hevent
  cases call with
  | record row => exact hcall.elim
  | _ => rfl

/-- The rows of a run in two parts. -/
theorem written_append (before after : List LlmEvent) : written (before ++ after) = written before ++ written after :=
  List.filterMap_append

/-- A budget check tells nothing of usage. -/
theorem foldl_tell_of_budget {events : List LlmEvent} (h : ∀ event ∈ events, event.call.OfBudget) (heard : Json × Dict) :
    events.foldl tell heard = heard := by
  induction events with
  | nil => rfl
  | cons event rest ih =>
    have hcall := h event List.mem_cons_self
    have htell : tell heard event = heard := by
      obtain ⟨call, reply⟩ := event
      cases call with
      | checkBudget _ => rfl
      | countSoftLimit _ => rfl
      | _ => exact hcall.elim
    rw [List.foldl_cons, htell]
    exact ih fun other hother => h other (List.mem_cons_of_mem _ hother)

/-- A budget check writes no row. -/
theorem unmetered_of_budget {call : LlmCall} (h : call.OfBudget) : call.Unmetered := by
  cases call with
  | record row => exact h.elim
  | _ => trivial

variable {client : LlmClient} {sensitivity : Declared} {redacted : Bool} {callMeta : Dict}

/-- A budget check that lets a call go on has been answered. -/
theorem answered_of_runs {events : List LlmEvent} {budget : Option BudgetStatus}
    (h : (client.checkBudget callMeta).Runs events (.ok budget)) : ∀ event ∈ events, answered event = true := by
  have hraise : ∀ (status : BudgetStatus) events, (Prog.ofExcept status.raiseIfExceeded >>= fun _ =>
      (pure (some status) : Gateway (Option BudgetStatus))).Runs events (.ok budget) → events = [] := by
    intro status events hruns
    rcases Prog.runs_ofExcept_bind.mp hruns with ⟨_, _, _, hnever⟩ | ⟨_, _, hdone⟩
    · cases hnever
    · exact (Prog.runs_done.mp hdone).1
  rw [LlmClient.checkBudget] at h
  split at h
  · obtain ⟨_, _, hnever⟩ | ⟨status, rest, rfl, hrest⟩ := Prog.runs_call_bind.mp h
    · cases hnever
    · split at hrest
      · rcases Prog.runs_call_bind.mp hrest with ⟨_, _, hnever⟩ | ⟨_, rest', rfl, hrest'⟩
        · cases hnever
        · rw [hraise status rest' hrest']
          simp [answered, Except.isOk, Except.toBool]
      · rw [hraise status rest hrest]
        simp [answered, Except.isOk, Except.toBool]
  · obtain ⟨rfl, _⟩ := Prog.runs_done.mp h
    simp

/-- The runs of a call with a selected model: either nothing is handed to the ledger, and what was reported was
followed by a failure; or everything went well and one row is handed over at the end. -/
inductive Accounted (client : LlmClient) (model : ModelRow) (row : Json → Usage → SpendRow)
    (events : List LlmEvent) : Prop
  | unrecorded (hrecord : ∀ event ∈ events, event.call.Unmetered)
      (hfailed : ∀ usage, client.Reports model events usage → ∃ event ∈ events, answered event = false)
  | recorded (before : List LlmEvent) (usage : Usage) (reply : Except Raised Unit)
      (hevents : events = before ++ [⟨.record (row (told model before).1 usage), reply⟩])
      (hrecord : ∀ event ∈ before, event.call.Unmetered) (hanswered : ∀ event ∈ before, answered event = true)
      (husage : client.usageOf (told model before).2 = .ok usage) (hreached : ∃ event ∈ before, Reached event)

/-- An accounted call is metered exactly when a report meets no failure and its row is the due one. -/
theorem Accounted.metered_iff {role : String} {model : ModelRow} {row : Json → Usage → SpendRow}
    {events : List LlmEvent} (h : Accounted client model row events)
    (hselect : selectModel client.texts client.models role sensitivity redacted = .ok model) :
    client.Metered role sensitivity redacted callMeta events ↔
      ∀ usage, client.Reports model events usage → (∀ event ∈ events, answered event = true) ∧
        row (told model events).1 usage = client.dueRow model callMeta events usage := by
  cases h with
  | unrecorded hrecord hfailed =>
    have hwritten := written_eq_nil hrecord
    constructor
    · intro hmetered usage hreports
      have hrow := hmetered.reported model hselect usage hreports
      rw [hwritten] at hrow
      cases hrow
    · intro hcondition
      refine ⟨?_, fun _ => hwritten⟩
      intro model' hselect' usage hreports
      rw [hselect] at hselect'
      cases hselect'
      obtain ⟨event, hevent, hfail⟩ := hfailed usage hreports
      rw [(hcondition usage hreports).1 event hevent] at hfail
      cases hfail
  | recorded before usage reply hevents hrecord hanswered husage hreached =>
    have htold : told model events = told model before := by
      rw [hevents, told, List.foldl_append]
      rfl
    have hwritten : written events =
        if reply.isOk = true then [row (told model before).1 usage] else [] := by
      rw [hevents, written_append, written_eq_nil hrecord]
      cases reply <;> rfl
    have hreplies : (∀ event ∈ events, answered event = true) ↔ reply.isOk = true := by
      rw [hevents]
      constructor
      · intro hall
        exact hall _ (List.mem_append_right _ List.mem_cons_self)
      · intro hok event hevent
        rcases List.mem_append.mp hevent with hbefore | hlast
        · exact hanswered event hbefore
        · rw [List.mem_singleton.mp hlast]
          exact hok
    have hsame : ∀ usage', client.Reports model events usage' → usage' = usage := by
      intro usage' hreports
      have husage' := hreports.2.1
      rw [htold, husage] at husage'
      cases husage'
      rfl
    constructor
    · intro hmetered usage' hreports
      have hrow := hmetered.reported model hselect usage' hreports
      obtain rfl := hsame usage' hreports
      rw [hwritten] at hrow
      rw [hreplies]
      split at hrow
      · rename_i hok
        refine ⟨hok, ?_⟩
        rw [htold]
        simpa [htold] using hrow
      · cases hrow
    · intro hcondition
      refine ⟨?_, ?_⟩
      · intro model' hselect' usage' hreports
        rw [hselect] at hselect'
        cases hselect'
        obtain ⟨hall, hrow⟩ := hcondition usage' hreports
        obtain rfl := hsame usage' hreports
        rw [hwritten, if_pos (hreplies.mp hall), ← hrow, htold]
      · intro hunreached
        obtain ⟨event, hevent, hreach⟩ := hreached
        refine absurd hreach (hunreached event ?_)
        rw [hevents]
        exact List.mem_append_left _ hevent

/-! ## The parts of a metered call -/

/-- An empty block reports nothing. -/
theorem not_reports {model : ModelRow} {events : List LlmEvent} {usage : Usage} (h : (told model events).2 = []) :
    ¬ client.Reports model events usage := by
  intro hreports
  have hflag := hreports.1
  rw [h] at hflag
  cases hflag

/-- What is told after a budget check. -/
theorem told_after_budget {model : ModelRow} {before after : List LlmEvent}
    (h : ∀ event ∈ before, event.call.OfBudget) : told model (before ++ after) = told model after := by
  rw [told, List.foldl_append, foldl_tell_of_budget h, told]

/-- A call is accounted for after its budget check as without one. -/
theorem Accounted.after_budget {model : ModelRow} {row : Json → Usage → SpendRow} {before after : List LlmEvent}
    (hbudget : ∀ event ∈ before, event.call.OfBudget) (hanswered : ∀ event ∈ before, answered event = true)
    (h : Accounted client model row after) : Accounted client model row (before ++ after) := by
  cases h with
  | unrecorded hrecord hfailed =>
    refine .unrecorded ?_ ?_
    · intro event hevent
      rcases List.mem_append.mp hevent with hbefore | hafter
      · exact unmetered_of_budget (hbudget event hbefore)
      · exact hrecord event hafter
    · intro usage hreports
      rw [LlmClient.Reports, told_after_budget hbudget] at hreports
      obtain ⟨event, hevent, hfail⟩ := hfailed usage hreports
      exact ⟨event, List.mem_append_right _ hevent, hfail⟩
  | recorded sent usage reply hevents hrecord hanswered' husage hreached =>
    refine .recorded (before ++ sent) usage reply ?_ ?_ ?_ ?_ ?_
    · rw [hevents, told_after_budget hbudget, List.append_assoc]
    · intro event hevent
      rcases List.mem_append.mp hevent with hbefore | hsent
      · exact unmetered_of_budget (hbudget event hbefore)
      · exact hrecord event hsent
    · intro event hevent
      rcases List.mem_append.mp hevent with hbefore | hsent
      · exact hanswered event hbefore
      · exact hanswered' event hsent
    · rw [told_after_budget hbudget]
      exact husage
    · obtain ⟨event, hevent, hreach⟩ := hreached
      exact ⟨event, List.mem_append_right _ hevent, hreach⟩

/-- A request to the proxy: it may fail before or at the proxy, or is answered. -/
theorem runs_send {call : LlmCall} {keywords : List String} {f : Raised → Raised} {events : List LlmEvent}
    {result : Except Raised call.Reply}
    (h : ((Prog.ofExcept (LlmClient.duplicated keywords callMeta) >>= fun _ => awaitLlm call).mapError f).Runs
      events result) :
    (∃ error, result = .error error ∧ (events = [] ∨ ∃ failure, events = [⟨call, .error failure⟩])) ∨
      ∃ value, events = [⟨call, .ok value⟩] ∧ result = .ok value := by
  obtain ⟨outcome, hsend, rfl⟩ := Prog.runs_mapError.mp h
  rcases Prog.runs_ofExcept_bind.mp hsend with ⟨error, _, rfl, rfl⟩ | ⟨_, _, hcall⟩
  · exact .inl ⟨f error, rfl, .inl rfl⟩
  · obtain ⟨reply, rest, rfl, hrest⟩ := Prog.runs_await.mp hcall
    cases reply with
    | ok value =>
      obtain ⟨rfl, rfl⟩ := Prog.runs_done.mp hrest
      exact .inr ⟨value, rfl, rfl⟩
    | error error =>
      obtain ⟨rfl, rfl⟩ := Prog.runs_raise.mp hrest
      exact .inl ⟨f error, rfl, .inr ⟨error, rfl⟩⟩

/-- What the proxy has told is metered with one row, unless it cannot be read. -/
theorem accounted_settle {α : Type} {model : ModelRow} {row : Json → Usage → SpendRow} {served : Json} {body : Dict}
    {settle : Usage → Gateway α} {sent settled : List LlmEvent} {result : Except Raised α}
    (hsettle : ∀ usage events result, (settle usage).Runs events result →
      ∃ reply, events = [⟨.record (row served usage), reply⟩])
    (hrecord : ∀ event ∈ sent, event.call.Unmetered) (hanswered : ∀ event ∈ sent, answered event = true)
    (htold : told model sent = (served, body)) (hreached : ∃ event ∈ sent, Reached event)
    (h : (Prog.ofExcept (client.usageOf body) >>= settle).Runs settled result) :
    Accounted client model row (sent ++ settled) := by
  rcases Prog.runs_ofExcept_bind.mp h with ⟨error, herror, rfl, -⟩ | ⟨usage, husage, hruns⟩
  · rw [List.append_nil]
    refine .unrecorded hrecord ?_
    intro usage hreports
    have husage := hreports.2.1
    rw [htold, herror] at husage
    cases husage
  · obtain ⟨reply, rfl⟩ := hsettle usage settled result hruns
    refine .recorded sent usage reply ?_ hrecord hanswered ?_ hreached
    · rw [htold]
    · rw [htold]
      exact husage

/-- A row is handed over and then no call is made. -/
theorem runs_record {α : Type} {row : SpendRow} {next : Gateway α} {events : List LlmEvent}
    {result : Except Raised α} (hnext : next.Only fun _ => False)
    (h : (awaitLlm (.record row) >>= fun _ => next).Runs events result) :
    ∃ reply, events = [⟨.record row, reply⟩] := by
  rcases Prog.runs_call_bind.mp h with ⟨error, rfl, -⟩ | ⟨value, rest, rfl, hrest⟩
  · exact ⟨.error error, rfl⟩
  · have hnone := hnext.runs hrest
    cases rest with
    | nil => exact ⟨.ok value, rfl⟩
    | cons event _ => exact (hnone event List.mem_cons_self).elim

/-- The end of a completion or an embedding makes no call. -/
theorem only_return {α β : Type} {computed : Except Raised α} {f : α → β} :
    (Prog.ofExcept computed >>= fun value => (pure (f value) : Gateway β)).Only fun _ => False :=
  (Prog.only_ofExcept _).bind fun _ => Prog.only_pure _

/-- A call that was not answered reports nothing. -/
theorem accounted_of_silent {model : ModelRow} {row : Json → Usage → SpendRow} {events : List LlmEvent}
    (hrecord : ∀ event ∈ events, event.call.Unmetered) (htold : (told model events).2 = []) :
    Accounted client model row events :=
  .unrecorded hrecord fun _ hreports => absurd hreports (not_reports htold)

/-- The loop over a stream: a failure ends it, and else it has heard what the stream told. -/
theorem runs_consume {chunks : ℕ} {heard : Json × Dict} {events : List LlmEvent} {result : Except Raised (Json × Dict)}
    (h : (LlmClient.consume chunks heard).Runs events result) :
    (∀ event ∈ events, event.call.Unmetered) ∧
      ((∃ error, result = .error error ∧ ∃ event ∈ events, answered event = false) ∨
        result = .ok (events.foldl tell heard) ∧ (∀ event ∈ events, answered event = true) ∧
          (chunks = 0 ∨ ∃ event ∈ events, Reached event)) := by
  induction chunks generalizing heard events with
  | zero =>
    obtain ⟨rfl, rfl⟩ := Prog.runs_done.mp h
    simp
  | succ chunks ih =>
    rw [LlmClient.consume] at h
    rcases Prog.runs_call_bind.mp h with ⟨error, rfl, rfl⟩ | ⟨chunk, rest, rfl, hrest⟩
    · simp [LlmCall.Unmetered, answered, Except.isOk, Except.toBool]
    · have hloop : ∀ silent : List LlmEvent, (∀ event ∈ silent, event.call.Unmetered) →
          (∀ event ∈ silent, answered event = true) → (∀ heard, silent.foldl tell heard = heard) → ∀ events,
          (LlmClient.consume chunks (LlmClient.hear heard chunk)).Runs events result →
          (∀ event ∈ ⟨.nextChunk, .ok chunk⟩ :: silent ++ events, event.call.Unmetered) ∧
            ((∃ error, result = .error error ∧
                ∃ event ∈ ⟨.nextChunk, .ok chunk⟩ :: silent ++ events, answered event = false) ∨
              result = .ok ((⟨.nextChunk, .ok chunk⟩ :: silent ++ events).foldl tell heard) ∧
                (∀ event ∈ ⟨.nextChunk, .ok chunk⟩ :: silent ++ events, answered event = true) ∧
                (chunks + 1 = 0 ∨ ∃ event ∈ ⟨.nextChunk, .ok chunk⟩ :: silent ++ events, Reached event)) := by
        intro silent hunmetered hanswered htell events hruns
        obtain ⟨hrecord, hend⟩ := ih hruns
        refine ⟨?_, ?_⟩
        · intro event hevent
          rcases List.mem_append.mp hevent with hfirst | hlast
          · rcases List.mem_cons.mp hfirst with rfl | hsilent
            · trivial
            · exact hunmetered event hsilent
          · exact hrecord event hlast
        · rcases hend with ⟨error, rfl, event, hevent, hfail⟩ | ⟨rfl, hall, -⟩
          · exact .inl ⟨error, rfl, event, List.mem_append_right _ hevent, hfail⟩
          · refine .inr ⟨?_, ?_, .inr ⟨⟨.nextChunk, .ok chunk⟩, List.mem_cons_self, trivial⟩⟩
            · rw [List.cons_append, List.foldl_cons, List.foldl_append, htell]
              rfl
            · intro event hevent
              rcases List.mem_append.mp hevent with hfirst | hlast
              · rcases List.mem_cons.mp hfirst with rfl | hsilent
                · rfl
                · exact hanswered event hsilent
              · exact hall event hlast
      dsimp only at hrest
      split at hrest
      · rcases Prog.runs_call_bind.mp hrest with ⟨error, rfl, rfl⟩ | ⟨yielded, rest', rfl, hrest'⟩
        · simp [LlmCall.Unmetered, answered, Except.isOk, Except.toBool]
        · refine hloop [⟨.yieldDelta _, .ok yielded⟩] ?_ ?_ (fun _ => rfl) rest' hrest'
          · simp [LlmCall.Unmetered]
          · simp [answered, Except.isOk, Except.toBool]
      · exact hloop [] (fun _ hnever => by cases hnever) (fun _ hnever => by cases hnever) (fun _ => rfl) rest hrest

/-- A call with a selected model is accounted for when its service is. -/
theorem accounted_of_selected {α : Type} {role : String} {model : ModelRow} {row : Json → Usage → SpendRow}
    {next : ModelRow → Option BudgetStatus → Gateway α} {events : List LlmEvent} {result : Except Raised α}
    (hnext : ∀ budget events result, (next model budget).Runs events result → Accounted client model row events)
    (hselect : selectModel client.texts client.models role sensitivity redacted = .ok model)
    (h : (Prog.ofExcept (selectModel client.texts client.models role sensitivity redacted) >>= fun model =>
      client.checkBudget callMeta >>= fun budget => next model budget).Runs events result) :
    Accounted client model row events := by
  rcases runs_selected h with ⟨error, hselect', -, -⟩ | ⟨model', hselect', hrest⟩
  · rw [hselect] at hselect'
    cases hselect'
  · rw [hselect] at hselect'
    cases hselect'
    rcases hrest with ⟨error, hcheck, -⟩ | ⟨before, after, budget, rfl, hcheck, hafter⟩
    · have hbudget := only_checkBudget.runs hcheck
      refine accounted_of_silent (fun event hevent => unmetered_of_budget (hbudget event hevent)) ?_
      rw [told, foldl_tell_of_budget hbudget]
    · exact (hnext budget after result hafter).after_budget (only_checkBudget.runs hcheck) (answered_of_runs hcheck)

/-! ## The entry points -/

/-- The row of a completion. -/
def billedRow (client : LlmClient) (model : ModelRow) (callMeta : Dict) (served : Json) (usage : Usage) : SpendRow :=
  let priced := client.priceFor served model
  LlmClient.spendRow callMeta served usage
    (computeCost usage priced.inputPricePer1k priced.outputPricePer1k priced.cachedInputPrice)

/-- The row of an embedding. -/
def embeddedRow (client : LlmClient) (model : ModelRow) (callMeta : Dict) (served : Json) (usage : Usage) : SpendRow :=
  let priced := client.priceFor served model
  LlmClient.spendRow callMeta served { usage with tokOut := 0, tokCached := 0 }
    (computeCost usage priced.inputPricePer1k priced.outputPricePer1k none)

/-- Completions bill what is due. -/
theorem billedRow_eq (model : ModelRow) (events : List LlmEvent) (usage : Usage) :
    billedRow client model callMeta (told model events).1 usage = client.dueRow model callMeta events usage := rfl

/-- Embeddings bill what is due when the counts that they drop are zero. -/
theorem embeddedRow_eq_iff {model : ModelRow} {events : List LlmEvent} {usage : Usage} (hcounts : usage.Counts) :
    embeddedRow client model callMeta (told model events).1 usage = client.dueRow model callMeta events usage ↔
      usage.tokOut = 0 ∧ usage.tokCached = 0 := by
  constructor
  · intro hrow
    have hout := congrArg SpendRow.tokOut hrow
    have hcached := congrArg SpendRow.tokCached hrow
    exact ⟨hout.symm, hcached.symm⟩
  · rintro ⟨hout, hcached⟩
    have husage : { usage with tokOut := 0, tokCached := 0 } = usage := by
      cases usage
      simp_all
    simp only [embeddedRow, LlmClient.dueRow, husage]
    rw [computeCost_eq_uncached (client.priceFor (told model events).1 model).cachedInputPrice hcounts hcached]

/-- A request and its reply: an exception, or a body that says what it reports. -/
def Exchanges (model : ModelRow) (send : Gateway Dict) : Prop :=
  ∀ events result, send.Runs events result → (∀ event ∈ events, event.call.Unmetered) ∧
    ((∃ error, result = .error error ∧ (told model events).2 = []) ∨
      ∃ body, result = .ok body ∧ (∀ event ∈ events, answered event = true) ∧
        told model events = ((Json.get? body "model").getD (.str model.name), body) ∧ ∃ event ∈ events, Reached event)

/-- A completion request. -/
theorem exchanges_complete {model : ModelRow} {keywords : List String} {messages : List Json}
    {f : Raised → Raised} : Exchanges model ((Prog.ofExcept (LlmClient.duplicated keywords callMeta) >>= fun _ =>
      awaitLlm (.complete model.name messages callMeta)).mapError f) := by
  intro events result h
  rcases runs_send h with ⟨error, rfl, rfl | ⟨failure, rfl⟩⟩ | ⟨body, rfl, rfl⟩
  · exact ⟨fun _ hnever => (by cases hnever), .inl ⟨error, rfl, rfl⟩⟩
  · exact ⟨by simp [LlmCall.Unmetered], .inl ⟨error, rfl, rfl⟩⟩
  · refine ⟨by simp [LlmCall.Unmetered], .inr ⟨body, rfl, ?_, rfl, _, List.mem_cons_self, trivial⟩⟩
    simp [answered, Except.isOk, Except.toBool]

/-- An embeddings request. -/
theorem exchanges_embed {model : ModelRow} {keywords : List String} {input : List String}
    {f : Raised → Raised} : Exchanges model ((Prog.ofExcept (LlmClient.duplicated keywords callMeta) >>= fun _ =>
      awaitLlm (.embed model.name input callMeta)).mapError f) := by
  intro events result h
  rcases runs_send h with ⟨error, rfl, rfl | ⟨failure, rfl⟩⟩ | ⟨body, rfl, rfl⟩
  · exact ⟨fun _ hnever => (by cases hnever), .inl ⟨error, rfl, rfl⟩⟩
  · exact ⟨by simp [LlmCall.Unmetered], .inl ⟨error, rfl, rfl⟩⟩
  · refine ⟨by simp [LlmCall.Unmetered], .inr ⟨body, rfl, ?_, rfl, _, List.mem_cons_self, trivial⟩⟩
    simp [answered, Except.isOk, Except.toBool]

/-- A request whose reply is metered. -/
theorem accounted_of_exchanges {α : Type} {model : ModelRow} {row : Json → Usage → SpendRow} {send : Gateway Dict}
    {settle : Dict → Usage → Gateway α} {events : List LlmEvent} {result : Except Raised α} (hsend : Exchanges model send)
    (hsettle : ∀ body usage events result, (settle body usage).Runs events result →
      ∃ reply, events = [⟨.record (row ((Json.get? body "model").getD (.str model.name)) usage), reply⟩])
    (h : (send >>= fun body => Prog.ofExcept (client.usageOf body) >>= settle body).Runs events result) :
    Accounted client model row events := by
  rcases Prog.runs_bind.mp h with ⟨error, hfail, rfl⟩ | ⟨sent, settled, body, rfl, hsent, hsettled⟩
  · obtain ⟨hrecord, ⟨_, _, htold⟩ | ⟨_, hnever, -⟩⟩ := hsend _ _ hfail
    · exact accounted_of_silent hrecord htold
    · cases hnever
  · obtain ⟨hrecord, ⟨_, hnever, -⟩ | ⟨_, hbody, hanswered, htold, hreached⟩⟩ := hsend _ _ hsent
    · cases hnever
    · cases hbody
      exact accounted_settle (hsettle body) hrecord hanswered htold hreached hsettled

/-- A completion. -/
theorem accounted_call {role : String} {model : ModelRow} {messages : List Json} {events : List LlmEvent}
    {result : Except Raised LlmResponse}
    (hselect : selectModel client.texts client.models role sensitivity redacted = .ok model)
    (h : (client.call role messages sensitivity redacted callMeta).Runs events result) :
    Accounted client model (billedRow client model callMeta) events := by
  refine accounted_of_selected (fun budget events result hnext => ?_) hselect h
  exact accounted_of_exchanges exchanges_complete
    (fun body usage events result hruns => runs_record only_return hruns) hnext

/-- An embedding. -/
theorem accounted_embeddings {model : ModelRow} {input : List String} {events : List LlmEvent}
    {result : Except Raised EmbeddingResponse}
    (hselect : selectModel client.texts client.models "embeddings" sensitivity redacted = .ok model)
    (h : (client.embeddings input sensitivity redacted callMeta).Runs events result) :
    Accounted client model (embeddedRow client model callMeta) events := by
  refine accounted_of_selected (fun budget events result hnext => ?_) hselect h
  exact accounted_of_exchanges exchanges_embed
    (fun body usage events result hruns => runs_record only_return hruns) hnext

/-- The last statement of a stream. -/
theorem runs_last_record {row : SpendRow} {events : List LlmEvent} {result : Except Raised Unit}
    (h : (awaitLlm (.record row)).Runs events result) : ∃ reply, events = [⟨.record row, reply⟩] := by
  obtain ⟨reply, rest, rfl, hrest⟩ := Prog.runs_await.mp h
  refine ⟨reply, ?_⟩
  cases reply with
  | ok value =>
    obtain ⟨rfl, -⟩ := Prog.runs_done.mp hrest
    rfl
  | error error =>
    obtain ⟨rfl, -⟩ := Prog.runs_raise.mp hrest
    rfl

/-- A streamed completion. -/
theorem accounted_reasoningStream {model : ModelRow} {messages : List Json} {events : List LlmEvent}
    {result : Except Raised Unit}
    (hselect : selectModel client.texts client.models "reasoning" sensitivity redacted = .ok model)
    (h : (client.reasoningStream messages sensitivity redacted callMeta).Runs events result) :
    Accounted client model (billedRow client model callMeta) events := by
  refine accounted_of_selected (fun budget events result hnext => ?_) hselect h
  rcases Prog.runs_bind.mp hnext with ⟨error, hsend, rfl⟩ | ⟨opened, rest, chunks, rfl, hsend, hrest⟩
  · rcases runs_send hsend with ⟨_, _, rfl | ⟨failure, rfl⟩⟩ | ⟨value, _, hnever⟩
    · exact accounted_of_silent (fun _ hnever => by cases hnever) rfl
    · exact accounted_of_silent (by simp [LlmCall.Unmetered]) rfl
    · cases hnever
  · rcases runs_send hsend with ⟨_, hnever, _⟩ | ⟨value, rfl, hvalue⟩
    · cases hnever
    · cases hvalue
      have hopened : ∀ after, told model ([⟨.streamComplete model.name messages callMeta, .ok chunks⟩] ++ after) =
          after.foldl tell (.str model.name, []) := fun _ => rfl
      rcases Prog.runs_bind.mp hrest with ⟨error, hloop, rfl⟩ | ⟨looped, settled, heard, rfl, hloop, hsettled⟩
      · obtain ⟨outcome, hconsume, herror⟩ := Prog.runs_mapError.mp hloop
        obtain ⟨hrecord, ⟨_, _, event, hevent, hfail⟩ | ⟨rfl, -, -⟩⟩ := runs_consume hconsume
        · refine .unrecorded ?_ fun _ _ => ⟨event, List.mem_append_right _ hevent, hfail⟩
          intro event hevent
          rcases List.mem_append.mp hevent with hfirst | hlast
          · rw [List.mem_singleton.mp hfirst]
            trivial
          · exact hrecord event hlast
        · cases herror
      · obtain ⟨outcome, hconsume, hheard⟩ := Prog.runs_mapError.mp hloop
        obtain ⟨hrecord, ⟨_, rfl, -⟩ | ⟨rfl, hanswered, hreached⟩⟩ := runs_consume hconsume
        · cases hheard
        · cases hheard
          rw [← List.append_assoc]
          refine accounted_settle (fun usage events result hruns => runs_last_record hruns) ?_ ?_ ?_ ?_ hsettled
          · intro event hevent
            rcases List.mem_append.mp hevent with hfirst | hlast
            · rw [List.mem_singleton.mp hfirst]
              trivial
            · exact hrecord event hlast
          · intro event hevent
            rcases List.mem_append.mp hevent with hfirst | hlast
            · rw [List.mem_singleton.mp hfirst]
              rfl
            · exact hanswered event hlast
          · rw [hopened]
          · rcases hreached with hzero | ⟨event, hevent, hreach⟩
            · exact ⟨_, List.mem_append_left _ List.mem_cons_self, hzero⟩
            · exact ⟨event, List.mem_append_right _ hevent, hreach⟩

/-- The row that an entry point hands over. -/
def Entry.row (client : LlmClient) (model : ModelRow) (callMeta : Dict) : Entry → Json → Usage → SpendRow
  | .embeddings _ => embeddedRow client model callMeta
  | _ => billedRow client model callMeta

/-- An entry point hands over the due row exactly when it records all counts. -/
theorem Entry.row_eq_iff {entry : Entry} {model : ModelRow} {events : List LlmEvent} {usage : Usage}
    (hcounts : usage.Counts) :
    entry.row client model callMeta (told model events).1 usage = client.dueRow model callMeta events usage ↔
      entry.Recorded usage := by
  cases entry with
  | embeddings input => exact embeddedRow_eq_iff hcounts
  | _ => exact iff_of_true (billedRow_eq model events usage) trivial

/-- Every entry point. -/
theorem accounted_perform {entry : Entry} {model : ModelRow} {events : List LlmEvent} {result : Except Raised Answer}
    (hselect : selectModel client.texts client.models entry.role sensitivity redacted = .ok model)
    (h : (client.perform sensitivity redacted callMeta entry).Runs events result) :
    Accounted client model (entry.row client model callMeta) events := by
  cases entry with
  | reasoning messages =>
    obtain ⟨inner, hinner, -⟩ := runs_answer h
    exact accounted_call hselect hinner
  | utility messages =>
    obtain ⟨inner, hinner, -⟩ := runs_answer h
    exact accounted_call hselect hinner
  | reasoningStream messages =>
    have h' : (client.reasoningStream messages sensitivity redacted callMeta >>= fun value =>
        pure ((fun _ => Answer.streamed) value)).Runs events result := h
    obtain ⟨inner, hinner, -⟩ := runs_answer h'
    exact accounted_reasoningStream hselect hinner
  | embeddings input =>
    obtain ⟨inner, hinner, -⟩ := runs_answer h
    exact accounted_embeddings hselect hinner

/-- A body that reports a thousand input tokens, some of them cached. -/
def reportOf (cached : ℤ) : Dict :=
  [("usage", .obj [("prompt_tokens", .int 1000), ("prompt_tokens_details", .obj [("cached_tokens", .int cached)])])]

end FleetWorkflow.Llm
