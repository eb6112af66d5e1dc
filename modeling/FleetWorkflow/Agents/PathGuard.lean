import Mathlib.Data.List.Induction
import FleetWorkflow.Agents.DevAgent
import FleetWorkflow.Async.StateGraph
import FleetWorkflow.Python.Json
import FleetWorkflow.Python.Paths

/-!
# The guard of the dev agent

Which replies of the model end a run of the dev agent before it touches the repository. A reply forbids itself when it
names a path inside a protected directory, however the path is spelled, or estimates too large a change. The guard
looks at how each path starts, and only after the reply went through the coercions of the parser.
-/

namespace FleetWorkflow.Agents.DevAgent

open Python Async Core

/-! ## Forbidden replies -/

/-- The directories that a plan may not touch. -/
def protectedDirectories : List Path.Segment := ["infra".toList, ".github".toList]

/-- A path names something inside a protected directory. -/
def isProtected (path : String) : Bool :=
  protectedDirectories.any fun directory => Path.isInside directory path.toList

/-- The paths that a value of `target_paths` names: the texts of a list, or one plain text. -/
def namedPaths : Json → List String
  | .str path => [path]
  | .arr items => items.filterMap fun
    | .str path => some path
    | _ => none
  | _ => []

section Replies

variable (py : Builtins)

/-- An estimate is over the cap: a number, or a text that is one. -/
def exceedsCap : Json → Bool
  | .int lines => maxDiffLines < lines
  | .float .nan => false
  | .float lines => !lines.le (.decimal false maxDiffLines.toNat 0)
  | .str text =>
    match py.int (.str text) with
    | .ok lines => maxDiffLines < lines
    | .error _ => false
  | _ => false

/-- A reply names a path inside a protected directory or estimates too large a change. -/
def Forbidden (content : String) : Prop :=
  ∃ fields, Json.loads (stripCodeFence content) = .ok (.obj fields) ∧
    ((∃ paths, Json.get? fields "target_paths" = some paths ∧ ∃ path ∈ namedPaths paths, isProtected path = true) ∨
      ∃ estimate, Json.get? fields "diff_line_estimate" = some estimate ∧ exceedsCap py estimate = true)

/-! ## Caught replies -/

/-- A path starts like one in a protected directory. -/
def startsProtected (path : String) : Bool := protectedPathPrefixes.any (startsWith path)

/-- A plan has a path that starts like one in a protected directory, or its estimate is over the cap. -/
def DevAgentPlan.IsCaught (plan : DevAgentPlan) : Prop :=
  (∃ path ∈ plan.targetPaths, startsProtected path = true) ∨ maxDiffLines < plan.diffLineEstimate

/-- A reply is no plan, or its plan is caught as it was parsed. -/
def IsCaught (content : String) : Prop :=
  (∃ error, parsePlan py content = .error error ∧ error.kind = .parseError) ∨
    ∃ planned, parsePlan py content = .ok planned ∧ planned.IsCaught

end Replies

/-- A path that is spelled canonically starts like one in a protected directory exactly when it is inside of one. -/
theorem startsProtected_of_canonical {path : String} (h : Path.Canonical path.toList) :
    startsProtected path = isProtected path := by
  have hinfra : '/' ∉ "infra".toList := by decide
  have hgithub : '/' ∉ ".github".toList := by decide
  simp only [startsProtected, isProtected, protectedDirectories, protectedPathPrefixes, List.any_cons, List.any_nil,
    Path.isInside_of_canonical h hinfra, Path.isInside_of_canonical h hgithub]
  rfl

/-! ## What ends a run -/

/-- The content of an answer of the model. -/
def answer? : CallEvent → Option String
  | ⟨.llm _ _ _ _, .ok response⟩ => some response.content
  | _ => none

/-- A call writes to a system outside. -/
def Writes : Call → Prop
  | .tool _ tool _ => ToolSpec.isWrite tool = true
  | _ => False

/-- A call was answered. -/
def Succeeds (event : CallEvent) : Prop := ∃ value, event.reply = .ok value

/-- A run came to its end and is blocked. -/
def IsBlocked (result : Except Exc AgentRun) : Prop :=
  ∃ run, result = .ok run ∧ run.interrupt = none ∧ Json.flag run.values "blocked_reason" = true

/-- Every run in which the model replies with a content makes no write, and is blocked when none of its calls fails. -/
def EndsBlocked (py : Builtins) (content : String) : Prop :=
  ∀ (actor : Actor) (killswitch : Option KillSwitch) (ticketKey : String) (events : List CallEvent)
    (result : Except Exc AgentRun),
    (ainvoke (graph py actor killswitch) (threadSaver nodeNames actor) [("ticket_key", .str ticketKey)]).Runs
      events result → events.filterMap answer? = [content] →
    (∀ event ∈ events, ¬ Writes event.call) ∧ ((∀ event ∈ events, Succeeds event) → IsBlocked result)

/-! ## Caught replies end a run -/

section Caught

variable {py : Builtins} {actor : Actor} {killswitch : Option KillSwitch} {content : String}

/-- Runs without a write, in which the model replies with a content. -/
abbrev guarded (content : String) : Protocol Call Reply Exc (List CallEvent) :=
  .recording (fun c => ¬ Writes c) fun event => ∀ other, answer? event = some other → other = content

/-- The model has not answered yet. -/
def Unasked (seen : List CallEvent) : Prop := ∀ event ∈ seen, answer? event = none

/-- The run is blocked at its end, if the model answered with the content and no call failed. -/
def post (content : String) (result : Except Exc AgentRun) (seen : List CallEvent) : Prop :=
  (∃ event ∈ seen, answer? event = some content) → (∀ event ∈ seen, Succeeds event) → IsBlocked result

/-- The run is on its way to the model or blocked. -/
def OnWay (node : Node) (values : Dict) (seen : List CallEvent) : Prop :=
  (Unasked seen ∧ node ∈ [.killswitchGate, .fetchTicket, .checkGuardrails, .plan, .citationEnd]) ∨
    (node = .citationEnd ∧ Json.flag values "blocked_reason" = true)

/-- If no call failed, no save did. -/
def SavedAll (failed : Option Exc) (seen : List CallEvent) : Prop := (∀ event ∈ seen, Succeeds event) → failed = none

/-- How many supersteps are left from a node on. -/
def rank : Node → ℕ
  | .killswitchGate => 8
  | .fetchTicket => 7
  | .checkGuardrails => 6
  | .plan => 5
  | .createBranch => 4
  | .hitl => 3
  | .openPr => 2
  | .slackNotify => 1
  | .citationEnd => 0

variable {failed : Option Exc} {seen : List CallEvent}

/-- A call that is not to the model leaves it unasked. -/
theorem Unasked.snoc (h : Unasked seen) {event : CallEvent} (hevent : answer? event = none) :
    Unasked (seen ++ [event]) := List.forall_mem_append.mpr ⟨h, by simpa using hevent⟩

/-- While the model is unasked every outcome will do. -/
theorem Unasked.post (h : Unasked seen) (result : Except Exc AgentRun) : post content result seen := by
  intro ⟨event, hevent, hanswer⟩
  rw [h event hevent] at hanswer
  cases hanswer

/-- Calls to neither the model nor a tool that writes. -/
theorem quiet_call {node : Node} (hmodel : callsModel node = false)
    (htools : ∀ tool ∈ nodeTools node, ToolSpec.isWrite tool = false) {c : Call}
    (hc : NodeCall actor (nodeTools node) (callsModel node) c) :
    ¬ Writes c ∧ ∀ reply, answer? ⟨c, reply⟩ = none := by
  cases c with
  | tool caller tool args =>
    have hread := htools tool hc.2
    exact ⟨by simp [Writes, hread], fun reply => rfl⟩
  | llm caller method messages kwargs =>
    rw [hmodel] at hc
    exact absurd hc.2 Bool.false_ne_true
  | _ => exact ⟨id, fun reply => rfl⟩

/-- A node that asks neither the model nor a tool that writes leaves the model unasked. -/
theorem ensures_quietBody {node : Node} (hmodel : callsModel node = false)
    (htools : ∀ tool ∈ nodeTools node, ToolSpec.isWrite tool = false) (resume : Option Json) (values : Dict)
    (h : Unasked seen) : (guarded content).Ensures (fun _ => Unasked)
      ((graph py actor killswitch).body node resume values) seen := by
  apply Protocol.ensures_only (only_body py actor killswitch node resume values) _ h
  intro seen' c hseen hc
  obtain ⟨hwrites, hanswer⟩ := quiet_call hmodel htools hc
  refine ⟨hwrites, ?_⟩
  rintro reply seen'' ⟨-, rfl⟩
  exact hseen.snoc (hanswer reply)

/-- The checkpoint is saved, or the run fails at its end. -/
theorem ensures_saveAfter (checkpoint : Checkpoint Node Dict) (hsaved : SavedAll failed seen) :
    (guarded content).Ensures (fun result seen' => ∃ failed', result = .ok failed' ∧ SavedAll failed' seen' ∧
        (Unasked seen → Unasked seen'))
      (StateGraph.saveAfter (threadSaver nodeNames actor) failed checkpoint) seen := by
  cases failed with
  | some error => exact ⟨some error, rfl, hsaved, id⟩
  | none =>
    apply Protocol.ensures_bind.mpr
    apply Protocol.ensures_attempt.mpr
    apply Protocol.ensures_call.mpr
    refine ⟨id, ?_⟩
    rintro reply seen' ⟨-, rfl⟩
    cases reply with
    | ok value => exact ⟨none, rfl, fun _ => rfl, fun hunasked => hunasked.snoc rfl⟩
    | error error =>
      refine ⟨some error, rfl, fun hall => ?_, fun hunasked => hunasked.snoc rfl⟩
      obtain ⟨value, hvalue⟩ := hall _ (List.mem_append_right seen (List.mem_singleton_self _))
      cases hvalue

/-- What a node has to come to: the model is still unasked, or the run is blocked. -/
def Leads (py : Builtins) (actor : Actor) (killswitch : Option KillSwitch) (node : Node) (values : Dict) :
    Except Exc NodeOutcome → List CallEvent → Prop
  | .ok (.wrote writes), seen => ∃ next, (graph py actor killswitch).route node (Json.merge values writes) = .ok next ∧
      match next with
      | none => Unasked seen ∨ Json.flag (Json.merge values writes) "blocked_reason" = true
      | some next => rank next < rank node ∧ OnWay next (Json.merge values writes) seen
  | _, seen => Unasked seen

/-- One superstep keeps the run on its way or ends it as it has to end. -/
theorem ensures_superstep {resume : Option Json} {node : Node} {values : Dict} (hsaved : SavedAll failed seen)
    (hbody : ∀ reply, (guarded content).Ensures (Leads py actor killswitch node values)
      ((graph py actor killswitch).body node resume values) (seen ++ [⟨.enter actor (nodeNames.name node), reply⟩])) :
    (guarded content).Ensures
      (StateGraph.Steps (fun failed' (_ : Option Json) next values' seen' =>
        rank next < rank node ∧ SavedAll failed' seen' ∧ OnWay next values' seen') (post content))
      (StateGraph.superstep (graph py actor killswitch) (threadSaver nodeNames actor) failed resume node values)
      seen := by
  apply Protocol.ensures_call_bind id
  rintro reply _ ⟨-, rfl⟩
  cases reply with
  | error error =>
    intro _ hall
    obtain ⟨value, hvalue⟩ := hall _ (List.mem_append_right seen (List.mem_singleton_self _))
    cases hvalue
  | ok entered =>
    apply Protocol.ensures_bind.mpr
    apply (hbody (.ok entered)).grows.mono
    intro outcome seen₂ houtcome
    obtain ⟨hleads, hgrows⟩ := houtcome
    have hsaved₂ : SavedAll failed seen₂ := by
      intro hall
      exact hsaved fun event hevent => hall event (hgrows.subset (List.mem_append_left _ hevent))
    match outcome with
    | .error error => exact hleads.post _
    | .ok (.interrupted payload) => exact hleads.post _
    | .ok (.wrote writes) =>
      obtain ⟨next, hroute, hnext⟩ := hleads
      apply Protocol.ensures_ofExcept_bind
      · intro error herror
        cases hroute.symm.trans herror
      · intro other hother
        cases Except.ok.inj (hroute.symm.trans hother)
        apply Protocol.ensures_bind.mpr
        apply (ensures_saveAfter _ hsaved₂).mono
        intro saving seen₃ hsaving
        obtain ⟨failed', rfl, hsaved₃, hunasked⟩ := hsaving
        cases next with
        | none =>
          intro hasked hall
          rcases hnext with hquiet | hflag
          · exact (hunasked hquiet).post (StateGraph.outcome failed' _) hasked hall
          · rw [hsaved₃ hall]
            exact ⟨_, rfl, rfl, hflag⟩
        | some next =>
          refine ⟨hnext.1, hsaved₃, ?_⟩
          rcases hnext.2 with ⟨hquiet, hnode⟩ | hblocked
          · exact .inl ⟨hunasked hquiet, hnode⟩
          · exact .inr hblocked

/-- A node before the model, or after it, leads on while the model is unasked. -/
theorem leads_of_unasked {node : Node} (hnode : node ∈ [.killswitchGate, .fetchTicket, .checkGuardrails, .citationEnd])
    {values : Dict} (outcome : Except Exc NodeOutcome) (h : Unasked seen) :
    Leads py actor killswitch node values outcome seen := by
  match outcome with
  | .error error => exact h
  | .ok (.interrupted payload) => exact h
  | .ok (.wrote writes) =>
    simp only [List.mem_cons, List.not_mem_nil, or_false] at hnode
    rcases hnode with rfl | rfl | rfl | rfl
    · refine ⟨_, rfl, ?_⟩
      split
      · exact .inl h
      · rename_i next hnext
        split at hnext
        · cases hnext
        · cases hnext
          exact ⟨by decide, .inl ⟨h, by decide⟩⟩
    · exact ⟨_, rfl, by decide, .inl ⟨h, by decide⟩⟩
    · refine ⟨_, rfl, ?_, .inl ⟨h, ?_⟩⟩
      · split <;> decide
      · split <;> decide
    · exact ⟨_, rfl, .inl h⟩

/-- A plan that is blocked leads to the end. -/
theorem leads_blocked {values : Dict} {reason : String} (hreason : reason ≠ "") :
    Leads py actor killswitch .plan values (.ok (.wrote [("blocked_reason", .str reason)])) seen := by
  have hflag : Json.flag (Json.merge values [("blocked_reason", .str reason)]) "blocked_reason" = true := by
    rw [Json.merge_cons, Json.merge_nil, Json.flag_insert_self]
    simpa [Json.truthy] using hreason
  refine ⟨some .citationEnd, ?_, by decide, .inr ⟨rfl, hflag⟩⟩
  show Except.ok (some (if _ then _ else _)) = _
  rw [if_pos hflag]

/-- The answer of the model is parsed, or there is none. -/
theorem ensures_planTicket {parsed : Except Exc DevAgentPlan} (hparse : parsePlan py content = parsed) (ticket : Json)
    (h : Unasked seen) : (guarded content).Ensures
    (fun result seen' => result = parsed ∨ (Unasked seen' ∧ ∃ error, result = .error error))
    (planTicket py actor ticket) seen := by
  apply Protocol.ensures_ofExcept_bind
  · exact fun error _ => .inr ⟨h, error, rfl⟩
  · intro key _
    apply Protocol.ensures_ofExcept_bind
    · exact fun error _ => .inr ⟨h, error, rfl⟩
    · intro summary _
      apply Protocol.ensures_call_bind id
      rintro reply _ ⟨hanswer, rfl⟩
      cases reply with
      | error error => exact .inr ⟨h.snoc rfl, error, rfl⟩
      | ok response =>
        rw [Protocol.after, hanswer _ rfl, hparse]
        exact Protocol.ensures_ofExcept.mpr (.inl rfl)

/-- The checks of a caught plan raise an exception that blocks the run. -/
theorem checks_of_caught (py : Builtins) {planned : DevAgentPlan} (h : planned.IsCaught) (goOn : Coroutine NodeOutcome) :
    ∃ error : Exc, error.kind ∈ [ExcKind.protectedPath, .diffTooLarge] ∧ error.message ≠ "" ∧
      (do Prog.ofExcept (assertNoProtectedPaths py planned.targetPaths)
          Prog.ofExcept (assertDiffSizeOk planned.diffLineEstimate)
          goOn) = .raise error := by
  rw [assertNoProtectedPaths]
  cases hfind : planned.targetPaths.find? fun path => protectedPathPrefixes.any (startsWith path) with
  | some path => exact ⟨_, List.mem_cons_self, by simp [String.ext_iff], rfl⟩
  | none =>
    have hlarge : maxDiffLines < planned.diffLineEstimate := by
      rcases h with ⟨path, hpath, hstarts⟩ | hlarge
      · exact absurd hstarts (List.find?_eq_none.mp hfind path hpath)
      · exact hlarge
    rw [assertDiffSizeOk, if_pos hlarge]
    exact ⟨_, List.mem_cons_of_mem _ List.mem_cons_self, by simp [String.ext_iff], rfl⟩

/-- The reason of a failed plan is a text. -/
theorem planFailed_ne_empty (message : String) : "plan generation failed: " ++ message ≠ "" := by
  simp [String.ext_iff]

/-- A failed plan leads to the end when nothing was asked for or the reply could not be read. -/
theorem ensures_planFailed {error : Exc} (values : Dict) (h : Unasked seen ∨ error.kind = .parseError) :
    (guarded content).Ensures (Leads py actor killswitch .plan values)
      (match blockedBy [.parseError] ("plan generation failed: " ++ ·) error with
        | some outcome => return outcome
        | none => .raise error) seen := by
  by_cases hkind : error.kind = .parseError
  · simp only [blockedBy, hkind, List.mem_singleton_self, if_true]
    exact leads_blocked (planFailed_ne_empty error.message)
  · simp only [blockedBy, List.mem_singleton, hkind, if_false]
    exact h.resolve_right hkind

/-- A caught reply leads to the end. -/
theorem ensures_plan (hcaught : IsCaught py content) (resume : Option Json) (values : Dict) (h : Unasked seen) :
    (guarded content).Ensures (Leads py actor killswitch .plan values)
      ((graph py actor killswitch).body .plan resume values) seen := by
  apply Protocol.ensures_ofExcept_bind
  · exact fun error _ => h
  · intro ticket _
    apply Protocol.ensures_bind.mpr
    apply Protocol.ensures_attempt.mpr
    rcases hcaught with ⟨error, hparse, hkind⟩ | ⟨planned, hparse, hcaught⟩
    · apply (ensures_planTicket hparse ticket h).mono
      intro result seen' hresult
      rcases hresult with rfl | ⟨hunasked, other, rfl⟩
      · exact ensures_planFailed values (.inr hkind)
      · exact ensures_planFailed values (.inl hunasked)
    · apply (ensures_planTicket hparse ticket h).mono
      intro result seen' hresult
      rcases hresult with rfl | ⟨hunasked, other, rfl⟩
      · obtain ⟨error, hkind, hmessage, hchecks⟩ := checks_of_caught py hcaught
          (return .wrote [("plan", planned.asDict)])
        apply Protocol.ensures_handle.mpr
        simp only [hchecks, Protocol.ensures_raise, blockedBy, hkind, if_true]
        exact leads_blocked hmessage
      · exact ensures_planFailed values (.inl hunasked)

/-- Every node on the way leads on. -/
theorem ensures_node (hcaught : IsCaught py content) {node : Node} {values : Dict} (hway : OnWay node values seen)
    (resume : Option Json) (reply : Except Exc Unit) : (guarded content).Ensures (Leads py actor killswitch node values)
      ((graph py actor killswitch).body node resume values)
      (seen ++ [⟨.enter actor (nodeNames.name node), reply⟩]) := by
  rcases hway with ⟨hunasked, hnode⟩ | ⟨rfl, hflag⟩
  · have hentered : Unasked (seen ++ [⟨.enter actor (nodeNames.name node), reply⟩]) := hunasked.snoc rfl
    by_cases hplan : node = .plan
    · subst hplan
      exact ensures_plan hcaught resume values hentered
    · have hmodel : callsModel node = false := by simpa [callsModel] using hplan
      have hquiet : node ∈ [.killswitchGate, .fetchTicket, .checkGuardrails, .citationEnd] := by
        simpa [hplan] using hnode
      have htools : ∀ tool ∈ nodeTools node, ToolSpec.isWrite tool = false := by
        simp only [List.mem_cons, List.not_mem_nil, or_false] at hquiet
        rcases hquiet with rfl | rfl | rfl | rfl <;> decide
      apply (ensures_quietBody hmodel htools resume values hentered).mono
      exact fun outcome seen' hseen => leads_of_unasked hquiet outcome hseen
  · refine ⟨none, rfl, .inr ?_⟩
    rw [Json.merge_nil]
    exact hflag

/-- A caught reply ends every run as it has to end. -/
theorem ensures_ainvoke (hcaught : IsCaught py content) (input : Dict) : (guarded content).Ensures (post content)
    (ainvoke (graph py actor killswitch) (threadSaver nodeNames actor) input) [] := by
  have hempty : Unasked [] := fun event hevent => by cases hevent
  have hload : (guarded content).Ensures (fun _ => Unasked) (threadSaver nodeNames actor).load [] := by
    apply Protocol.ensures_call_bind id
    rintro reply _ ⟨-, rfl⟩
    match reply with
    | .error error => exact hempty.snoc rfl
    | .ok none => exact hempty.snoc rfl
    | .ok (some saved) => exact hempty.snoc rfl
  apply Protocol.ensures_bind.mpr
  apply hload.mono
  intro loaded seen hseen
  cases loaded with
  | error error => exact hseen.post _
  | ok checkpoint =>
    apply Protocol.ensures_bind.mpr
    apply (ensures_saveAfter _ fun _ => rfl).mono
    intro saving seen₂ hsaving
    obtain ⟨failed, rfl, hsaved, hunasked⟩ := hsaving
    have hstep (failed' : Option Exc) (resume : Option Json) (node : Node) (values : Dict) (seen' : List CallEvent)
        (hkept : SavedAll failed' seen' ∧ OnWay node values seen') :=
      @ensures_superstep py actor killswitch content failed' seen' resume node values hkept.1
        fun reply => ensures_node hcaught hkept.2 resume reply
    have hlimit : rank .killswitchGate < recursionLimit := by decide
    exact StateGraph.ensures_advance_of_rank rank hstep recursionLimit failed none .killswitchGate _ seen₂ hlimit
      ⟨hsaved, .inl ⟨hunasked hseen, List.mem_cons_self⟩⟩

/-- A caught reply ends blocked. -/
theorem endsBlocked_of_caught (hcaught : IsCaught py content) : EndsBlocked py content := by
  intro actor killswitch ticketKey events result hrun hanswers
  have hassumed : ∀ event ∈ events, ∀ other, answer? event = some other → other = content := by
    intro event hevent other hother
    have hmem : other ∈ events.filterMap answer? := List.mem_filterMap.mpr ⟨event, hevent, hother⟩
    rw [hanswers] at hmem
    exact List.mem_singleton.mp hmem
  have hrecorded := (ensures_ainvoke hcaught _).recorded hrun hassumed
  refine ⟨hrecorded.1, hrecorded.2 ?_⟩
  have hmem : content ∈ events.filterMap answer? := by rw [hanswers]; exact List.mem_singleton_self content
  exact List.mem_filterMap.mp hmem

end Caught

/-! ## Other replies do not -/

section Uncaught

/-- The actor of a run. -/
def someRun : Actor := ⟨agentName, "run"⟩

/-- A ticket that is cleared for the agent. -/
def clearedTicket : Json := .obj [("labels", .arr [.str "agent-ok"])]

/-- The state before the plan. -/
def beforePlan : Dict := [("ticket_key", .str "T-1"), ("ticket", clearedTicket)]

/-- A node starts. -/
def entered (node : Node) : CallEvent := ⟨.enter someRun (nodeNames.name node), .ok ()⟩

/-- The checkpoint before a node is saved. -/
def savedBefore (node : Node) (values : Dict) : CallEvent :=
  ⟨.putCheckpoint someRun.thread ⟨values, some (nodeNames.name node)⟩, .ok ()⟩

/-- The ticket is fetched. -/
def fetched : CallEvent := ⟨.tool someRun jiraGetIssue [("key", .str "T-1")], .ok clearedTicket⟩

/-- The model replies with a content. -/
def replied (content : String) : CallEvent :=
  ⟨.llm someRun "reasoning" [chatMessage "system" planPrompt, chatMessage "user" "Ticket ?: "]
    [("sensitivity", .str "internal")], .ok ⟨content, .null⟩⟩

/-- What happens before the plan. -/
def wayToPlan : List CallEvent :=
  [⟨.loadCheckpoint someRun.thread, .ok none⟩, savedBefore .killswitchGate [("ticket_key", .str "T-1")],
    entered .killswitchGate, savedBefore .fetchTicket [("ticket_key", .str "T-1")],
    entered .fetchTicket, fetched, savedBefore .checkGuardrails beforePlan,
    entered .checkGuardrails, savedBefore .plan beforePlan]

/-- No call fails before the plan. -/
theorem succeeds_wayToPlan : ∀ event ∈ wayToPlan, Succeeds event := by
  simp [wayToPlan, Succeeds, savedBefore, entered, fetched]

variable {py : Builtins} {content : String} {events : List CallEvent} {result : Except Exc AgentRun} {node next : Node}
  {values : Dict} {writes : Dict}

/-- A node that moves on. -/
theorem runs_moved (hbody : ((graph py someRun none).body node none values).Runs events (.ok (.wrote writes)))
    (hroute : (graph py someRun none).route node (Json.merge values writes) = .ok (some next)) :
    (StateGraph.superstep (graph py someRun none) (threadSaver nodeNames someRun) none none node values).Runs
      (entered node :: (events ++ [savedBefore next (Json.merge values writes)]))
      (.ok (.moved none next (Json.merge values writes))) := by
  have henter : ((threadSaver nodeNames someRun).enter node).Runs [entered node] (.ok ()) := Prog.runs_call.mpr rfl
  have hsave : ((threadSaver nodeNames someRun).save ⟨Json.merge values writes, some next⟩).Runs
      [savedBefore next (Json.merge values writes)] (.ok ()) := Prog.runs_call.mpr rfl
  exact StateGraph.runs_superstep_moved henter hbody hroute hsave

/-- A run comes to the plan. -/
theorem runs_wayToPlan
    (h : (StateGraph.advance (graph py someRun none) (threadSaver nodeNames someRun) graphRecursionError 22 none none
      .plan beforePlan).Runs events result) :
    (ainvoke (graph py someRun none) (threadSaver nodeNames someRun) [("ticket_key", .str "T-1")]).Runs
      (wayToPlan ++ events) result := by
  have hgate := @runs_moved py [] .killswitchGate .fetchTicket [("ticket_key", .str "T-1")] [] (.done _) rfl
  have hfetch := @runs_moved py [fetched] .fetchTicket .checkGuardrails [("ticket_key", .str "T-1")]
    [("ticket", clearedTicket)] (.await (.done _)) rfl
  have hcheck := @runs_moved py [] .checkGuardrails .plan beforePlan [] (.done _) rfl
  have hadvance := StateGraph.runs_advance_moved hgate
    (StateGraph.runs_advance_moved hfetch (StateGraph.runs_advance_moved hcheck h))
  exact .await (.await hadvance)

/-- The planning call brings the reply, which is parsed. -/
theorem runs_planTicket (py : Builtins) (content : String) : (planTicket py someRun clearedTicket).Runs [replied content] (parsePlan py content) := by
  apply Prog.runs_call_bind.mpr
  exact .inr ⟨⟨content, .null⟩, [], rfl, Prog.runs_ofExcept.mpr ⟨rfl, rfl⟩⟩

/-- A reply that raises another exception raises it in the node. -/
theorem runs_plan_error {error : Exc} (hparse : parsePlan py content = .error error) (hkind : error.kind ≠ .parseError) :
    ((graph py someRun none).body .plan none beforePlan).Runs [replied content] (.error error) := by
  have hplan := runs_planTicket py content
  rw [hparse] at hplan
  apply Prog.runs_ofExcept_bind.mpr
  refine .inr ⟨clearedTicket, rfl, Prog.runs_bind.mpr ?_⟩
  refine .inr ⟨[replied content], [], Except.error error, rfl, Prog.runs_attempt.mpr ⟨_, hplan, rfl⟩, ?_⟩
  simp only [blockedBy, List.mem_singleton, hkind, if_false]
  exact .raise error

/-- A plan that is not caught is written to the state. -/
theorem runs_plan_wrote {planned : DevAgentPlan} (hparse : parsePlan py content = .ok planned) (h : ¬ planned.IsCaught) :
    ((graph py someRun none).body .plan none beforePlan).Runs [replied content]
      (.ok (.wrote [("plan", planned.asDict)])) := by
  have hplan := runs_planTicket py content
  rw [hparse] at hplan
  rw [DevAgentPlan.IsCaught, not_or] at h
  have hpaths : assertNoProtectedPaths py planned.targetPaths = .ok () := by
    have hfind : planned.targetPaths.find? (fun path => protectedPathPrefixes.any (startsWith path)) = none :=
      List.find?_eq_none.mpr fun path hpath hstarts => h.1 ⟨path, hpath, hstarts⟩
    rw [assertNoProtectedPaths, hfind]
  have hsize : assertDiffSizeOk planned.diffLineEstimate = .ok () := by rw [assertDiffSizeOk, if_neg h.2]
  apply Prog.runs_ofExcept_bind.mpr
  refine .inr ⟨clearedTicket, rfl, Prog.runs_bind.mpr ?_⟩
  refine .inr ⟨[replied content], [], Except.ok planned, rfl, Prog.runs_attempt.mpr ⟨_, hplan, rfl⟩, ?_⟩
  simp only [hpaths, hsize]
  exact .done _

/-- The branch of a plan is created, or its name is refused; the run fails in both cases. -/
theorem runs_createBranch (py : Builtins) (planned : DevAgentPlan) : ∃ events error,
    ((graph py someRun none).body .createBranch none (Json.merge beforePlan [("plan", planned.asDict)])).Runs events
      (.error error) ∧ (∀ event ∈ events, answer? event = none) ∧
      ((∃ event ∈ events, Writes event.call) ∨ ∀ event ∈ events, Succeeds event) := by
  let branchName := "agent/" ++ planned.branchSuffix ++ "-" ++ "0"
  have hstart {events : List CallEvent} {error : Exc}
      (h : (createBranchTool py someRun branchName baseRef).Runs events (.error error)) :
      ((graph py someRun none).body .createBranch none (Json.merge beforePlan [("plan", planned.asDict)])).Runs
        (⟨.uuidToken, .ok "0"⟩ :: events) (.error error) := by
    apply Prog.runs_call_bind.mpr
    refine .inr ⟨"0", events, rfl, Prog.runs_ofExcept_bind.mpr (.inr ⟨planned.asDict, rfl, ?_⟩)⟩
    apply Prog.runs_ofExcept_bind.mpr
    exact .inr ⟨.str planned.branchSuffix, rfl, Prog.runs_bind.mpr (.inl ⟨error, h, rfl⟩)⟩
  by_cases hname : matchesAgentBranch branchName = true
  · have hcreate : (createBranchTool py someRun branchName baseRef).Runs
        [⟨.tool someRun githubCreateBranch [("branch_name", .str branchName), ("from_ref", .str baseRef)],
          .error ⟨.external, ""⟩⟩] (.error ⟨.external, ""⟩) := by
      rw [createBranchTool, if_pos hname]
      exact Prog.runs_call.mpr rfl
    have hwrites : ToolSpec.isWrite githubCreateBranch = true := by decide
    refine ⟨_, _, hstart hcreate, ?_, .inl ⟨_, List.mem_cons_of_mem _ List.mem_cons_self, hwrites⟩⟩
    simp [answer?]
  · have hcreate : (createBranchTool py someRun branchName baseRef).Runs [] (.error (branchNamePatternError py branchName)) := by
      rw [createBranchTool, if_neg hname]
      exact .raise _
    refine ⟨_, _, hstart hcreate, ?_, .inr ?_⟩
    · simp [answer?]
    · simp [Succeeds]

/-- A reply that is not caught has a run that fails after its answer, with a write or without any failed call. -/
theorem runs_of_not_caught (h : ¬ IsCaught py content) : ∃ events error,
    (ainvoke (graph py someRun none) (threadSaver nodeNames someRun) [("ticket_key", .str "T-1")]).Runs events
      (.error error) ∧ events.filterMap answer? = [content] ∧
      ((∃ event ∈ events, Writes event.call) ∨ ∀ event ∈ events, Succeeds event) := by
  have henter (node : Node) : ((threadSaver nodeNames someRun).enter node).Runs [entered node] (.ok ()) :=
    Prog.runs_call.mpr rfl
  rw [IsCaught, not_or] at h
  cases hparse : parsePlan py content with
  | error error =>
    have hkind : error.kind ≠ .parseError := fun hkind => h.1 ⟨error, hparse, hkind⟩
    have hrun := runs_wayToPlan (StateGraph.runs_advance_error
      (StateGraph.runs_superstep_error (henter .plan) (runs_plan_error hparse hkind)))
    refine ⟨_, error, hrun, rfl, .inr ?_⟩
    simp only [List.forall_mem_append, List.forall_mem_cons]
    exact ⟨succeeds_wayToPlan, ⟨⟨(), rfl⟩, List.forall_mem_nil _⟩, ⟨_, rfl⟩, List.forall_mem_nil _⟩
  | ok planned =>
    have hfree : ¬ planned.IsCaught := fun hcaught => h.2 ⟨planned, hparse, hcaught⟩
    obtain ⟨events, error, hbody, hanswers, hevents⟩ := runs_createBranch py planned
    have hroute : (graph py someRun none).route .plan (Json.merge beforePlan [("plan", planned.asDict)]) =
        .ok (some .createBranch) := rfl
    have hrun := runs_wayToPlan (StateGraph.runs_advance_moved (runs_moved (runs_plan_wrote hparse hfree) hroute)
      (StateGraph.runs_advance_error (StateGraph.runs_superstep_error (henter .createBranch) hbody)))
    refine ⟨_, error, hrun, ?_, ?_⟩
    · have hnone : events.filterMap answer? = [] := List.filterMap_eq_nil_iff.mpr hanswers
      simp only [List.filterMap_append, List.filterMap_cons, List.cons_append, List.nil_append, hnone]
      rfl
    · rcases hevents with ⟨event, hevent, hwrites⟩ | hall
      · exact .inl ⟨event, by simp [hevent], hwrites⟩
      · refine .inr ?_
        simp only [List.forall_mem_append, List.forall_mem_cons]
        exact ⟨succeeds_wayToPlan, ⟨⟨(), rfl⟩, ⟨⟨_, rfl⟩, List.forall_mem_nil _⟩, ⟨(), rfl⟩, List.forall_mem_nil _⟩, ⟨⟨(), rfl⟩, List.forall_mem_nil _⟩, hall⟩

/-- A reply that is not caught does not end blocked. -/
theorem caught_of_endsBlocked (h : EndsBlocked py content) : IsCaught py content := by
  by_contra hcaught
  obtain ⟨events, error, hrun, hanswers, hevents⟩ := runs_of_not_caught hcaught
  obtain ⟨hwrites, hends⟩ := h someRun none "T-1" events _ hrun hanswers
  rcases hevents with ⟨event, hevent, hwrite⟩ | hall
  · exact hwrites event hevent hwrite
  · obtain ⟨run, hresult, -⟩ := hends hall
    cases hresult

end Uncaught

/-- A reply that names a path inside a protected directory, or estimates too large a change, ends the run blocked and
before the branch exactly when it is caught as it was parsed: it is no plan, or one of its paths starts like one in a
protected directory, or its estimate is over the cap as a whole number. -/
theorem forbidden_endsBlocked_iff (py : Builtins) (content : String) :
    (Forbidden py content → EndsBlocked py content) ↔ (Forbidden py content → IsCaught py content) := by
  constructor
  · exact fun h hforbidden => caught_of_endsBlocked (h hforbidden)
  · exact fun h hforbidden => endsBlocked_of_caught (h hforbidden)

/-- A plan for a file in a protected directory, whose path starts with a dot. -/
def dottedReply : String :=
  "\x7b\"branch_suffix\":\"\",\"pr_title\":\"\",\"pr_body\":\"\"," ++
    "\"target_paths\":[\"./infra/a\"],\"diff_line_estimate\":1\x7d"

/-- The fields of that plan. -/
def dottedFields : Dict :=
  [("branch_suffix", .str ""), ("pr_title", .str ""), ("pr_body", .str ""), ("target_paths", .arr [.str "./infra/a"]),
    ("diff_line_estimate", .int 1)]

/-- Built-in functions that convert whole numbers. -/
def wholeNumbers : Builtins where
  repr _ := ""
  lower := id
  float _ := .ok .nan
  int
    | .int n => .ok n
    | _ => .error ⟨.typeError, "int() argument must be a string or a number"⟩

set_option maxRecDepth 20000 in
/-- The plan is read as it is written. -/
theorem loads_dottedReply : Json.loads (stripCodeFence dottedReply) = .ok (.obj dottedFields) := by
  have hfence : fence.isPrefixOf (stripChars dottedReply.toList) = false := by decide +kernel
  have hstrip : stripCodeFence dottedReply = dottedReply := by simp [stripCodeFence, hfence]
  rw [hstrip]
  decide +kernel

/-- A path that starts with a dot is not caught. -/
theorem dottedReply_not_endsBlocked :
    Forbidden wholeNumbers dottedReply ∧ ¬ EndsBlocked wholeNumbers dottedReply := by
  have hparse : parsePlan wholeNumbers dottedReply = .ok ⟨"", "", "", ["./infra/a"], 1⟩ := by
    rw [parsePlan, loadsOr, loads_dottedReply]
    rfl
  constructor
  · refine ⟨dottedFields, loads_dottedReply, .inl ⟨.arr [.str "./infra/a"], by decide, ?_⟩⟩
    exact ⟨"./infra/a", List.mem_singleton_self _, by decide +kernel⟩
  · intro hends
    rcases caught_of_endsBlocked hends with ⟨error, herror, -⟩ | ⟨planned, hplanned, hcaught⟩
    · cases hparse.symm.trans herror
    · cases Except.ok.inj (hparse.symm.trans hplanned)
      rcases hcaught with ⟨path, hpath, hstarts⟩ | hlarge
      · rw [List.mem_singleton.mp hpath] at hstarts
        exact absurd hstarts (by decide)
      · exact absurd hlarge (by decide)

end FleetWorkflow.Agents.DevAgent
