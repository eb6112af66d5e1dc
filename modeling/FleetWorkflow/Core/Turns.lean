import FleetWorkflow.Flow.Fallible
import FleetWorkflow.Core.BaseGraph

/-!
# Turns on one thread of the base graph

A turn invokes the graph on messages and, when the run stops at the interrupt, resumes it with a
decision. Between two turns of a thread only its checkpoint is kept, and a channel that a turn does
not write keeps the value an earlier turn gave it. What a turn does is compared with what it does
on a thread where neither the pause flag nor the rejection flag is set. Nothing is said about turns
that fail.
-/

namespace FleetWorkflow.Core

open Python Async Flow

/-! ## Turns -/

/-- What is sent in one turn, and what the surroundings answer during it. -/
structure Turn where
  messages : Json
  response : LlmResponse
  decision : Json
  pauseCache : Time × Option (Bool × Time)
  redis : String → Option String
  toolResult : ToolSpec → Dict → Json

/-- The checkpoint of a thread during a turn, the nodes entered and the tools executed so far. -/
structure TurnState where
  saved : Option SavedRun
  route : List String
  executed : List (ToolSpec × Dict)

namespace Turn

/-- Answer a call during a turn; the base graph makes no other calls than the ones named. -/
def answer (turn : Turn) (state : TurnState) : (c : Call) → TurnState × Except Exc (Reply c)
  | .loadCheckpoint _ => (state, .ok state.saved)
  | .putCheckpoint _ run => ({ state with saved := some run }, .ok ())
  | .enter _ node => ({ state with route := state.route ++ [node] }, .ok ())
  | .readPauseCache _ _ => (state, .ok turn.pauseCache)
  | .writePauseCache _ _ _ _ => (state, .ok ())
  | .redisGet key => (state, .ok (turn.redis key))
  | .llm _ _ _ _ => (state, .ok turn.response)
  | .tool _ tool args =>
    ({ state with executed := state.executed ++ [(tool, args)] }, .ok (turn.toolResult tool args))
  | _ => (state, .error ⟨.external, "not called"⟩)

/-- Take a turn on a thread with a checkpoint. -/
def take {ν : Type} (graph : AgentGraph ν) (saver : Saver Call Reply Exc ν Dict) (turn : Turn)
    (saved : Option SavedRun) : TurnState × Except Exc AgentRun :=
  match (ainvoke graph saver [("messages", turn.messages)]).run turn.answer ⟨saved, [], []⟩ with
  | (state, .ok ⟨_, some _⟩) => (aresume graph saver turn.decision).run turn.answer state
  | stopped => stopped

/-- A turn is completed on a thread: it neither fails nor stays at the interrupt. -/
def Completes {ν : Type} (graph : AgentGraph ν) (saver : Saver Call Reply Exc ν Dict) (turn : Turn)
    (saved : Option SavedRun) (state : TurnState) : Prop :=
  ∃ values, turn.take graph saver saved = (state, .ok ⟨values, none⟩)

/-- The answer of the kill switch to the pause gate. -/
def findsPaused (turn : Turn) (killswitch : Option KillSwitch) (agent : String) : Bool :=
  match killswitch with
  | none => false
  | some _ =>
    match turn.pauseCache with
    | (time, some (paused, since)) =>
      if time - since < pauseCacheTtl then paused else isFlagSet (turn.redis (pauseKey agent))
    | (_, none) => isFlagSet (turn.redis (pauseKey agent))

/-- The answer of the kill switch to the read-only gate. -/
def findsReadOnly (turn : Turn) : Bool := isFlagSet (turn.redis globalReadOnlyKey)

/-- The model proposes a tool that needs an approval, and the decision is not one. -/
def isRejected (py : Builtins) (spec : AgentSpec) (turn : Turn) : Prop :=
  routeAfterModel py spec [("tool_call", turn.response.toolCall)] = .ok .hitl ∧
    approvedBy turn.decision = .ok false

/-- Two turns with the same messages, model response, decision and answers of the kill switch. -/
structure SameInputs (killswitch : Option KillSwitch) (agent : String) (turn turn' : Turn) : Prop where
  messages : turn.messages = turn'.messages
  response : turn.response = turn'.response
  decision : turn.decision = turn'.decision
  paused : turn.findsPaused killswitch agent = turn'.findsPaused killswitch agent
  readOnly : turn.findsReadOnly = turn'.findsReadOnly

end Turn

/-- A new thread after turns that were all completed. -/
inductive Turns {ν : Type} (graph : AgentGraph ν) (saver : Saver Call Reply Exc ν Dict) :
    List Turn → Option SavedRun → Prop
  | new : Turns graph saver [] none
  | next {past : List Turn} {saved : Option SavedRun} {turn : Turn} {state : TurnState} :
    Turns graph saver past saved → turn.Completes graph saver saved state →
      Turns graph saver (past ++ [turn]) state.saved

/-! ## What a turn does when no flag is left over -/

section Spec

variable (py : Builtins) (spec : AgentSpec) (killswitch : Option KillSwitch) (turn : Turn)

/-- The nodes up to the model call. -/
def modelRoute : List String := ["killswitch_gate", "context_builder", "guardrails_in", "call_model"]

namespace Turn

/-- The route that the model's response asks for. -/
def asksFor : Except Exc BaseNode := routeAfterModel py spec [("tool_call", turn.response.toolCall)]

/-- The tool calls of a turn that gets to the tool. -/
def executions : List (ToolSpec × Dict) :=
  match proposedTool spec [("tool_call", turn.response.toolCall)] with
  | .error _ => []
  | .ok (toolCall, tool) =>
    if killswitch.isSome && startsWith tool.riskClass "write:" && turn.findsReadOnly then []
    else
      match toolCall.getOr "args" (.obj []) >>= Json.kwargs with
      | .error _ => []
      | .ok args => [(tool, args)]

/-- The nodes that a turn enters and the tools that it executes, from its own inputs. -/
def expected : List String × List (ToolSpec × Dict) :=
  if turn.findsPaused killswitch spec.name then (["killswitch_gate"], [])
  else
    match turn.asksFor py spec with
    | .ok .hitl =>
      match approvedBy turn.decision with
      | .ok true =>
        (modelRoute ++ ["hitl", "hitl", "execute_tool", "citation_attach"], turn.executions spec killswitch)
      | _ => (modelRoute ++ ["hitl", "hitl", "citation_attach"], [])
    | .ok .executeTool =>
      (modelRoute ++ ["execute_tool", "citation_attach"], turn.executions spec killswitch)
    | _ => (modelRoute ++ ["citation_attach"], [])

/-- Neither paused nor rejected. -/
def Clean : Prop := turn.findsPaused killswitch spec.name = false ∧ ¬ turn.isRejected py spec

variable {killswitch turn}

/-- What is expected of a turn depends on its inputs only. -/
theorem SameInputs.expected {turn' : Turn} (h : SameInputs killswitch spec.name turn turn') :
    turn.expected py spec killswitch = turn'.expected py spec killswitch := by
  simp only [Turn.expected, Turn.asksFor, Turn.executions, h.response, h.decision, h.paused, h.readOnly]

end Turn

/-- Neither the pause flag nor the rejection flag is set. -/
def Clear (values : Dict) : Prop := Json.flag values "paused" = false ∧ Json.flag values "rejected" = false

/-- The checkpoint of a thread has no flag set. -/
def SavedClear (saved : Option SavedRun) : Prop := ∀ run, saved = some run → Clear run.values

/-- The state holds the call that the model proposed in this turn. -/
def Proposes (values : Dict) : Prop := Json.get? values "tool_call" = some turn.response.toolCall

/-- Where a turn stands when it is about to enter a node. -/
def At (node : BaseNode) (resume : Option Json) (values : Dict) (state : TurnState) : Prop :=
  match node with
  | .killswitchGate => Clear values ∧ state.route = [] ∧ state.executed = []
  | .contextBuilder =>
    Clear values ∧ turn.findsPaused killswitch spec.name = false ∧
      state.route = ["killswitch_gate"] ∧ state.executed = []
  | .guardrailsIn =>
    Clear values ∧ turn.findsPaused killswitch spec.name = false ∧
      state.route = ["killswitch_gate", "context_builder"] ∧ state.executed = []
  | .callModel =>
    Clear values ∧ turn.findsPaused killswitch spec.name = false ∧
      state.route = ["killswitch_gate", "context_builder", "guardrails_in"] ∧ state.executed = []
  | .hitl =>
    Clear values ∧ turn.findsPaused killswitch spec.name = false ∧ Proposes turn values ∧
      turn.asksFor py spec = .ok .hitl ∧ state.executed = [] ∧
      (resume = none ∧ state.route = modelRoute ∨
        resume = some turn.decision ∧ state.route = modelRoute ++ ["hitl"])
  | .executeTool =>
    Clear values ∧ Proposes turn values ∧ state.executed = [] ∧ turn.expected py spec killswitch =
      (state.route ++ ["execute_tool", "citation_attach"], turn.executions spec killswitch)
  | .citationAttach =>
    (turn.Clean py spec killswitch → Clear values) ∧
      turn.expected py spec killswitch = (state.route ++ ["citation_attach"], state.executed)

/-- Where a turn stands after a route. -/
def AtNext (next : Option BaseNode) (values : Dict) (state : TurnState) : Prop :=
  match next with
  | some node => At py spec killswitch turn node none values state
  | none => (turn.Clean py spec killswitch → Clear values) ∧
      turn.expected py spec killswitch = (state.route, state.executed)

/-- What a node leaves: the interrupt with its node to be resumed, or writes after which the turn stands
where the route leads. -/
def LeavesTurn (route : Dict → Except Exc (Option BaseNode)) (saved : Option SavedRun) (values : Dict) :
    Except Exc NodeOutcome → TurnState → Prop
  | .error _, _ => True
  | .ok (.interrupted _), state => state.saved = saved ∧
      (∃ run, saved = some run ∧ run.next = some "hitl" ∧ run.values = values) ∧
      At py spec killswitch turn .hitl (some turn.decision) values state
  | .ok (.wrote writes), state => state.saved = saved ∧
      ∀ next, route (Json.merge values writes) = .ok next →
        AtNext py spec killswitch turn next (Json.merge values writes) state

end Spec

/-! ## One node -/

/-- The answers of a turn. -/
def turnProtocol (turn : Turn) : Protocol Call Reply Exc TurnState where
  allowed _ _ := True
  answers state c reply state' := turn.answer state c = (state', reply)

section Nodes

variable {py : Builtins} {spec : AgentSpec} {killswitch : Option KillSwitch} {turn : Turn}
  {saved : Option SavedRun} {values : Dict} {state : TurnState}

/-- The rule of a call that a turn answers. -/
theorem ensures_answered {β : Type} {c : Call} {f : Reply c → Coroutine β} {post : Except Exc β → TurnState → Prop}
    (h : (turnProtocol turn).after post f (turn.answer state c).2 (turn.answer state c).1) :
    (turnProtocol turn).Ensures post (await c >>= f) state := by
  apply Protocol.ensures_call_bind trivial
  intro reply state' hreply
  have hanswer : turn.answer state c = (state', reply) := hreply
  rw [hanswer] at h
  exact h

/-- The kill switch answers what the turn finds. -/
theorem ensures_isAgentPaused (switch : KillSwitch) (agent : String) :
    (turnProtocol turn).Ensures (fun result state' => state' = state ∧
      result = .ok (turn.findsPaused (some switch) agent)) (switch.isAgentPaused agent) state := by
  apply ensures_answered
  simp only [Turn.answer, Turn.findsPaused]
  have hlookup : ∀ time, (turnProtocol turn).Ensures (fun result state' => state' = state ∧
      result = .ok (isFlagSet (turn.redis (pauseKey agent)))) (switch.lookupPaused agent time) state := by
    intro time
    apply ensures_answered
    apply ensures_answered
    exact ⟨rfl, rfl⟩
  match turn.pauseCache with
  | (time, none) => exact hlookup time
  | (time, some (paused, since)) =>
    by_cases hfresh : time - since < pauseCacheTtl
    · simp only [Protocol.after, if_pos hfresh]
      exact ⟨rfl, rfl⟩
    · simp only [Protocol.after, if_neg hfresh]
      exact hlookup time

/-- The pause gate sets its flag when the turn finds the agent paused. -/
theorem ensures_gate : (turnProtocol turn).Ensures (fun result state' => state' = state ∧
      result = .ok (.wrote (if turn.findsPaused killswitch spec.name then [("paused", .bool true)] else [])))
    (killswitchGate killswitch spec.name) state := by
  cases killswitch with
  | none => exact ⟨rfl, rfl⟩
  | some switch =>
    apply Protocol.ensures_bind.mpr
    apply (ensures_isAgentPaused switch spec.name).mono
    rintro result state' ⟨rfl, rfl⟩
    cases hpaused : turn.findsPaused (some switch) spec.name with
    | true => exact ⟨rfl, rfl⟩
    | false => exact ⟨rfl, rfl⟩

/-- Reading a proposal depends on the proposed call only. -/
theorem proposedTool_of_proposes (h : Proposes turn values) :
    proposedTool spec values = proposedTool spec [("tool_call", turn.response.toolCall)] := by
  have hcall : Json.get? values "tool_call" = some turn.response.toolCall := h
  have hread : Json.get? [("tool_call", turn.response.toolCall)] "tool_call" = some turn.response.toolCall := rfl
  simp only [proposedTool, Json.field, hcall, hread]

/-- The route after the model depends on the proposed call only. -/
theorem routeAfterModel_of_proposes (h : Proposes turn values) :
    routeAfterModel py spec values = turn.asksFor py spec := by
  have hcall : Json.get? values "tool_call" = some turn.response.toolCall := h
  have hread : Json.get? [("tool_call", turn.response.toolCall)] "tool_call" = some turn.response.toolCall := rfl
  simp only [Turn.asksFor, routeAfterModel, hcall, hread]

/-- Writes to other channels leave both flags as they are. -/
theorem Clear.merge {writes : Dict} (h : Clear values)
    (hwrites : ∀ write ∈ writes, "paused" ≠ write.1 ∧ "rejected" ≠ write.1) : Clear (Json.merge values writes) := by
  induction writes generalizing values with
  | nil => exact h
  | cons write rest ih =>
    obtain ⟨hpaused, hrejected⟩ := hwrites write (by simp)
    rw [Json.merge_cons]
    apply ih
    · refine ⟨?_, ?_⟩
      · rw [Json.flag_insert values write.1 "paused" write.2 hpaused]
        exact h.1
      · rw [Json.flag_insert values write.1 "rejected" write.2 hrejected]
        exact h.2
    · exact fun other hother => hwrites other (List.mem_cons_of_mem _ hother)

/-- A set pause flag ends the turn at the gate; else the turn goes on. -/
theorem atNext_gate (hclear : Clear values) (hroute : state.route = ["killswitch_gate"])
    (hexecuted : state.executed = []) {writes : Dict} {next : Option BaseNode}
    (hwrites : writes = if turn.findsPaused killswitch spec.name then [("paused", .bool true)] else [])
    (hnext : next = if Json.flag (Json.merge values writes) "paused" then none else some .contextBuilder) :
    AtNext py spec killswitch turn next (Json.merge values writes) state := by
  cases hpaused : turn.findsPaused killswitch spec.name with
  | true =>
    rw [hpaused, if_pos rfl] at hwrites
    have hflag : Json.flag (Json.merge values writes) "paused" = true := by
      rw [hwrites, Json.merge_cons, Json.merge_nil]
      simp [Json.flag, Json.get?_insert, Json.truthy]
    rw [hflag, if_pos rfl] at hnext
    subst hnext
    refine ⟨fun hclean => ?_, ?_⟩
    · rw [hclean.1] at hpaused
      cases hpaused
    · simp only [Turn.expected, hpaused, if_pos, hroute, hexecuted]
  | false =>
    rw [hpaused, if_neg Bool.false_ne_true] at hwrites
    subst hwrites
    rw [Json.merge_nil, hclear.1, if_neg Bool.false_ne_true] at hnext
    subst hnext
    exact ⟨hclear, hpaused, hroute, hexecuted⟩

/-- The routes after the model. -/
theorem cases_of_routeAfterModel {next : BaseNode} (h : routeAfterModel py spec values = .ok next) :
    next = .hitl ∨ next = .executeTool ∨ next = .citationAttach := by
  unfold routeAfterModel at h
  split at h
  · cases h
    simp
  · split at h
    · cases h
      simp
    · obtain ⟨name, -, h⟩ := bind_eq_ok.mp h
      split at h
      · cases h
        simp
      · obtain ⟨needed, -, h⟩ := bind_eq_ok.mp h
        cases needed <;> cases h <;> simp

/-- The route after the model. -/
theorem atNext_callModel (hclear : Clear values) (hpaused : turn.findsPaused killswitch spec.name = false)
    (hproposes : Proposes turn values) (hroute : state.route = modelRoute) (hexecuted : state.executed = [])
    {next : BaseNode} (hnext : turn.asksFor py spec = .ok next) :
    AtNext py spec killswitch turn (some next) values state := by
  rcases cases_of_routeAfterModel hnext with rfl | rfl | rfl
  · exact ⟨hclear, hpaused, hproposes, hnext, hexecuted, .inl ⟨rfl, hroute⟩⟩
  · refine ⟨hclear, hproposes, hexecuted, ?_⟩
    simp only [Turn.expected, hpaused, hnext, Bool.false_eq_true, if_false, hroute]
  · refine ⟨fun _ => hclear, ?_⟩
    simp only [Turn.expected, hpaused, hnext, Bool.false_eq_true, if_false, hroute, hexecuted]

/-- The decision at the interrupt: an approval leads to the tool, a rejection past it. -/
theorem atNext_hitl (hclear : Clear values) (hpaused : turn.findsPaused killswitch spec.name = false)
    (hproposes : Proposes turn values) (hasks : turn.asksFor py spec = .ok .hitl)
    (hroute : state.route = modelRoute ++ ["hitl", "hitl"]) (hexecuted : state.executed = [])
    {writes : Dict} (hwrites : dropUnlessApproved turn.decision = .ok writes) :
    AtNext py spec killswitch turn
      (some (if Json.flag (Json.merge values writes) "rejected" then .citationAttach else .executeTool))
      (Json.merge values writes) state := by
  obtain ⟨approved, happroved, hwrites⟩ := bind_eq_ok.mp hwrites
  cases approved with
  | true =>
    cases hwrites
    rw [Json.merge_nil, hclear.2, if_neg Bool.false_ne_true]
    refine ⟨hclear, hproposes, hexecuted, ?_⟩
    simp only [Turn.expected, hpaused, hasks, happroved, Bool.false_eq_true, if_false, hroute]
    rfl
  | false =>
    cases hwrites
    have hflag : Json.flag (Json.merge values [("rejected", .bool true), ("tool_call", .null)]) "rejected" = true := by
      simp [Json.flag, Json.merge_cons, Json.merge_nil, Json.get?_insert, Json.truthy]
    rw [hflag, if_pos rfl]
    refine ⟨fun hclean => absurd ⟨hasks, happroved⟩ hclean.2, ?_⟩
    simp only [Turn.expected, hpaused, hasks, happroved, Bool.false_eq_true, if_false, hroute, hexecuted]
    rfl

/-- The interrupt stops a run that was not resumed, and goes on with the decision of one that was. -/
theorem leaves_hitl {resume : Option Json} {route : List String} (hnext : ∃ run, state.saved = some run ∧
      run.next = some "hitl" ∧ run.values = values)
    (h : At py spec killswitch turn .hitl resume values { state with route := route })
    (hroute : state.route = route ++ ["hitl"]) :
    (turnProtocol turn).Ensures (LeavesTurn py spec killswitch turn
      (fun values => .ok (some (if Json.flag values "rejected" then .citationAttach else .executeTool)))
      state.saved values) (hitl spec resume values) state := by
  obtain ⟨hclear, hpaused, hproposes, hasks, hexecuted, hresume⟩ := h
  apply Protocol.ensures_ofExcept_bind (fun _ _ => trivial)
  intro found hfound
  apply Protocol.ensures_ofExcept_bind (fun _ _ => trivial)
  intro name hname
  apply Protocol.ensures_ofExcept_bind (fun _ _ => trivial)
  intro args hargs
  rcases hresume with ⟨rfl, rfl⟩ | ⟨rfl, rfl⟩
  · exact ⟨rfl, hnext, hclear, hpaused, hproposes, hasks, hexecuted, .inr ⟨rfl, hroute⟩⟩
  · apply Protocol.ensures_ofExcept_bind (fun _ _ => trivial)
    intro writes hwrites
    refine ⟨rfl, fun next hnext => ?_⟩
    cases hnext
    exact atNext_hitl hclear hpaused hproposes hasks hroute hexecuted hwrites

/-- The read-only gate answers what the turn finds. -/
theorem ensures_blocksTool_turn (riskClass : String) :
    (turnProtocol turn).Ensures (fun result state' => state' = state ∧
      result = .ok (startsWith riskClass "write:" && turn.findsReadOnly)) (KillSwitch.blocksTool riskClass) state := by
  unfold KillSwitch.blocksTool
  cases hwrite : startsWith riskClass "write:" with
  | true =>
    rw [if_pos rfl]
    apply ensures_answered
    exact ⟨rfl, rfl⟩
  | false =>
    rw [if_neg Bool.false_ne_true]
    exact ⟨rfl, rfl⟩

/-- The tool node executes what the turn is expected to execute. -/
theorem leaves_executeTool {actor : Actor} {resume : Option Json} {route : List String}
    (h : At py spec killswitch turn .executeTool resume values { state with route := route })
    (hroute : state.route = route ++ ["execute_tool"]) :
    (turnProtocol turn).Ensures (LeavesTurn py spec killswitch turn (fun _ => .ok (some .citationAttach))
      state.saved values) (executeTool spec killswitch actor values) state := by
  obtain ⟨hclear, hproposes, hexecuted, hexpected⟩ := h
  have hexpected : turn.expected py spec killswitch =
      (state.route ++ ["citation_attach"], turn.executions spec killswitch) := by
    rw [hexpected, hroute]
    simp
  unfold executeTool
  rw [proposedTool_of_proposes hproposes]
  apply Protocol.ensures_ofExcept_bind (fun _ _ => trivial)
  rintro ⟨toolCall, tool⟩ hfound
  have hexecutions : turn.executions spec killswitch =
      if killswitch.isSome && startsWith tool.riskClass "write:" && turn.findsReadOnly then []
      else
        match toolCall.getOr "args" (.obj []) >>= Json.kwargs with
        | .error _ => []
        | .ok args => [(tool, args)] := by
    simp only [Turn.executions, hfound]
  have hafter : ∀ blocked, blocked = (killswitch.isSome && startsWith tool.riskClass "write:" && turn.findsReadOnly) →
      (turnProtocol turn).Ensures (LeavesTurn py spec killswitch turn (fun _ => .ok (some .citationAttach))
        state.saved values)
        (if blocked = true then return .wrote [("blocked_read_only", .bool true)]
        else do
          let args ← Prog.ofExcept (toolCall.getOr "args" (.obj []))
          let args ← Prog.ofExcept args.kwargs
          let result ← await (.tool actor tool args)
          return .wrote [("tool_result", result)] : Coroutine NodeOutcome) state := by
    intro blocked hblocked
    rw [← hblocked] at hexecutions
    cases blocked with
    | true =>
      rw [if_pos rfl] at hexecutions
      refine ⟨rfl, fun next hnext => ?_⟩
      cases hnext
      refine ⟨fun _ => hclear.merge (by simp), ?_⟩
      rw [hexpected, hexecutions, hexecuted]
    | false =>
      rw [if_neg Bool.false_ne_true] at hexecutions ⊢
      apply Protocol.ensures_ofExcept_bind (fun _ _ => trivial)
      intro args hargs
      apply Protocol.ensures_ofExcept_bind (fun _ _ => trivial)
      intro kwargs hkwargs
      rw [bind_eq_ok.mpr ⟨args, hargs, hkwargs⟩] at hexecutions
      apply ensures_answered
      refine ⟨rfl, fun next hnext => ?_⟩
      cases hnext
      refine ⟨fun _ => hclear.merge (by simp), ?_⟩
      rw [hexpected, hexecutions]
      have hnone : state.executed = [] := hexecuted
      simp only [Turn.answer, hnone, List.nil_append]
  cases killswitch with
  | none => exact hafter false rfl
  | some switch =>
    apply Protocol.ensures_bind.mpr
    apply (ensures_blocksTool_turn tool.riskClass).mono
    rintro result state' ⟨rfl, rfl⟩
    exact hafter _ rfl

variable {detectInjection : Json → Except Exc Bool}

/-- Every node leaves the turn where its route leads. -/
theorem leaves_body (actor : Actor) (state : TurnState) {node : BaseNode} {resume : Option Json} {route : List String}
    (hsaved : ∃ run, state.saved = some run ∧ run.next = some (baseNodes.name node) ∧ run.values = values)
    (h : At py spec killswitch turn node resume values { state with route := route })
    (hroute : state.route = route ++ [baseNodes.name node]) :
    (turnProtocol turn).Ensures
      (LeavesTurn py spec killswitch turn ((buildGraph py detectInjection spec killswitch actor).route node)
        state.saved values)
      ((buildGraph py detectInjection spec killswitch actor).body node resume values) state := by
  cases node with
  | killswitchGate =>
    obtain ⟨hclear, hbefore, hexecuted⟩ := h
    have hbefore : route = [] := hbefore
    subst hbefore
    apply ensures_gate.mono
    rintro result state' ⟨rfl, rfl⟩
    refine ⟨rfl, fun next hnext => ?_⟩
    exact atNext_gate hclear hroute hexecuted rfl (Except.ok.inj hnext).symm
  | contextBuilder =>
    obtain ⟨hclear, hpaused, hbefore, hexecuted⟩ := h
    have hbefore : route = _ := hbefore
    subst hbefore
    refine ⟨rfl, fun next hnext => ?_⟩
    cases hnext
    exact ⟨hclear, hpaused, hroute, hexecuted⟩
  | guardrailsIn =>
    obtain ⟨hclear, hpaused, hbefore, hexecuted⟩ := h
    have hbefore : route = _ := hbefore
    subst hbefore
    apply Protocol.ensures_ofExcept_bind (fun _ _ => trivial)
    intro messages hmessages
    apply Protocol.ensures_ofExcept_bind (fun _ _ => trivial)
    intro items hitems
    apply Protocol.ensures_ofExcept_bind (fun _ _ => trivial)
    intro content hcontent
    apply Protocol.ensures_ofExcept_bind (fun _ _ => trivial)
    intro flagged hflagged
    refine ⟨rfl, fun next hnext => ?_⟩
    cases hnext
    exact ⟨hclear.merge (by simp), hpaused, hroute, hexecuted⟩
  | callModel =>
    obtain ⟨hclear, hpaused, hbefore, hexecuted⟩ := h
    have hbefore : route = _ := hbefore
    subst hbefore
    apply Protocol.ensures_ofExcept_bind (fun _ _ => trivial)
    intro messages hmessages
    apply Protocol.ensures_ofExcept_bind (fun _ _ => trivial)
    intro items hitems
    apply ensures_answered
    refine ⟨rfl, fun next hnext => ?_⟩
    obtain ⟨node, hnode, hsome⟩ := map_eq_ok.mp hnext
    cases hsome
    have hproposes : Proposes turn (Json.merge values
        [("text", .str turn.response.content), ("tool_call", turn.response.toolCall)]) := by
      simp [Proposes, Json.merge_cons, Json.merge_nil, Json.get?_insert]
    apply atNext_callModel _ hpaused hproposes hroute hexecuted
    · rw [← routeAfterModel_of_proposes hproposes]
      exact hnode
    · exact hclear.merge (by simp)
  | hitl => exact leaves_hitl hsaved h hroute
  | executeTool => exact leaves_executeTool h hroute
  | citationAttach =>
    obtain ⟨hclear, hexpected⟩ := h
    refine ⟨rfl, fun next hnext => ?_⟩
    cases hnext
    refine ⟨fun hclean => (hclear hclean).merge (by simp), ?_⟩
    rw [hexpected, hroute]
    rfl

/-! ## Runs and turns -/

variable (py spec killswitch turn)

/-- Before a node: every save so far succeeded, and the last one saved this node. -/
def BeforeNode (failed : Option Exc) (resume : Option Json) (node : BaseNode) (values : Dict)
    (state : TurnState) : Prop :=
  failed = none ∧ state.saved = some ⟨values, some (baseNodes.name node)⟩ ∧
    At py spec killswitch turn node resume values state

/-- After a run: the interrupt is saved to be resumed, or the turn did what is expected of it. -/
def AfterRun : Except Exc AgentRun → TurnState → Prop
  | .error _, _ => True
  | .ok ⟨_, some _⟩, state => ∃ values, state.saved = some ⟨values, some (baseNodes.name .hitl)⟩ ∧
      At py spec killswitch turn .hitl (some turn.decision) values state
  | .ok ⟨_, none⟩, state => (turn.Clean py spec killswitch → SavedClear state.saved) ∧
      turn.expected py spec killswitch = (state.route, state.executed)

variable {py spec killswitch turn}

/-- A save during a turn succeeds. -/
theorem ensures_saved_turn {β : Type} (actor : Actor) {checkpoint : Checkpoint BaseNode Dict}
    {f : Option Exc → Coroutine β} {post : Except Exc β → TurnState → Prop}
    (h : (turnProtocol turn).Ensures post (f none)
      { state with saved := some ⟨checkpoint.values, checkpoint.next.map baseNodes.name⟩ }) :
    (turnProtocol turn).Ensures post
      (StateGraph.saveAfter (threadSaver baseNodes actor) none checkpoint >>= f) state := by
  refine ⟨trivial, fun reply state' hreply => ?_⟩
  cases hreply
  exact h

/-- One superstep leads to the next node or to the end. -/
theorem ensures_superstep_turn (actor : Actor) (failed : Option Exc) (resume : Option Json) (node : BaseNode)
    (values : Dict) (state : TurnState) (h : BeforeNode py spec killswitch turn failed resume node values state) :
    (turnProtocol turn).Ensures
      (StateGraph.Steps (BeforeNode py spec killswitch turn) (AfterRun py spec killswitch turn))
      (StateGraph.superstep (buildGraph py detectInjection spec killswitch actor)
        (threadSaver baseNodes actor) failed resume node values) state := by
  obtain ⟨rfl, hsaved, hat⟩ := h
  have hbody : (turnProtocol turn).Ensures
      (LeavesTurn py spec killswitch turn ((buildGraph py detectInjection spec killswitch actor).route node)
        state.saved values)
      ((buildGraph py detectInjection spec killswitch actor).body node resume values)
      { state with route := state.route ++ [baseNodes.name node] } :=
    leaves_body actor { state with route := state.route ++ [baseNodes.name node] } ⟨_, hsaved, rfl, rfl⟩ hat rfl
  apply ensures_answered
  apply Protocol.ensures_bind.mpr
  apply hbody.mono
  intro result state' hleaves
  match result with
  | .error error => trivial
  | .ok (.interrupted payload) =>
    obtain ⟨hkept, ⟨run, hrun, hnext, hvalues⟩, hhitl⟩ := hleaves
    refine ⟨values, ?_, hhitl⟩
    rw [hkept, hrun, ← hvalues]
    simp [baseNodes, ← hnext]
  | .ok (.wrote writes) =>
    obtain ⟨hkept, hleads⟩ := hleaves
    apply Protocol.ensures_ofExcept_bind (fun _ _ => trivial)
    intro next hnext
    have hlead := hleads next hnext
    apply ensures_saved_turn
    cases next with
    | none =>
      refine ⟨fun hclean run hrun => ?_, hlead.2⟩
      cases Option.some.inj hrun
      exact hlead.1 hclean
    | some next => exact ⟨rfl, rfl, hlead⟩

/-- A run from a node. -/
theorem ensures_advance_turn (actor : Actor) {resume : Option Json} {node : BaseNode}
    (h : BeforeNode py spec killswitch turn none resume node values state) :
    (turnProtocol turn).Ensures (AfterRun py spec killswitch turn)
      (StateGraph.advance (buildGraph py detectInjection spec killswitch actor)
        (threadSaver baseNodes actor) graphRecursionError recursionLimit none resume node values) state :=
  StateGraph.ensures_advance (ensures_superstep_turn actor) (fun _ _ _ _ _ _ => trivial)
    recursionLimit none resume node values state h

/-- The messages of a turn set no flag. -/
theorem Clear.merge_messages (h : Clear values) (messages : Json) :
    Clear (Json.merge values [("messages", messages)]) :=
  h.merge (by simp)

/-- The invocation of a turn on a checkpoint without a flag. -/
theorem ensures_ainvoke_turn (actor : Actor) (hclear : SavedClear saved) :
    (turnProtocol turn).Ensures (AfterRun py spec killswitch turn)
      (ainvoke (buildGraph py detectInjection spec killswitch actor) (threadSaver baseNodes actor)
        [("messages", turn.messages)]) ⟨saved, [], []⟩ := by
  apply Protocol.ensures_bind.mpr
  apply ensures_answered
  cases saved with
  | none =>
    apply ensures_saved_turn
    apply ensures_advance_turn
    have hnew : Clear ([] : Dict) := ⟨rfl, rfl⟩
    exact ⟨rfl, rfl, hnew.merge_messages _, rfl, rfl⟩
  | some run =>
    apply ensures_saved_turn
    apply ensures_advance_turn
    exact ⟨rfl, rfl, (hclear run rfl).merge_messages _, rfl, rfl⟩

/-- The resumption of a turn at its interrupt. -/
theorem ensures_aresume_turn (actor : Actor)
    (hsaved : state.saved = some ⟨values, some (baseNodes.name .hitl)⟩)
    (hat : At py spec killswitch turn .hitl (some turn.decision) values state) :
    (turnProtocol turn).Ensures (AfterRun py spec killswitch turn)
      (aresume (buildGraph py detectInjection spec killswitch actor) (threadSaver baseNodes actor)
        turn.decision) state := by
  apply Protocol.ensures_bind.mpr
  apply ensures_answered
  simp only [Turn.answer, hsaved]
  exact ensures_advance_turn actor ⟨rfl, hsaved, hat⟩

/-- A coroutine run in a turn ends in what it ensures. -/
theorem run_of_ensures {α : Type} {p : Coroutine α} {post : Except Exc α → TurnState → Prop}
    (h : (turnProtocol turn).Ensures post p state) :
    post (p.run turn.answer state).2 (p.run turn.answer state).1 :=
  (h.run id (fun _ => True) (fun _ _ _ _ => ⟨rfl, trivial⟩) trivial).1

/-- A turn that is completed on a checkpoint without a flag does what is expected of it, and leaves no
flag when it is neither paused nor rejected. -/
theorem completes_of_clear (actor : Actor) (hclear : SavedClear saved)
    (h : turn.Completes (buildGraph py detectInjection spec killswitch actor) (threadSaver baseNodes actor)
      saved state) :
    (turn.Clean py spec killswitch → SavedClear state.saved) ∧
      turn.expected py spec killswitch = (state.route, state.executed) := by
  obtain ⟨values, h⟩ := h
  have hinvoke : AfterRun py spec killswitch turn
      ((ainvoke (buildGraph py detectInjection spec killswitch actor) (threadSaver baseNodes actor)
        [("messages", turn.messages)]).run turn.answer ⟨saved, [], []⟩).2
      ((ainvoke (buildGraph py detectInjection spec killswitch actor) (threadSaver baseNodes actor)
        [("messages", turn.messages)]).run turn.answer ⟨saved, [], []⟩).1 :=
    run_of_ensures (ensures_ainvoke_turn actor hclear)
  unfold Turn.take at h
  split at h
  · rename_i waiting stoppedAt payload hstopped
    rw [hstopped] at hinvoke
    obtain ⟨values', hsaved, hat⟩ := hinvoke
    have hresume : AfterRun py spec killswitch turn
        ((aresume (buildGraph py detectInjection spec killswitch actor) (threadSaver baseNodes actor)
          turn.decision).run turn.answer waiting).2
        ((aresume (buildGraph py detectInjection spec killswitch actor) (threadSaver baseNodes actor)
          turn.decision).run turn.answer waiting).1 :=
      run_of_ensures (ensures_aresume_turn actor hsaved hat)
    rw [h] at hresume
    exact hresume
  · rw [h] at hinvoke
    exact hinvoke

end Nodes

/-! ## Threads -/

section Threads

variable {py : Builtins} {detectInjection : Json → Except Exc Bool} {spec : AgentSpec}
  {killswitch : Option KillSwitch} {actor : Actor}

/-- Completed turns that were neither paused nor rejected leave no flag. -/
theorem Turns.savedClear {past : List Turn} {saved : Option SavedRun}
    (h : Turns (buildGraph py detectInjection spec killswitch actor) (threadSaver baseNodes actor) past saved)
    (hclean : ∀ earlier ∈ past, earlier.Clean py spec killswitch) : SavedClear saved := by
  induction h with
  | new =>
    intro run hrun
    cases hrun
  | next hpast hturn ih =>
    have hclear := ih fun earlier hearlier => hclean earlier (by simp [hearlier])
    exact (completes_of_clear actor hclear hturn).1 (hclean _ (by simp))

/-- On two threads whose earlier turns were neither paused nor rejected, two completed turns with the
same messages, model response, decision and answers of the kill switch enter the same nodes and
execute the same tools with the same arguments. -/
theorem turns_independent {past past' : List Turn} {saved saved' : Option SavedRun} {turn turn' : Turn}
    {state state' : TurnState}
    (hpast : Turns (buildGraph py detectInjection spec killswitch actor) (threadSaver baseNodes actor) past saved)
    (hpast' : Turns (buildGraph py detectInjection spec killswitch actor) (threadSaver baseNodes actor) past' saved')
    (hclean : ∀ earlier ∈ past, earlier.Clean py spec killswitch)
    (hclean' : ∀ earlier ∈ past', earlier.Clean py spec killswitch)
    (hsame : Turn.SameInputs killswitch spec.name turn turn')
    (hturn : turn.Completes (buildGraph py detectInjection spec killswitch actor)
      (threadSaver baseNodes actor) saved state)
    (hturn' : turn'.Completes (buildGraph py detectInjection spec killswitch actor)
      (threadSaver baseNodes actor) saved' state') :
    state.route = state'.route ∧ state.executed = state'.executed := by
  have hstate := (completes_of_clear actor (hpast.savedClear hclean) hturn).2
  have hstate' := (completes_of_clear actor (hpast'.savedClear hclean') hturn').2
  rw [hsame.expected py spec] at hstate
  have heq := hstate.symm.trans hstate'
  exact ⟨congrArg Prod.fst heq, congrArg Prod.snd heq⟩

end Threads

/-! ## Turns that leave a flag -/

/-- The graph of an agent with one tool that writes outside the platform. -/
def mailer : AgentGraph BaseNode :=
  buildGraph ⟨fun _ => "", id, fun _ => .error ⟨.valueError, ""⟩, fun _ => .error ⟨.valueError, ""⟩⟩
    (fun _ => .ok false) ⟨"mailer", "", "reasoning", [⟨"email.send", "write:external"⟩], .decimal false 0 0, false, []⟩
    (some ⟨0⟩) ⟨"mailer", "t"⟩

/-- A turn in which the model proposes the tool. -/
def mailerTurn (paused approved : Bool) : Turn where
  messages := .arr []
  response := ⟨"", .obj [("name", .str "email.send"), ("args", .obj [])]⟩
  decision := .obj [("approved", .bool approved)]
  pauseCache := (0, none)
  redis key := if paused && key = pauseKey "mailer" then some "1" else none
  toolResult _ _ := .null

/-- After a completed turn that was neither paused nor rejected, a turn goes as on a new thread. -/
theorem mailerTurn_independent : ∃ saved state state',
    Turns mailer (threadSaver baseNodes ⟨"mailer", "t"⟩) [mailerTurn false true] saved ∧
    (mailerTurn false false).Completes mailer (threadSaver baseNodes ⟨"mailer", "t"⟩) saved state ∧
    (mailerTurn false false).Completes mailer (threadSaver baseNodes ⟨"mailer", "t"⟩) none state' ∧
    state.route = state'.route ∧ state.executed = state'.executed := by
  have hpast : Turns mailer (threadSaver baseNodes ⟨"mailer", "t"⟩) [mailerTurn false true]
      ((mailerTurn false true).take mailer (threadSaver baseNodes ⟨"mailer", "t"⟩) none).1.saved :=
    .next .new ⟨_, rfl⟩
  have hsame : Turn.SameInputs (some ⟨0⟩) "mailer" (mailerTurn false false) (mailerTurn false false) :=
    ⟨rfl, rfl, rfl, rfl, rfl⟩
  refine ⟨_, _, _, hpast, ⟨_, rfl⟩, ⟨_, rfl⟩, ?_⟩
  refine turns_independent hpast .new ?_ (by simp) hsame ⟨_, rfl⟩ ⟨_, rfl⟩
  intro earlier hearlier
  cases List.mem_singleton.mp hearlier
  exact ⟨rfl, fun h => by cases h.2⟩

/-- The same approved turn goes through the whole graph on a new thread, stops at the gate of a thread
with a paused turn, and leaves its tool out on a thread with a rejected turn. -/
theorem mailerTurn_depends_on_earlier : ∃ savedPaused savedRejected new afterPaused afterRejected,
    Turns mailer (threadSaver baseNodes ⟨"mailer", "t"⟩) [mailerTurn true true] savedPaused ∧
    Turns mailer (threadSaver baseNodes ⟨"mailer", "t"⟩) [mailerTurn false false] savedRejected ∧
    (mailerTurn false true).Completes mailer (threadSaver baseNodes ⟨"mailer", "t"⟩) none new ∧
    (mailerTurn false true).Completes mailer (threadSaver baseNodes ⟨"mailer", "t"⟩) savedPaused afterPaused ∧
    (mailerTurn false true).Completes mailer (threadSaver baseNodes ⟨"mailer", "t"⟩) savedRejected afterRejected ∧
    new.route = modelRoute ++ ["hitl", "hitl", "execute_tool", "citation_attach"] ∧
    new.executed = [(⟨"email.send", "write:external"⟩, [])] ∧
    afterPaused.route = ["killswitch_gate"] ∧
    afterRejected.route = modelRoute ++ ["hitl", "hitl", "citation_attach"] ∧
    afterRejected.executed = [] := by
  refine ⟨_, _, _, _, _, .next .new ⟨_, rfl⟩, .next .new ⟨_, rfl⟩, ⟨_, rfl⟩, ⟨_, rfl⟩, ⟨_, rfl⟩, ?_⟩
  exact ⟨rfl, rfl, rfl, rfl, rfl⟩

end FleetWorkflow.Core
