import FleetWorkflow.Flow.Fallible
import FleetWorkflow.Core.BaseGraph

/-!
# What the base graph executes

One thread of a base graph over any sequence of invocations and resumes. The thread's checkpoint is
kept as it was saved; every other reply, and every failure, is arbitrary. The history lists the
sessions and their calls, and from the history alone follows which proposal of the model is under
way and whether its approval was given: the safety of the tool calls is stated in these terms.
-/

namespace FleetWorkflow.Core

open Python Async Flow

/-! ## Sessions on one thread -/

/-- One call of `ainvoke` on the thread. -/
inductive Session where
  | invoke (input : Dict)
  | resume (decision : Json)

/-- One entry of the history: a session opens on the saved checkpoint, or a call is answered. -/
inductive Entry where
  | opened (session : Session) (saved : Option SavedRun)
  | called (event : CallEvent)

/-- The state of a thread: what is saved, and what happened so far. -/
structure Thread where
  tick : ℕ
  saved : Option SavedRun
  history : List Entry

/-- What the surroundings would reply at each tick. -/
abbrev Replies := ℕ → (c : Call) → Except Exc (Reply c)

/-- The checkpoint store: a successful load returns what was saved, a successful save replaces it. -/
def checkpointStore (saved : Option SavedRun) :
    (c : Call) → Except Exc (Reply c) → Option SavedRun × Except Exc (Reply c)
  | .loadCheckpoint _, reply => (saved, reply.map fun _ => saved)
  | .putCheckpoint _ _, .error error => (saved, .error error)
  | .putCheckpoint _ run, .ok value => (some run, .ok value)
  | _, reply => (saved, reply)

/-- Answer one call on the thread. -/
def Thread.answer (replies : Replies) (thread : Thread) (c : Call) : Thread × Except Exc (Reply c) :=
  let stored := checkpointStore thread.saved c (replies thread.tick c)
  (⟨thread.tick + 1, stored.1, thread.history ++ [.called ⟨c, stored.2⟩]⟩, stored.2)

/-- Open a session on what is saved. -/
def Thread.open (thread : Thread) (session : Session) : Thread :=
  { thread with history := thread.history ++ [.opened session thread.saved] }

/-- The coroutine of a session. -/
def Session.task {ν : Type} (graph : AgentGraph ν) (saver : Saver Call Reply Exc ν Dict) :
    Session → Coroutine AgentRun
  | .invoke input => ainvoke graph saver input
  | .resume decision => aresume graph saver decision

/-- Serve sessions one after another. -/
def Thread.serve {ν : Type} (graph : AgentGraph ν) (saver : Saver Call Reply Exc ν Dict)
    (replies : Replies) (thread : Thread) (sessions : List Session) : Thread :=
  sessions.foldl (fun thread session =>
    ((session.task graph saver).run (Thread.answer replies) (thread.open session)).1) thread

/-! ## Which proposal is under way -/

/-- A tool call that the model proposed, and whether the decision on it was an approval. -/
structure Proposal where
  toolCall : Json
  approved : Bool

/-- The proposal that the running session works on, and the one that the checkpoint holds. -/
structure Standing where
  live : Option Proposal
  saved : Option Proposal

/-- A resume value counts as an approval when its `approved` has a true value. -/
def isApproval (decision : Json) : Bool :=
  match approvedBy decision with
  | .ok approved => approved
  | .error _ => false

/-- A resume takes up the saved proposal, and decides it when the thread waits at the interrupt; a
model call makes a new proposal, which nobody has decided; a save stores the proposal under way. -/
def Standing.note (standing : Standing) : Entry → Standing
  | .opened (.invoke _) _ => { standing with live := none }
  | .opened (.resume decision) saved =>
    if saved.bind Checkpoint.next = some "hitl" then
      { standing with live := standing.saved.map fun proposal => ⟨proposal.toolCall, isApproval decision⟩ }
    else { standing with live := standing.saved }
  | .called ⟨.llm _ _ _ _, .ok response⟩ => { standing with live := some ⟨response.toolCall, false⟩ }
  | .called ⟨.putCheckpoint _ _, .ok _⟩ => { standing with saved := standing.live }
  | .called _ => standing

/-- The standing after a history. -/
def standing (history : List Entry) : Standing := history.foldl Standing.note ⟨none, none⟩

/-- The standing after one more entry. -/
theorem standing_append (history : List Entry) (entry : Entry) :
    standing (history ++ [entry]) = (standing history).note entry := by
  simp [standing]

/-! ## The tool calls that are allowed -/

section Safety

variable (py : Builtins) (detectInjection : Json → Except Exc Bool) (spec : AgentSpec)
  (killswitch : Option KillSwitch)

/-- A proposed call names a tool of the spec. -/
def Names (toolCall : Json) (tool : ToolSpec) : Prop :=
  ∃ name, toolCall.item "name" = .ok name ∧ toolByName spec name = some tool

/-- A proposed call asks for these arguments. -/
def Asks (toolCall : Json) (args : Dict) : Prop := toolCall.getOr "args" (.obj []) >>= Json.kwargs = .ok args

/-- The read-only gate, where there is one, was asked last and did not block. -/
def Unblocked (tool : ToolSpec) (history : List Entry) : Prop :=
  killswitch.isSome → startsWith tool.riskClass "write:" → ∃ earlier value,
    history = earlier ++ [.called ⟨.redisGet globalReadOnlyKey, .ok value⟩] ∧ isFlagSet value = false

/-- A tool of the spec is called with the arguments of the proposal under way, which is approved if
the rule of the tool says so. -/
def MayExecute (tool : ToolSpec) (args : Dict) (history : List Entry) : Prop :=
  ∃ proposal, (standing history).live = some proposal ∧ Names spec proposal.toolCall tool ∧
    Asks proposal.toolCall args ∧ Unblocked killswitch tool history ∧
    ∃ needed, requiresApproval py tool.riskClass spec.evalPassRate spec.autonomyEnabled = .ok needed ∧
      (needed = true → proposal.approved = true)

/-- The calls of a thread: any call but a tool, and the tools that may be executed. -/
def threadProtocol : Protocol Call Reply Exc Thread where
  allowed thread c :=
    match c with
    | .tool _ tool args => MayExecute py spec killswitch tool args thread.history
    | _ => True
  answers thread c reply thread' := ∃ replies, thread.answer replies c = (thread', reply)

/-! ## What the nodes rely on -/

/-- What a node relies on: at the interrupt and at the tool the state holds the proposal under way,
and at the tool its approval was given if it is needed. -/
def Backed (node : BaseNode) (values : Dict) (proposal : Option Proposal) : Prop :=
  match node with
  | .hitl => ∃ p tool needed, proposal = some p ∧ Json.get? values "tool_call" = some p.toolCall ∧
      Names spec p.toolCall tool ∧
      requiresApproval py tool.riskClass spec.evalPassRate spec.autonomyEnabled = .ok needed
  | .executeTool => ∃ p tool needed, proposal = some p ∧ Json.get? values "tool_call" = some p.toolCall ∧
      Names spec p.toolCall tool ∧
      requiresApproval py tool.riskClass spec.evalPassRate spec.autonomyEnabled = .ok needed ∧
      (needed = true → p.approved = true)
  | _ => True

/-- The saved checkpoint backs the node it stops at. -/
def SavedBacked (thread : Thread) : Prop :=
  ∀ checkpoint node, thread.saved = some checkpoint → checkpoint.next.bind baseNodes.ofName = some node →
    Backed py spec node checkpoint.values (standing thread.history).saved

/-- The calls that neither make nor decide nor save a proposal. -/
def Quiet : Call → Prop
  | .llm _ _ _ _ | .putCheckpoint _ _ | .tool _ _ _ => False
  | _ => True

variable {py spec killswitch}

/-- A quiet call leaves the standing as it is. -/
theorem note_quiet {c : Call} (hc : Quiet c) (s : Standing) (reply : Except Exc (Reply c)) :
    s.note (.called ⟨c, reply⟩) = s := by
  cases c <;> first | rfl | exact hc.elim

/-- A quiet call leaves the checkpoint as it is. -/
theorem checkpointStore_quiet {c : Call} (hc : Quiet c) (saved : Option SavedRun)
    (reply : Except Exc (Reply c)) : (checkpointStore saved c reply).1 = saved := by
  cases c <;> first | rfl | exact hc.elim

/-- What a reply leaves: one more entry, and the checkpoint that the reply says. -/
theorem answer_spec {replies : Replies} {thread thread' : Thread} {c : Call} {reply : Except Exc (Reply c)}
    (h : thread.answer replies c = (thread', reply)) :
    thread'.history = thread.history ++ [.called ⟨c, reply⟩] ∧
      thread'.saved = (checkpointStore thread.saved c reply).1 := by
  have hreply : (thread.answer replies c).2 = reply := congrArg Prod.snd h
  have hthread : (thread.answer replies c).1 = thread' := congrArg Prod.fst h
  rw [← hthread, ← hreply]
  refine ⟨rfl, ?_⟩
  simp only [Thread.answer]
  generalize replies thread.tick c = given
  cases c with
  | putCheckpoint name run => cases given <;> rfl
  | _ => rfl

/-- Nothing that bears on proposals has changed. -/
def Same (thread thread' : Thread) : Prop :=
  thread'.saved = thread.saved ∧ standing thread'.history = standing thread.history

/-- A quiet call is allowed and changes nothing that bears on proposals. -/
theorem threadProtocol_quiet {thread : Thread} (thread' : Thread) (c : Call) (h : Same thread thread')
    (hc : Quiet c) : (threadProtocol py spec killswitch).allowed thread' c ∧
      ∀ reply thread'', (threadProtocol py spec killswitch).answers thread' c reply thread'' →
        Same thread thread'' := by
  refine ⟨by cases c <;> trivial, fun reply thread'' hreply => ?_⟩
  obtain ⟨replies, hreply⟩ := hreply
  have hspec := answer_spec hreply
  refine ⟨?_, ?_⟩
  · rw [hspec.2, checkpointStore_quiet hc, h.1]
  · rw [hspec.1, standing_append, note_quiet hc, h.2]

/-- A coroutine of quiet calls changes nothing that bears on proposals. -/
theorem ensures_quiet {α : Type} {p : Coroutine α} (hp : p.Only Quiet) (thread : Thread) :
    (threadProtocol py spec killswitch).Ensures (fun _ thread' => Same thread thread') p thread :=
  Protocol.ensures_only hp (fun thread' c h hc => threadProtocol_quiet thread' c h hc) ⟨rfl, rfl⟩

/-- What the checkpoint backs is kept when nothing that bears on proposals changes. -/
theorem Same.savedBacked {thread thread' : Thread} (h : Same thread thread')
    (hsaved : SavedBacked py spec thread) : SavedBacked py spec thread' := by
  intro checkpoint node hcheckpoint hnode
  rw [h.2]
  exact hsaved checkpoint node (h.1 ▸ hcheckpoint) hnode

/-! ## One step -/

variable (py spec)

/-- What a node starts from; at a resumed interrupt the proposal carries the decision. -/
structure Ready (resume : Option Json) (node : BaseNode) (values : Dict) (thread : Thread) : Prop where
  saved : SavedBacked py spec thread
  live : Backed py spec node values (standing thread.history).live
  decided : node = .hitl → ∀ decision, resume = some decision →
    ∀ p, (standing thread.history).live = some p → p.approved = isApproval decision

/-- What a node leaves: the checkpoint backed, and the node that it routes to as well. -/
def Leaves (route : Dict → Except Exc (Option BaseNode)) (values : Dict) :
    Except Exc NodeOutcome → Thread → Prop
  | .ok (.wrote writes), thread => SavedBacked py spec thread ∧
      ∀ next, route (Json.merge values writes) = .ok (some next) →
        Backed py spec next (Json.merge values writes) (standing thread.history).live
  | _, thread => SavedBacked py spec thread

variable {py spec} {resume : Option Json} {node : BaseNode} {values : Dict} {thread thread' : Thread}

/-- A node is ready when nothing that bears on proposals has changed. -/
theorem Same.ready (h : Same thread thread') (hready : Ready py spec resume node values thread) :
    Ready py spec resume node values thread' where
  saved := h.savedBacked hready.saved
  live := h.2 ▸ hready.live
  decided hnode decision hresume p hp := hready.decided hnode decision hresume p (h.2 ▸ hp)

/-- A node of quiet calls that routes to nodes relying on nothing. -/
theorem ensures_leaves_quiet {route : Dict → Except Exc (Option BaseNode)} {p : Coroutine NodeOutcome}
    (hp : p.Only Quiet) (hsaved : SavedBacked py spec thread)
    (hroute : ∀ state next, route state = .ok (some next) → ∀ proposal, Backed py spec next state proposal) :
    (threadProtocol py spec killswitch).Ensures (Leaves py spec route values) p thread := by
  refine (ensures_quiet hp thread).mono fun result thread' hsame => ?_
  match result with
  | .ok (.wrote writes) => exact ⟨hsame.savedBacked hsaved, fun next hnext => hroute _ next hnext _⟩
  | .ok (.interrupted payload) => exact hsame.savedBacked hsaved
  | .error error => exact hsame.savedBacked hsaved

/-- Looking up a pause flag makes quiet calls. -/
theorem only_lookupPaused (switch : KillSwitch) (agentId : String) (time : Time) :
    (switch.lookupPaused agentId time).Only Quiet :=
  (Prog.only_call trivial).bind fun _ => (Prog.only_call trivial).bind fun _ => trivial

/-- The pause lookup makes quiet calls. -/
theorem only_isAgentPaused (switch : KillSwitch) (agentId : String) :
    (switch.isAgentPaused agentId).Only Quiet := by
  refine (Prog.only_call trivial).bind fun cached => ?_
  match cached with
  | (time, none) => exact only_lookupPaused switch agentId time
  | (time, some (paused, since)) =>
    show Prog.Only Quiet (if time - since < pauseCacheTtl then _ else _)
    split
    · trivial
    · exact only_lookupPaused switch agentId time

/-- The pause gate makes quiet calls. -/
theorem only_killswitchGate (agentName : String) : (killswitchGate killswitch agentName).Only Quiet := by
  cases killswitch with
  | none => trivial
  | some switch =>
    refine (only_isAgentPaused switch agentName).bind fun paused => ?_
    cases paused <;> trivial

/-- The routes after the model lead to what the new proposal backs. -/
theorem backed_routeAfterModel {state : Dict} {p : Proposal} {next : BaseNode}
    (hcall : Json.get? state "tool_call" = some p.toolCall)
    (hroute : routeAfterModel py spec state = .ok next) : Backed py spec next state (some p) := by
  unfold routeAfterModel at hroute
  rw [hcall] at hroute
  by_cases htruthy : (!p.toolCall.truthy) = true
  · have hnext : BaseNode.citationAttach = next := by simpa [htruthy] using hroute
    subst hnext
    trivial
  · cases hname : p.toolCall.item "name" with
    | error error => simp [htruthy, hname, bind, Except.bind] at hroute
    | ok name =>
      cases htool : toolByName spec name with
      | none =>
        have hnext : BaseNode.citationAttach = next := by
          simpa [htruthy, hname, htool, bind, Except.bind, pure, Except.pure] using hroute
        subst hnext
        trivial
      | some tool =>
        cases hneeded : requiresApproval py tool.riskClass spec.evalPassRate spec.autonomyEnabled with
        | error error => simp [htruthy, hname, htool, hneeded, bind, Except.bind] at hroute
        | ok needed =>
          cases needed with
          | true =>
            have hnext : BaseNode.hitl = next := by
              simpa [htruthy, hname, htool, hneeded, bind, Except.bind, pure, Except.pure] using hroute
            subst hnext
            exact ⟨p, tool, true, rfl, hcall, ⟨name, hname, htool⟩, hneeded⟩
          | false =>
            have hnext : BaseNode.executeTool = next := by
              simpa [htruthy, hname, htool, hneeded, bind, Except.bind, pure, Except.pure] using hroute
            subst hnext
            exact ⟨p, tool, false, rfl, hcall, ⟨name, hname, htool⟩, hneeded, by simp⟩

/-- Reading the last of two writes. -/
theorem get?_merge_pair (values : Dict) (key key' : String) (value value' : Json) :
    Json.get? (Json.merge values [(key, value), (key', value')]) key' = some value' := by
  simp [Json.merge_cons, Json.merge_nil, Json.get?_insert]

/-- The model call makes the proposal under way. -/
theorem ensures_callModel (actor : Actor) (hsaved : SavedBacked py spec thread) :
    (threadProtocol py spec killswitch).Ensures
      (Leaves py spec (fun state => (routeAfterModel py spec state).map some) values)
      (callModel spec actor values) thread := by
  refine Protocol.ensures_ofExcept_bind (fun _ _ => hsaved) fun messages _ => ?_
  refine Protocol.ensures_ofExcept_bind (fun _ _ => hsaved) fun messages _ => ?_
  refine Protocol.ensures_call_bind trivial fun reply thread' hreply => ?_
  obtain ⟨replies, hreply⟩ := hreply
  have hspec := answer_spec hreply
  have hstanding := congrArg standing hspec.1
  rw [standing_append] at hstanding
  have hsaved' : SavedBacked py spec thread' := by
    intro checkpoint node hcheckpoint hnode
    have hsame : (standing thread'.history).saved = (standing thread.history).saved := by
      rw [hstanding]
      cases reply <;> rfl
    rw [hsame]
    exact hsaved checkpoint node (hspec.2.symm.trans hcheckpoint) hnode
  cases reply with
  | error error => exact hsaved'
  | ok response =>
    refine ⟨hsaved', fun next hnext => ?_⟩
    obtain ⟨node, hnode, hsome⟩ := map_eq_ok.mp hnext
    cases hsome
    rw [hstanding]
    exact backed_routeAfterModel (p := ⟨response.toolCall, false⟩) (get?_merge_pair _ _ _ _ _) hnode

/-- The guardrails make no call. -/
theorem only_guardrailsIn {detectInjection : Json → Except Exc Bool} (actor : Actor) :
    ((buildGraph py detectInjection spec killswitch actor).body .guardrailsIn resume values).Only Quiet :=
  (Prog.only_ofExcept _).bind fun _ => (Prog.only_ofExcept _).bind fun _ =>
    (Prog.only_ofExcept _).bind fun _ => (Prog.only_ofExcept _).bind fun _ => trivial

/-- The proposal in a state, and the tool that it names. -/
theorem proposedTool_spec {toolCall : Json} (found : Json) (tool : ToolSpec)
    (hcall : Json.get? values "tool_call" = some toolCall)
    (h : proposedTool spec values = .ok (found, tool)) : found = toolCall ∧ Names spec toolCall tool := by
  obtain ⟨read, hread, h⟩ := bind_eq_ok.mp h
  have heq : read = toolCall := by
    rw [Json.field, hcall] at hread
    exact (Except.ok.inj hread).symm
  subst heq
  cases read with
  | null => cases h
  | bool _ | int _ | float _ | str _ | arr _ | obj _ =>
    obtain ⟨name, hname, h⟩ := bind_eq_ok.mp h
    cases htool : toolByName spec name with
    | none => simp [htool] at h
    | some found =>
      rw [htool] at h
      cases h
      exact ⟨rfl, name, hname, htool⟩

/-- A proposed call names one tool only. -/
theorem Names.unique {toolCall : Json} {tool tool' : ToolSpec} (h : Names spec toolCall tool)
    (h' : Names spec toolCall tool') : tool = tool' := by
  obtain ⟨name, hname, htool⟩ := h
  obtain ⟨name', hname', htool'⟩ := h'
  cases Except.ok.inj (hname.symm.trans hname')
  exact Option.some.inj (htool.symm.trans htool')

/-- What an approval turns the interrupt's state into. -/
theorem backed_hitl_route {decision : Json} {writes : Dict} {proposal : Option Proposal}
    (hlive : Backed py spec .hitl values proposal)
    (hdecided : ∀ p, proposal = some p → p.approved = isApproval decision)
    (hwrites : dropUnlessApproved decision = .ok writes) :
    Backed py spec (if Json.flag (Json.merge values writes) "rejected" then .citationAttach else .executeTool)
      (Json.merge values writes) proposal := by
  obtain ⟨approved, happroved, hwrites⟩ := bind_eq_ok.mp hwrites
  cases approved with
  | false =>
    cases hwrites
    have hflag : Json.flag (Json.merge values [("rejected", .bool true), ("tool_call", .null)]) "rejected" = true := by
      simp [Json.flag, Json.merge_cons, Json.merge_nil, Json.get?_insert, Json.truthy]
    rw [hflag]
    trivial
  | true =>
    cases hwrites
    rw [Json.merge_nil]
    split
    · trivial
    · obtain ⟨p, tool, needed, hp, hcall, hnames, hneeded⟩ := hlive
      refine ⟨p, tool, needed, hp, hcall, hnames, hneeded, fun _ => ?_⟩
      rw [hdecided p hp, isApproval, happroved]

/-- The interrupt makes no call; a decision decides the proposal that it was given for. -/
theorem ensures_hitl (hready : Ready py spec resume .hitl values thread) :
    (threadProtocol py spec killswitch).Ensures
      (Leaves py spec (fun state => .ok (some
        (if Json.flag state "rejected" then .citationAttach else .executeTool))) values)
      (hitl spec resume values) thread := by
  refine Protocol.ensures_ofExcept_bind (fun _ _ => hready.saved) fun found _ => ?_
  refine Protocol.ensures_ofExcept_bind (fun _ _ => hready.saved) fun name _ => ?_
  refine Protocol.ensures_ofExcept_bind (fun _ _ => hready.saved) fun args _ => ?_
  cases resume with
  | none => exact hready.saved
  | some decision =>
    refine Protocol.ensures_ofExcept_bind (fun _ _ => hready.saved) fun writes hwrites => ?_
    refine ⟨hready.saved, fun next hnext => ?_⟩
    cases hnext
    exact backed_hitl_route hready.live (hready.decided rfl decision rfl) hwrites

/-- The read-only gate: when it does not block, it was asked just before. -/
theorem ensures_blocksTool (switch : KillSwitch) (tool : ToolSpec) :
    (threadProtocol py spec killswitch).Ensures
      (fun result thread' => Same thread thread' ∧
        (result = .ok false → Unblocked (some switch) tool thread'.history))
      (KillSwitch.blocksTool tool.riskClass) thread := by
  unfold KillSwitch.blocksTool
  split
  · refine Protocol.ensures_call_bind trivial fun reply thread' hreply => ?_
    have hsame := (threadProtocol_quiet thread (.redisGet globalReadOnlyKey) ⟨rfl, rfl⟩ trivial).2
      reply thread' hreply
    obtain ⟨replies, hreply⟩ := hreply
    have hspec := answer_spec hreply
    cases reply with
    | error error => exact ⟨hsame, by simp⟩
    | ok value =>
      refine ⟨hsame, fun hvalue _ _ => ⟨thread.history, value, hspec.1, ?_⟩⟩
      simpa using hvalue
  · rename_i hread
    exact ⟨⟨rfl, rfl⟩, fun _ _ hwrite => absurd hwrite hread⟩

/-- The tool call at the end of `execute_tool`, once the gate has answered. -/
theorem ensures_callTool {toolCall : Json} {tool : ToolSpec} (actor : Actor)
    (hsaved : SavedBacked py spec thread)
    (hmay : ∀ args, Asks toolCall args → MayExecute py spec killswitch tool args thread.history) :
    (threadProtocol py spec killswitch).Ensures (fun _ thread' => SavedBacked py spec thread')
      (do
        let args ← Prog.ofExcept (toolCall.getOr "args" (.obj []))
        let args ← Prog.ofExcept args.kwargs
        let result ← await (.tool actor tool args)
        return NodeResult.wrote [("tool_result", result)] : Coroutine NodeOutcome) thread := by
  refine Protocol.ensures_ofExcept_bind (fun _ _ => hsaved) fun args hargs => ?_
  refine Protocol.ensures_ofExcept_bind (fun _ _ => hsaved) fun args' hargs' => ?_
  refine Protocol.ensures_call_bind (hmay args' (bind_eq_ok.mpr ⟨args, hargs, hargs'⟩)) ?_
  intro reply thread' hreply
  obtain ⟨replies, hreply⟩ := hreply
  have hspec := answer_spec hreply
  have hsame : Same thread thread' := by
    refine ⟨hspec.2, ?_⟩
    rw [hspec.1, standing_append]
    rfl
  cases reply with
  | error error => exact hsame.savedBacked hsaved
  | ok value => exact hsame.savedBacked hsaved

/-- `execute_tool` calls what may be executed, and nothing else. -/
theorem ensures_executeTool (actor : Actor) (hready : Ready py spec resume .executeTool values thread) :
    (threadProtocol py spec killswitch).Ensures (fun _ thread' => SavedBacked py spec thread')
      (executeTool spec killswitch actor values) thread := by
  obtain ⟨p, tool, needed, hp, hcall, hnames, hneeded, happroved⟩ := hready.live
  refine Protocol.ensures_ofExcept_bind (fun _ _ => hready.saved) fun found hfound => ?_
  obtain ⟨hcallEq, hnames'⟩ := proposedTool_spec found.1 found.2 hcall hfound
  have htool := hnames.unique hnames'
  have hmay : ∀ thread', Same thread thread' → Unblocked killswitch tool thread'.history →
      ∀ args, Asks found.1 args → MayExecute py spec killswitch found.2 args thread'.history := by
    intro thread' hsame hunblocked args hargs
    rw [← htool]
    exact ⟨p, hsame.2 ▸ hp, hnames, hcallEq ▸ hargs, hunblocked, needed, hneeded, happroved⟩
  cases hkill : killswitch with
  | none =>
    subst hkill
    exact ensures_callTool actor hready.saved (hmay thread ⟨rfl, rfl⟩ fun h => by cases h)
  | some switch =>
    subst hkill
    refine Protocol.ensures_bind.mpr ((ensures_blocksTool switch found.2).mono fun result thread' h => ?_)
    match result with
    | .error error => exact h.1.savedBacked hready.saved
    | .ok true => exact h.1.savedBacked hready.saved
    | .ok false =>
      exact ensures_callTool actor (h.1.savedBacked hready.saved) (hmay thread' h.1 (htool ▸ h.2 rfl))

variable {detectInjection : Json → Except Exc Bool}

/-- Every node of the base graph leaves what the next one relies on. -/
theorem ensures_body (actor : Actor) (hready : Ready py spec resume node values thread) :
    (threadProtocol py spec killswitch).Ensures
      (Leaves py spec ((buildGraph py detectInjection spec killswitch actor).route node) values)
      ((buildGraph py detectInjection spec killswitch actor).body node resume values) thread := by
  cases node with
  | killswitchGate =>
    refine ensures_leaves_quiet (only_killswitchGate spec.name) hready.saved fun state next hnext proposal => ?_
    have hroute : (if Json.flag state "paused" then none else some BaseNode.contextBuilder) = some next :=
      Except.ok.inj hnext
    split at hroute
    · cases hroute
    · cases hroute
      trivial
  | contextBuilder =>
    refine ensures_leaves_quiet trivial hready.saved fun state next hnext proposal => ?_
    cases hnext
    trivial
  | guardrailsIn =>
    refine ensures_leaves_quiet (only_guardrailsIn actor) hready.saved fun state next hnext proposal => ?_
    cases hnext
    trivial
  | callModel => exact ensures_callModel actor hready.saved
  | hitl => exact ensures_hitl hready
  | executeTool =>
    refine (ensures_executeTool actor hready).mono fun result thread' hsaved => ?_
    match result with
    | .ok (.wrote writes) =>
      refine ⟨hsaved, fun next hnext => ?_⟩
      cases hnext
      trivial
    | .ok (.interrupted payload) => exact hsaved
    | .error error => exact hsaved
  | citationAttach =>
    refine ensures_leaves_quiet trivial hready.saved fun state next hnext proposal => ?_
    cases hnext

/-! ## Runs, sessions and threads -/

/-- Saving a checkpoint that backs its node. -/
theorem ensures_saveAfter (actor : Actor) (failed : Option Exc) {checkpoint : Checkpoint BaseNode Dict}
    (hsaved : SavedBacked py spec thread) (hbacked : ∀ next, checkpoint.next = some next →
      Backed py spec next checkpoint.values (standing thread.history).live) :
    (threadProtocol py spec killswitch).Ensures
      (fun _ thread' => SavedBacked py spec thread' ∧
        (standing thread'.history).live = (standing thread.history).live)
      (StateGraph.saveAfter (threadSaver baseNodes actor) failed checkpoint) thread := by
  cases failed with
  | some error => exact ⟨hsaved, rfl⟩
  | none =>
    refine Protocol.ensures_bind.mpr (Protocol.ensures_attempt.mpr (Protocol.ensures_call.mpr ⟨trivial, ?_⟩))
    intro reply thread' hreply
    obtain ⟨replies, hreply⟩ := hreply
    have hspec := answer_spec hreply
    have hstanding := congrArg standing hspec.1
    rw [standing_append] at hstanding
    cases reply with
    | error error =>
      have hsame : Same thread thread' := ⟨hspec.2, hstanding⟩
      exact ⟨hsame.savedBacked hsaved, congrArg Standing.live hstanding⟩
    | ok value =>
      refine ⟨fun saved node hcheckpoint hnode => ?_, by rw [hstanding]; rfl⟩
      rw [hstanding]
      cases Option.some.inj (hspec.2.symm.trans hcheckpoint)
      cases hnext : checkpoint.next with
      | none => simp [hnext] at hnode
      | some next =>
        have hname : next = node := by simpa [hnext, baseNodes.ofName_name] using hnode
        exact hname ▸ hbacked next hnext

/-- One superstep keeps its nodes ready. -/
theorem ensures_superstep (actor : Actor) (failed : Option Exc)
    (hready : Ready py spec resume node values thread) :
    (threadProtocol py spec killswitch).Ensures
      (StateGraph.Steps (fun _ => Ready py spec) fun _ thread' => SavedBacked py spec thread')
      (StateGraph.superstep (buildGraph py detectInjection spec killswitch actor)
        (threadSaver baseNodes actor) failed resume node values) thread := by
  have henter : ((threadSaver baseNodes actor).enter node).Only Quiet := Prog.only_call trivial
  refine Protocol.ensures_bind.mpr ((ensures_quiet henter thread).mono ?_)
  intro entered thread₁ hsame
  cases entered with
  | error error => exact hsame.savedBacked hready.saved
  | ok value =>
    refine Protocol.ensures_bind.mpr ((ensures_body actor (hsame.ready hready)).mono ?_)
    intro result thread₂ hleaves
    match result with
    | .error error => exact hleaves
    | .ok (.interrupted payload) =>
      cases failed with
      | none => exact hleaves
      | some error => exact hleaves
    | .ok (.wrote writes) =>
      refine Protocol.ensures_ofExcept_bind (fun _ _ => hleaves.1) fun next hnext => ?_
      have hbacked : ∀ node', next = some node' →
          Backed py spec node' (Json.merge values writes) (standing thread₂.history).live := by
        intro node' hnode'
        subst hnode'
        exact hleaves.2 node' hnext
      refine Protocol.ensures_bind.mpr ((ensures_saveAfter actor failed hleaves.1 hbacked).mono ?_)
      intro saved thread₃ hsaved
      match saved, next with
      | .error error, _ => exact hsaved.1
      | .ok failed', none =>
        cases failed' with
        | none => exact hsaved.1
        | some error => exact hsaved.1
      | .ok failed', some next =>
        exact ⟨hsaved.1, hsaved.2 ▸ hbacked next rfl, fun _ _ hresume => by cases hresume⟩

/-- A run from a ready node. -/
theorem ensures_advance (actor : Actor) (fuel : ℕ) (failed : Option Exc)
    (hready : Ready py spec resume node values thread) :
    (threadProtocol py spec killswitch).Ensures (fun _ thread' => SavedBacked py spec thread')
      (StateGraph.advance (buildGraph py detectInjection spec killswitch actor)
        (threadSaver baseNodes actor) graphRecursionError fuel failed resume node values) thread :=
  StateGraph.ensures_advance (fun failed _ _ _ _ hready => ensures_superstep actor failed hready)
    (fun _ _ _ _ _ hready => hready.saved) fuel failed resume node values thread hready

/-- Opening a session keeps what is saved. -/
theorem savedBacked_open (session : Session) (hsaved : SavedBacked py spec thread) :
    SavedBacked py spec (thread.open session) := by
  have hsame : ((standing thread.history).note (.opened session thread.saved)).saved =
      (standing thread.history).saved := by
    cases session with
    | invoke input => rfl
    | resume decision =>
      simp only [Standing.note]
      split <;> rfl
  intro checkpoint node hcheckpoint hnode
  rw [Thread.open, standing_append, hsame]
  exact hsaved checkpoint node hcheckpoint hnode

/-- A resume takes up the saved node, and decides the saved proposal if that node is the interrupt. -/
theorem ready_open (decision : Json) {checkpoint : SavedRun} (hsaved : SavedBacked py spec thread)
    (hcheckpoint : thread.saved = some checkpoint) (hnode : checkpoint.next.bind baseNodes.ofName = some node) :
    Ready py spec (some decision) node checkpoint.values (thread.open (.resume decision)) := by
  have hbacked := hsaved checkpoint node hcheckpoint hnode
  have hstanding : standing (thread.open (.resume decision)).history =
      (standing thread.history).note (.opened (.resume decision) (some checkpoint)) := by
    rw [Thread.open, standing_append, hcheckpoint]
  refine ⟨savedBacked_open _ hsaved, ?_, ?_⟩
  · rw [hstanding]
    by_cases hhitl : checkpoint.next = some "hitl"
    · have hnodeEq : BaseNode.hitl = node := by
        rw [hhitl] at hnode
        exact Option.some.inj ((baseNodes.ofName_name .hitl).symm.trans hnode)
      subst hnodeEq
      obtain ⟨p, tool, needed, hp, hcall, hnames, hneeded⟩ := hbacked
      refine ⟨⟨p.toolCall, isApproval decision⟩, tool, needed, ?_, hcall, hnames, hneeded⟩
      simp [Standing.note, hhitl, hp]
    · simpa [Standing.note, hhitl] using hbacked
  · intro hnodeEq decision' hdecision p hp
    subst hnodeEq
    cases Option.some.inj hdecision
    obtain ⟨name, hname, hofName⟩ := Option.bind_eq_some_iff.mp hnode
    have hhitl : checkpoint.next = some "hitl" := by
      rw [hname, ← baseNodes.name_of_ofName hofName]
      rfl
    rw [hstanding] at hp
    obtain ⟨p', -, hp'⟩ : ∃ p', (standing thread.history).saved = some p' ∧
        (⟨p'.toolCall, isApproval decision⟩ : Proposal) = p := by
      simpa [Standing.note, hhitl] using hp
    rw [← hp']

/-- Loading returns what is saved. -/
theorem ensures_load (actor : Actor) : (threadProtocol py spec killswitch).Ensures
    (fun loaded thread' => Same thread thread' ∧ ∀ checkpoint, loaded = .ok (some checkpoint) →
      ∃ saved, thread.saved = some saved ∧ checkpoint = ⟨saved.values, saved.next.bind baseNodes.ofName⟩)
    (threadSaver baseNodes actor).load thread := by
  refine Protocol.ensures_call_bind trivial fun reply thread' hreply => ?_
  have hsame := (threadProtocol_quiet thread (.loadCheckpoint actor.thread) ⟨rfl, rfl⟩ trivial).2
    reply thread' hreply
  obtain ⟨replies, hreply⟩ := hreply
  cases reply with
  | error error => exact ⟨hsame, fun checkpoint h => by cases h⟩
  | ok saved =>
    obtain ⟨-, -, hsaved⟩ := map_eq_ok.mp (congrArg Prod.snd hreply)
    cases saved with
    | none => exact ⟨hsame, fun checkpoint h => by cases h⟩
    | some saved =>
      refine ⟨hsame, fun checkpoint h => ⟨saved, hsaved, ?_⟩⟩
      exact (Option.some.inj (Except.ok.inj h)).symm

/-- A session on a thread whose checkpoint backs its node. -/
theorem ensures_session (actor : Actor) (session : Session) (hsaved : SavedBacked py spec thread) :
    (threadProtocol py spec killswitch).Ensures (fun _ thread' => SavedBacked py spec thread')
      (session.task (buildGraph py detectInjection spec killswitch actor) (threadSaver baseNodes actor))
      (thread.open session) := by
  have hopen := savedBacked_open session hsaved
  cases session with
  | invoke input =>
    refine Protocol.ensures_bind.mpr ((ensures_load actor).mono fun loaded thread₁ hloaded => ?_)
    have hsaved₁ := hloaded.1.savedBacked hopen
    cases loaded with
    | error error => exact hsaved₁
    | ok loaded =>
      refine Protocol.ensures_bind.mpr ((ensures_saveAfter actor none hsaved₁ ?_).mono ?_)
      · intro next hnext
        cases hnext
        trivial
      · intro saved thread₂ hsaved₂
        cases saved with
        | error error => exact hsaved₂.1
        | ok failed =>
          exact ensures_advance actor recursionLimit failed
            ⟨hsaved₂.1, trivial, fun hnode => by cases hnode⟩
  | resume decision =>
    refine Protocol.ensures_bind.mpr ((ensures_load actor).mono fun loaded thread₁ hloaded => ?_)
    have hsaved₁ := hloaded.1.savedBacked hopen
    match loaded with
    | .error error => exact hsaved₁
    | .ok none => exact hsaved₁
    | .ok (some ⟨values, none⟩) => exact hsaved₁
    | .ok (some ⟨values, some node⟩) =>
      obtain ⟨saved, hcheckpoint, hloadedEq⟩ := hloaded.2 _ rfl
      have hvalues : values = saved.values := congrArg Checkpoint.values hloadedEq
      have hnode : saved.next.bind baseNodes.ofName = some node := (congrArg Checkpoint.next hloadedEq).symm
      have hready := hloaded.1.ready (ready_open decision hsaved hcheckpoint hnode)
      exact ensures_advance actor recursionLimit none (hvalues ▸ hready)

/-- Every tool call of a history was one that may be executed. -/
def ExecutesSafely (py : Builtins) (spec : AgentSpec) (killswitch : Option KillSwitch)
    (history : List Entry) : Prop :=
  ∀ earlier later actor tool args reply,
    history = earlier ++ .called ⟨.tool actor tool args, reply⟩ :: later →
      MayExecute py spec killswitch tool args earlier

/-- One more entry keeps a history safe unless it is a tool call that may not be executed. -/
theorem ExecutesSafely.append {history : List Entry} (h : ExecutesSafely py spec killswitch history)
    (entry : Entry) (hentry : ∀ actor tool args reply, entry = .called ⟨.tool actor tool args, reply⟩ →
      MayExecute py spec killswitch tool args history) :
    ExecutesSafely py spec killswitch (history ++ [entry]) := by
  intro earlier later actor tool args reply hsplit
  rcases List.append_eq_append_iff.mp hsplit with ⟨rest, hearlier, hrest⟩ | ⟨rest, hhistory, hrest⟩
  · cases rest with
    | nil =>
      rw [List.append_nil] at hearlier
      rw [hearlier]
      exact hentry actor tool args reply (List.cons.inj hrest).1
    | cons head tail => simp at hrest
  · cases rest with
    | nil =>
      rw [List.append_nil] at hhistory
      rw [← hhistory]
      exact hentry actor tool args reply (List.cons.inj hrest).1.symm
    | cons head tail =>
      rw [List.cons_append] at hrest
      obtain ⟨hhead, -⟩ := List.cons.inj hrest
      exact h earlier tail actor tool args reply (hhead ▸ hhistory)

/-- Serving one session keeps the checkpoint backed and the history safe. -/
theorem session_safe (detectInjection : Json → Except Exc Bool) (actor : Actor) (replies : Replies)
    (session : Session)
    (hsaved : SavedBacked py spec thread) (hsafe : ExecutesSafely py spec killswitch thread.history) :
    let served := ((session.task (buildGraph py detectInjection spec killswitch actor)
      (threadSaver baseNodes actor)).run (Thread.answer replies) (thread.open session)).1
    SavedBacked py spec served ∧ ExecutesSafely py spec killswitch served.history := by
  refine (ensures_session actor session hsaved).run id
    (fun thread => ExecutesSafely py spec killswitch thread.history) ?_ ?_
  · intro thread c hsafe hallowed
    refine ⟨⟨replies, rfl⟩, hsafe.append _ fun actor tool args reply hentry => ?_⟩
    cases hentry
    exact hallowed
  · exact hsafe.append _ fun actor tool args reply hentry => by cases hentry

/-- Serving sessions keeps the checkpoint backed and the history safe. -/
theorem serve_safe (actor : Actor) (replies : Replies) (sessions : List Session)
    (hsaved : SavedBacked py spec thread) (hsafe : ExecutesSafely py spec killswitch thread.history) :
    ExecutesSafely py spec killswitch (thread.serve (buildGraph py detectInjection spec killswitch actor)
      (threadSaver baseNodes actor) replies sessions).history := by
  induction sessions generalizing thread with
  | nil => exact hsafe
  | cons session rest ih =>
    have hsession := session_safe detectInjection actor replies session hsaved hsafe
    exact ih hsession.1 hsession.2

/-- An external write is executed with an approval. -/
theorem MayExecute.approved_of_external {tool : ToolSpec} {args : Dict} {history : List Entry}
    (h : MayExecute py spec killswitch tool args history) (hexternal : tool.riskClass = "write:external") :
    ∃ p, (standing history).live = some p ∧ p.approved = true := by
  obtain ⟨p, hp, -, -, -, needed, hneeded, happroved⟩ := h
  rw [hexternal, requiresApproval_external] at hneeded
  exact ⟨p, hp, happroved (Except.ok.inj hneeded).symm⟩

end Safety

/-- On a new thread of the base graph, whatever is invoked and resumed in whatever order, whatever
the model proposes and the read-only gate answers, and whichever calls fail, a tool is called only
if the proposal under way names it among the tools of the spec, with the arguments proposed, right
after the gate did not block it, and with an approval of that proposal if its rule needs one. -/
theorem serve_executesSafely (py : Builtins) (detectInjection : Json → Except Exc Bool) (spec : AgentSpec)
    (killswitch : Option KillSwitch) (actor : Actor) (replies : Replies) (sessions : List Session) :
    ExecutesSafely py spec killswitch
      (Thread.serve (buildGraph py detectInjection spec killswitch actor) (threadSaver baseNodes actor)
        replies ⟨0, none, []⟩ sessions).history := by
  refine serve_safe actor replies sessions ?_ ?_
  · intro checkpoint node hcheckpoint
    cases hcheckpoint
  · intro earlier later executor tool args reply hsplit
    cases earlier <;> cases hsplit

end FleetWorkflow.Core
