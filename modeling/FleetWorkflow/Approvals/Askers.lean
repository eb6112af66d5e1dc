import FleetWorkflow.Agents.Sessions
import FleetWorkflow.Approvals.Producers
import FleetWorkflow.Async.Simulation

/-!
# Agents that ask

What the graph of an agent promises about a thread is carried over to the world in which its calls are answered: an agent
whose graph asks before it calls a tool keeps, between the requests of the API, that a run holds one open question at
most, and that each call of the tool was asked for and approved.
-/

namespace FleetWorkflow.Approvals

open Python Async Core Agents Store Api

/-! ## Agents that ask -/

/-- An agent whose graph asks before it calls a tool, with its contract and what is known of a run. -/
structure Asker (ν ρ : Type) where
  agentName : String
  tool : ToolSpec
  names : NodeNames ν
  graph : Actor → AgentGraph ν
  tools : ν → List ToolSpec
  model : ν → Bool
  tracker : Tracker ρ
  contract : Contract ν ρ
  shown : ρ → Option Json
  decision : ρ → Option Json
  asked : ρ → Bool

/-- An event calls a tool. -/
def callsTool (tool : ToolSpec) (event : CallEvent) : Bool :=
  match event.call with
  | .tool _ called _ => called = tool
  | _ => false

namespace Asker

variable {ν ρ : Type} (asker : Asker ν ρ) (fleet : Fleet)

/-- On whose behalf a run of the agent calls. -/
def actor (runId : String) : Actor := ⟨asker.agentName, runId⟩

/-- The saver of a run. -/
def saver (runId : String) : Saver Call Reply Exc ν Dict := threadSaver asker.names (asker.actor runId)

/-- The agent keeps its promises: its graph meets the contract, what is known tells the interrupt and the decision on it
and whether the tool was called, the interrupt is filed under the tool's name, and the tool is called for the first time
and with the arguments of the interrupt that was shown and approved. -/
structure Keeps : Prop where
  met : ∀ runId, asker.contract.Met asker.tracker (asker.graph (asker.actor runId))
  body : ∀ runId node resume values, ((asker.graph (asker.actor runId)).body node resume values).Only
    (NodeCall (asker.actor runId) (asker.tools node) (asker.model node))
  records : asker.tracker.Records asker.shown asker.decision
  external : asker.tool.riskClass = "write:external"
  apart : asker.agentName ≠ recipeAgentName
  fresh : asker.asked asker.tracker.fresh = false ∧ asker.decision asker.tracker.fresh = none
  noted : ∀ r event, asker.asked (asker.tracker.note r event) = (asker.asked r || callsTool asker.tool event)
  showing : ∀ r payload, asker.asked (asker.tracker.shown r payload) = asker.asked r
  deciding : ∀ r given, asker.asked (asker.tracker.decided r given) = asker.asked r
  shows : ∀ r payload, asker.contract.shows r payload → payload.item "tool" = .ok (.str asker.tool.name) ∧
    ∃ args, payload.item "args" = .ok (.obj args)
  allows : ∀ r caller args, asker.contract.allowed r (.tool caller asker.tool args) → asker.asked r = false ∧
    ∃ payload decision, asker.shown r = some payload ∧ payload.item "args" = .ok (.obj args) ∧
      asker.decision r = some decision ∧ isApproval decision
  started : ∀ filing : Filing, filing.agentName = asker.agentName → ∃ outcomes input,
    (∀ runId values, (outcomes.ended runId values).Only fun _ => False) ∧ filing.request fleet =
      discard (startRun asker.agentName outcomes fun runId =>
        ainvoke (asker.graph (asker.actor runId)) (asker.saver runId) input)
  resumed : ∀ runId approved resumer, resumerOf fleet runId approved asker.agentName = some resumer →
    resumer = resumeGraph runId approved asker.graph asker.names asker.agentName

/-- The arguments with which a log calls the tool on behalf of a run. -/
def calledWith (runId : String) (log : List CallEvent) : List Dict :=
  log.filterMap fun event =>
    match event.call with
    | .tool caller tool args => if caller = asker.actor runId ∧ tool = asker.tool then some args else none
    | _ => none

/-- The arguments were filed for a run, under the tool's name. -/
def FiledIn (runId : String) (args : Dict) (row : ApprovalRow) (log : List CallEvent) : Prop :=
  ∃ agentId, ⟨.insertApproval ⟨agentId, runId, asker.tool.name, args⟩, .ok row⟩ ∈ log

/-- The arguments were filed for a run, and after that the approval was approved. -/
def ApprovedIn (runId : String) (args : Dict) (log : List CallEvent) : Prop :=
  ∃ before after row editedPayload sub, log = before ++
    ⟨.commitDecision row.id editedPayload (decidedStatus true) sub, .ok ()⟩ :: after ∧ asker.FiledIn runId args row before

/-- A run called the tool at most once, and only after its arguments were filed for the run and approved. -/
def WroteAsApproved (runId : String) (log : List CallEvent) : Prop :=
  asker.calledWith runId log = [] ∨ ∃ earlier later args, log = earlier ++ later ∧
    asker.calledWith runId earlier = [] ∧ asker.calledWith runId later = [args] ∧ asker.ApprovedIn runId args earlier

/-! ## What is kept between requests -/

/-- A run id was drawn. -/
def Issued (w : World) (runId : String) : Prop := ∃ n < w.stores.uuids, runId = Nat.repr n

/-- A history asks for the tool with these arguments. -/
def asksOf (history : List Deed) : List Dict :=
  history.filterMap fun deed =>
    match deed with
    | .called ⟨.tool _ tool args, _⟩ => if tool = asker.tool then some args else none
    | _ => none

/-- A thread waits at the interrupt with a payload, and its run has not called the tool. -/
structure AtInterrupt (w : World) (runId : String) (args : Dict) (payload : Json) (book : Logbook) : Prop where
  saved : book.saved = w.stores.checkpoints runId
  kept : SavedKept asker.tracker asker.contract asker.names book
  shown : asker.shown (tracked asker.tracker book.history).saved = some payload
  waits : asker.decision (tracked asker.tracker book.history).saved = none
  args : payload.item "args" = .ok (.obj args)
  idle : asker.asked (tracked asker.tracker book.history).saved = false ∧ asker.asksOf book.history = []

/-- An approval was filed as the interrupt at which its run waits. -/
structure Filed (s : World × List CallEvent) (row : ApprovalRow) : Prop where
  filed : ∃ inserted, inserted.id = row.id ∧ asker.FiledIn row.runId row.payload inserted s.2
  unused : asker.calledWith row.runId s.2 = []
  waits : ∃ payload book, asker.AtInterrupt s.1 row.runId row.payload payload book

/-- What is kept between requests; nothing is said of the run that is under way. -/
structure Kept (busy : Option String) (s : World × List CallEvent) : Prop where
  running : ∀ runId ∈ busy, Issued s.1 runId
  issued : ∀ id row, s.1.stores.approvals.row id = some row → Issued s.1 row.runId
  unique : ∀ id id' row row', s.1.stores.approvals.row id = some row → s.1.stores.approvals.row id' = some row' →
    row.runId = row'.runId → id = id'
  fresh : ∀ runId, ¬ Issued s.1 runId → asker.calledWith runId s.2 = [] ∧ s.1.stores.checkpoints runId = none
  waiting : ∀ id row agent, s.1.stores.approvals.row id = some row → row.status = "pending" →
    s.1.stores.agents.row row.agentId = some agent → agent.name = asker.agentName → some row.runId ≠ busy → asker.Filed s row
  wrote : ∀ runId, some runId ≠ busy → asker.WroteAsApproved runId s.2

/-- Calls that leave the approvals, the names of the agents, the checkpoints and the tool to others; the run that is under
way keeps its checkpoint and may call the tool. -/
def Spares (busy : Option String) : Call → Prop
  | .insertApproval _ | .commitDecision _ _ _ _ | .insertAgent _ | .updateAgent _ _ | .deleteAgent _ => False
  | .putCheckpoint thread _ => some thread = busy
  | .tool caller tool _ => tool = asker.tool → caller.agent = asker.agentName → some caller.thread = busy
  | _ => True

/-- Other runs are left alone. -/
structure Apart (busy : Option String) (s s' : World × List CallEvent) : Prop where
  uuids : s.1.stores.uuids ≤ s'.1.stores.uuids
  checkpoints : ∀ runId, some runId ≠ busy → s'.1.stores.checkpoints runId = s.1.stores.checkpoints runId
  log : ∃ more, s'.2 = s.2 ++ more ∧ ∀ runId, some runId ≠ busy → asker.calledWith runId more = []

/-- Other runs, the approvals and the names of the agents are left alone. -/
structure Aside (busy : Option String) (s s' : World × List CallEvent) : Prop extends asker.Apart busy s s' where
  approvals : s'.1.stores.approvals = s.1.stores.approvals
  agents : ∀ id agent, s'.1.stores.agents.row id = some agent →
    ∃ before, s.1.stores.agents.row id = some before ∧ before.name = agent.name

section Aside

variable {asker} {busy : Option String} {s s' s'' : World × List CallEvent} {env : Env} {runId : String}

/-- A longer log. -/
theorem calledWith_append (log more : List CallEvent) :
    asker.calledWith runId (log ++ more) = asker.calledWith runId log ++ asker.calledWith runId more := by
  rw [calledWith, List.filterMap_append]
  rfl

/-- A log of one event. -/
theorem calledWith_tool (caller : Actor) (tool : ToolSpec) (args : Dict) (reply : Except Exc Json) :
    asker.calledWith runId [⟨.tool caller tool args, reply⟩] =
      if caller = asker.actor runId ∧ tool = asker.tool then [args] else [] := by
  by_cases hcall : caller = asker.actor runId ∧ tool = asker.tool
  · simp [calledWith, if_pos hcall]
  · simp [calledWith, if_neg hcall]

/-- What was issued stays issued. -/
theorem Issued.mono (h : Issued s.1 runId) (huuids : s.1.stores.uuids ≤ s'.1.stores.uuids) : Issued s'.1 runId := by
  obtain ⟨n, hn, hrun⟩ := h
  exact ⟨n, by omega, hrun⟩

/-- Nothing happened. -/
theorem Aside.refl (s : World × List CallEvent) : asker.Aside busy s s where
  approvals := rfl
  agents _ agent h := ⟨agent, h, rfl⟩
  uuids := Nat.le_refl _
  checkpoints _ _ := rfl
  log := ⟨[], (List.append_nil _).symm, fun _ _ => rfl⟩

/-- One thing after another. -/
theorem Aside.trans (h : asker.Aside busy s s') (h' : asker.Aside busy s' s'') : asker.Aside busy s s'' where
  approvals := h'.approvals.trans h.approvals
  agents id agent hagent := by
    obtain ⟨middle, hmiddle, hname⟩ := h'.agents id agent hagent
    obtain ⟨before, hbefore, hname'⟩ := h.agents id middle hmiddle
    exact ⟨before, hbefore, hname'.trans hname⟩
  uuids := Nat.le_trans h.uuids h'.uuids
  checkpoints runId hrun := (h'.checkpoints runId hrun).trans (h.checkpoints runId hrun)
  log := by
    obtain ⟨more, hmore, hcalls⟩ := h.log
    obtain ⟨more', hmore', hcalls'⟩ := h'.log
    refine ⟨more ++ more', by rw [hmore', hmore, List.append_assoc], ?_⟩
    intro runId hrun
    rw [calledWith_append, hcalls runId hrun, hcalls' runId hrun]
    rfl

/-- Run ids are not taken back. -/
theorem respond_uuids (stores : Stores) (now : Time) (c : Call) (given : Except Exc (Reply c)) :
    stores.uuids ≤ (stores.respond now c given).1.uuids := by
  cases c with
  | uuid4 => exact Nat.le_succ _
  | _ =>
    cases given
    all_goals simp only [Stores.respond]
    all_goals (repeat' split)
    all_goals exact Nat.le_refl _

/-- A call that spares the agents leaves their names. -/
theorem respond_names {stores : Stores} {now : Time} {c : Call} {given : Except Exc (Reply c)} (hc : asker.Spares busy c)
    {id : ℕ} {agent : AgentRow} (h : (stores.respond now c given).1.agents.row id = some agent) :
    ∃ before, stores.agents.row id = some before ∧ before.name = agent.name := by
  by_cases hwrites : Stores.WritesAgents c
  · cases c with
    | setAgentStatus updated status =>
      cases given with
      | error error => exact ⟨agent, h, rfl⟩
      | ok value =>
        simp only [Stores.respond] at h
        split at h
        · exact ⟨agent, h, rfl⟩
        · rw [Table.row_update] at h
          split at h
          · rename_i hid
            obtain ⟨before, hbefore, rfl⟩ := Option.map_eq_some_iff.mp h
            exact ⟨before, hid ▸ hbefore, rfl⟩
          · exact ⟨agent, h, rfl⟩
    | _ => first | exact hc.elim | exact hwrites.elim
  · rw [Stores.respond_agents hwrites] at h
    exact ⟨agent, h, rfl⟩

/-- A call that spares the tool is none of it. -/
theorem calledWith_spared {c : Call} (hc : asker.Spares busy c) (reply : Except Exc (Reply c)) (runId : String)
    (hrun : some runId ≠ busy) : asker.calledWith runId [⟨c, reply⟩] = [] := by
  cases c with
  | tool caller tool args =>
    rw [calledWith_tool, if_neg]
    rintro ⟨rfl, htool⟩
    exact hrun (hc htool rfl)
  | _ => rfl

/-- One such call. -/
theorem Aside.answer {c : Call} {reply : Except Exc (Reply c)} (hc : asker.Spares busy c)
    (h : (logProtocol env).answers s c reply s') : asker.Aside busy s s' := by
  obtain ⟨hanswer, hlog⟩ := answers_logged h
  have hstores : (s.1.stores.respond (env.now s.1.tick) c (env.given s.1.tick c)).1 = s'.1.stores :=
    congrArg Prod.fst (World.answer_spec hanswer).2
  have happrovals : ¬ Stores.WritesApprovals c := by
    intro hwrites
    cases c <;> first | exact hc.elim | exact hwrites.elim
  refine ⟨⟨?_, ?_, [⟨c, reply⟩], hlog, calledWith_spared hc reply⟩, ?_, ?_⟩
  · rw [← hstores]
    exact respond_uuids _ _ _ _
  · intro runId hrun
    have hcheckpoint : ¬ Stores.WritesCheckpoint runId c := by
      intro hwrites
      cases c with
      | putCheckpoint thread run =>
        obtain rfl : thread = runId := hwrites
        exact hrun hc
      | _ => exact hwrites.elim
    rw [← hstores, Stores.respond_checkpoints hcheckpoint]
  · rw [← hstores, Stores.respond_approvals happrovals]
  · intro id agent hagent
    rw [← hstores] at hagent
    exact respond_names hc hagent

/-- A coroutine of such calls. -/
theorem ensures_aside {α : Type} {p : Coroutine α} (hp : p.Only (asker.Spares busy)) (h : asker.Aside busy s s') :
    (logProtocol env).Ensures (fun _ s'' => asker.Aside busy s s'') p s' :=
  Protocol.ensures_only hp (fun _ _ hbefore hc => ⟨trivial, fun _ _ hreply => hbefore.trans (Aside.answer hc hreply)⟩) h

/-- What a longer log tells of another run. -/
theorem WroteAsApproved.append {log more : List CallEvent} (h : asker.WroteAsApproved runId log)
    (hmore : asker.calledWith runId more = []) : asker.WroteAsApproved runId (log ++ more) := by
  rcases h with hnone | ⟨earlier, later, args, rfl, hearlier, hlater, happroved⟩
  · left
    rw [calledWith_append, hnone, hmore]
    rfl
  · right
    refine ⟨earlier, later ++ more, args, List.append_assoc _ _ _, hearlier, ?_, happroved⟩
    rw [calledWith_append, hlater, hmore]
    rfl

/-- What was filed stays filed. -/
theorem FiledIn.append {log : List CallEvent} {args : Dict} {row : ApprovalRow} (h : asker.FiledIn runId args row log)
    (more : List CallEvent) : asker.FiledIn runId args row (log ++ more) := by
  obtain ⟨agentId, hfiled⟩ := h
  exact ⟨agentId, List.mem_append_left _ hfiled⟩

/-- A run that waits goes on waiting while others are at work. -/
theorem Filed.apart {row : ApprovalRow} (h : asker.Filed s row) (hapart : asker.Apart busy s s')
    (hrun : some row.runId ≠ busy) : asker.Filed s' row := by
  obtain ⟨more, hmore, hcalls⟩ := hapart.log
  obtain ⟨inserted, hid, hfiled⟩ := h.filed
  obtain ⟨payload, book, hwaits⟩ := h.waits
  refine ⟨⟨inserted, hid, ?_⟩, ?_, payload, book, ?_⟩
  · rw [hmore]
    exact hfiled.append more
  · rw [hmore, calledWith_append, h.unused, hcalls _ hrun]
    rfl
  · refine { hwaits with saved := ?_ }
    rw [hapart.checkpoints _ hrun]
    exact hwaits.saved

/-- What is kept is kept where other runs are left alone and the rows are as they should be. -/
theorem Kept.apart (h : asker.Kept busy s) (hapart : asker.Apart busy s s')
    (hissued : ∀ id row, s'.1.stores.approvals.row id = some row → Issued s'.1 row.runId)
    (hunique : ∀ id id' row row', s'.1.stores.approvals.row id = some row → s'.1.stores.approvals.row id' = some row' →
      row.runId = row'.runId → id = id')
    (hwaiting : ∀ id row agent, s'.1.stores.approvals.row id = some row → row.status = "pending" →
      s'.1.stores.agents.row row.agentId = some agent → agent.name = asker.agentName → some row.runId ≠ busy →
        asker.Filed s' row) : asker.Kept busy s' := by
  obtain ⟨more, hmore, hcalls⟩ := hapart.log
  refine ⟨?_, hissued, hunique, ?_, hwaiting, ?_⟩
  · exact fun runId hrun => (h.running runId hrun).mono hapart.uuids
  · intro runId hrun
    have hbefore : ¬ Issued s.1 runId := fun hissued => hrun (hissued.mono hapart.uuids)
    have hbusy : some runId ≠ busy := fun hsame => hbefore (h.running runId hsame.symm)
    obtain ⟨hcalled, hcheckpoint⟩ := h.fresh runId hbefore
    rw [hmore, calledWith_append, hcalled, hcalls runId hbusy, hapart.checkpoints runId hbusy]
    exact ⟨rfl, hcheckpoint⟩
  · intro runId hbusy
    rw [hmore]
    exact (h.wrote runId hbusy).append (hcalls runId hbusy)

/-- What is kept is kept by others at work. -/
theorem Kept.aside (h : asker.Kept busy s) (haside : asker.Aside busy s s') : asker.Kept busy s' := by
  apply h.apart haside.toApart
  · intro id row hrow
    rw [haside.approvals] at hrow
    exact (h.issued id row hrow).mono haside.uuids
  · rw [haside.approvals]
    exact h.unique
  · intro id row agent hrow hpending hagent hname hbusy
    rw [haside.approvals] at hrow
    obtain ⟨before, hbefore, hsame⟩ := haside.agents _ agent hagent
    exact (h.waiting id row before hrow hpending hbefore (hsame.trans hname) hbusy).apart haside.toApart hbusy

end Aside

/-! ## A thread in the world -/

section Threads

variable {asker} {s s' : World × List CallEvent} {env : Env} {runId : String} {book book' : Logbook}

/-- The world and its log tell what the book of a thread tells. -/
structure Mirrors (asker : Asker ν ρ) (runId : String) (s : World × List CallEvent) (book : Logbook) : Prop where
  saved : book.saved = s.1.stores.checkpoints runId
  asks : asker.calledWith runId s.2 = asker.asksOf book.history

/-- One more entry. -/
theorem asksOf_append (history : List Deed) (deed : Deed) :
    asker.asksOf (history ++ [deed]) = asker.asksOf history ++ asker.asksOf [deed] := by
  rw [asksOf, List.filterMap_append]
  rfl

/-- What the world answers to a call of a run, the book of its thread answers. -/
theorem follows_book (runId : String) : (logProtocol env).Follows (bookProtocol asker.tracker asker.contract)
    (RunCall (asker.actor runId)) (asker.Mirrors runId) where
  allowed _ _ _ _ _ _ := trivial
  answers s book c reply s' hmirrors hc h := by
    obtain ⟨hanswer, hlog⟩ := answers_logged h
    have hspec := (World.answer_spec hanswer).2
    have hstores : (s.1.stores.respond (env.now s.1.tick) c (env.given s.1.tick c)).1 = s'.1.stores := congrArg Prod.fst hspec
    have hother (hwrites : ¬ Stores.WritesCheckpoint runId c) :
        s'.1.stores.checkpoints runId = s.1.stores.checkpoints runId := by
      rw [← hstores, Stores.respond_checkpoints hwrites]
    let replies : Replies := fun _ c => (s.1.answer env c).2
    have hreply : replies book.tick c = reply := congrArg Prod.snd hanswer
    have hstored : checkpointStore book.saved c (Logbook.noted c reply) = (s'.1.stores.checkpoints runId, reply) := by
      rw [hmirrors.saved]
      cases c with
      | loadCheckpoint thread =>
        obtain rfl : thread = runId := hc
        cases hgiven : env.given s.1.tick (.loadCheckpoint thread) with
        | error error =>
          rw [hgiven] at hspec
          obtain ⟨hstores, rfl⟩ := Prod.mk.inj hspec
          rw [← hstores]
          rfl
        | ok value =>
          rw [hgiven] at hspec
          obtain ⟨hstores, rfl⟩ := Prod.mk.inj hspec
          rw [← hstores]
          rfl
      | putCheckpoint thread run =>
        obtain rfl : thread = runId := hc
        cases hgiven : env.given s.1.tick (.putCheckpoint thread run) with
        | error error =>
          rw [hgiven] at hspec
          obtain ⟨hstores, rfl⟩ := Prod.mk.inj hspec
          rw [← hstores]
          rfl
        | ok value =>
          rw [hgiven] at hspec
          obtain ⟨hstores, rfl⟩ := Prod.mk.inj hspec
          rw [← hstores]
          show (some run, _) = (Function.update s.1.stores.checkpoints thread (some run) thread, _)
          rw [Function.update_self]
      | enter caller node =>
        obtain ⟨hstores, rfl⟩ := Prod.mk.inj hspec
        rw [← hstores]
        rfl
      | _ =>
        first
        | exact hc.elim
        | rw [hother fun hwrites => hwrites]
          rfl
    have hbook : book.answer replies c =
        (⟨book.tick + 1, s'.1.stores.checkpoints runId, book.history ++ [.called ⟨c, reply⟩]⟩, reply) := by
      simp only [Logbook.answer, hreply, hstored]
    refine ⟨_, ⟨replies, hbook⟩, rfl, ?_⟩
    rw [hlog, calledWith_append, asksOf_append, hmirrors.asks]
    cases c with
    | tool caller tool args =>
      obtain rfl : caller = asker.actor runId := hc
      rw [calledWith_tool]
      by_cases htool : tool = asker.tool <;> simp [asksOf, htool]
    | _ => rfl

variable (asker)

/-- What is known of the run under way after a call. -/
theorem live_answer {replies : Replies} {c : Call} {reply : Except Exc (Reply c)}
    (h : book.answer replies c = (book', reply)) :
    (tracked asker.tracker book'.history).live = (tracked asker.tracker book.history).live ∧
        callsTool asker.tool ⟨c, reply⟩ = false ∨
      (tracked asker.tracker book'.history).live = asker.tracker.note (tracked asker.tracker book.history).live ⟨c, reply⟩ := by
  rw [(answer_inv h).1, tracked_append]
  cases c with
  | putCheckpoint thread run => cases reply <;> exact .inl ⟨rfl, rfl⟩
  | loadCheckpoint thread => exact .inl ⟨rfl, rfl⟩
  | enter caller node => exact .inl ⟨rfl, rfl⟩
  | _ => exact .inr rfl

/-- A call to the tool is one more that the history asks for; other calls are none. -/
theorem asksOf_called (c : Call) (reply : Except Exc (Reply c)) :
    callsTool asker.tool ⟨c, reply⟩ = false ∧ asker.asksOf [.called ⟨c, reply⟩] = [] ∨
      ∃ caller args, c = .tool caller asker.tool args ∧ asker.asksOf [.called ⟨c, reply⟩] = [args] := by
  cases c with
  | tool caller tool args =>
    by_cases htool : tool = asker.tool
    · subst htool
      exact .inr ⟨caller, args, rfl, by simp [asksOf]⟩
    · exact .inl ⟨by simp [callsTool, htool], by simp [asksOf, htool]⟩
  | _ => exact .inl ⟨rfl, rfl⟩

variable {asker fleet}

/-- Nothing was decided and the tool was not called in the run under way. -/
structure Undecided (asker : Asker ν ρ) (book : Logbook) : Prop where
  decision : asker.decision (tracked asker.tracker book.history).live = none
  asked : asker.asked (tracked asker.tracker book.history).live = false
  asks : asker.asksOf book.history = []

/-- A run does not call the tool before a decision. -/
theorem Undecided.answer (hkeeps : asker.Keeps fleet) (h : asker.Undecided book) {replies : Replies} {c : Call}
    {reply : Except Exc (Reply c)} (hallowed : asker.contract.allowed (tracked asker.tracker book.history).live c)
    (hanswer : book.answer replies c = (book', reply)) : asker.Undecided book' := by
  rcases asksOf_called asker c reply with ⟨hcalls, hasks⟩ | ⟨caller, args, rfl, -⟩
  · have hhistory : asker.asksOf book'.history = [] := by
      rw [(answer_inv hanswer).1, asksOf_append, h.asks, hasks]
      rfl
    rcases live_answer asker hanswer with ⟨hlive, -⟩ | hlive
    · exact ⟨by rw [hlive, h.decision], by rw [hlive, h.asked], hhistory⟩
    · refine ⟨?_, ?_, hhistory⟩
      · rw [hlive, (hkeeps.records.note _ _).2, h.decision]
      · rw [hlive, hkeeps.noted, h.asked, hcalls]
        rfl
  · obtain ⟨-, payload, decision, -, -, hdecision, -⟩ := hkeeps.allows _ _ _ hallowed
    rw [h.decision] at hdecision
    cases hdecision

/-- The interrupt was decided, and the tool was called at most once, as the interrupt asked and only if it was approved. -/
structure Decided (asker : Asker ν ρ) (payload given : Json) (args : Dict) (book : Logbook) : Prop where
  shown : asker.shown (tracked asker.tracker book.history).live = some payload
  decision : asker.decision (tracked asker.tracker book.history).live = some given
  asks : asker.asksOf book.history = [] ∧ asker.asked (tracked asker.tracker book.history).live = false ∨
    asker.asksOf book.history = [args] ∧ asker.asked (tracked asker.tracker book.history).live = true ∧ isApproval given

/-- A run calls the tool once after an approval, as the interrupt asked. -/
theorem Decided.answer (hkeeps : asker.Keeps fleet) {payload given : Json} {args : Dict}
    (hargs : payload.item "args" = .ok (.obj args)) (h : asker.Decided payload given args book) {replies : Replies}
    {c : Call} {reply : Except Exc (Reply c)}
    (hallowed : asker.contract.allowed (tracked asker.tracker book.history).live c)
    (hanswer : book.answer replies c = (book', reply)) : asker.Decided payload given args book' := by
  have hhistory : asker.asksOf book'.history = asker.asksOf book.history ++ asker.asksOf [.called ⟨c, reply⟩] := by
    rw [(answer_inv hanswer).1, asksOf_append]
  rcases asksOf_called asker c reply with ⟨hcalls, hasks⟩ | ⟨caller, called, rfl, hasks⟩
  · rw [hasks, List.append_nil] at hhistory
    rcases live_answer asker hanswer with ⟨hlive, -⟩ | hlive
    · exact ⟨by rw [hlive, h.shown], by rw [hlive, h.decision], by rw [hlive, hhistory]; exact h.asks⟩
    · refine ⟨?_, ?_, ?_⟩
      · rw [hlive, (hkeeps.records.note _ _).1, h.shown]
      · rw [hlive, (hkeeps.records.note _ _).2, h.decision]
      · rw [hlive, hkeeps.noted, hcalls, Bool.or_false, hhistory]
        exact h.asks
  · obtain ⟨hunasked, shown, decision, hshown, hcalled, hdecision, happroval⟩ := hkeeps.allows _ _ _ hallowed
    obtain rfl : payload = shown := Option.some.inj (h.shown.symm.trans hshown)
    obtain rfl : given = decision := Option.some.inj (h.decision.symm.trans hdecision)
    obtain rfl : args = called := by
      rw [hargs] at hcalled
      exact Json.obj.inj (Except.ok.inj hcalled)
    have hnone : asker.asksOf book.history = [] := by
      rcases h.asks with ⟨hnone, -⟩ | ⟨-, hasked, -⟩
      · exact hnone
      · rw [hunasked] at hasked
        cases hasked
    rw [hnone, hasks] at hhistory
    rcases live_answer asker hanswer with ⟨-, hcalls⟩ | hlive
    · simp [callsTool] at hcalls
    · refine ⟨?_, ?_, .inr ⟨hhistory, ?_, happroval⟩⟩
      · rw [hlive, (hkeeps.records.note _ _).1, h.shown]
      · rw [hlive, (hkeeps.records.note _ _).2, h.decision]
      · rw [hlive, hkeeps.noted]
        simp [callsTool]

/-- A new run in the world: it files nothing, it does not call the tool, and where it stops at an interrupt it waits
there. -/
theorem ensures_started (hkeeps : asker.Keeps fleet) (input : Dict) (hclean : s.1.stores.checkpoints runId = none)
    (hunused : asker.calledWith runId s.2 = []) : (logProtocol env).Ensures
      (fun result s' => asker.calledWith runId s'.2 = [] ∧ ∀ values payload, result = .ok ⟨values, some payload⟩ →
        payload.item "tool" = .ok (.str asker.tool.name) ∧
          ∃ args book, payload.item "args" = .ok (.obj args) ∧ asker.AtInterrupt s'.1 runId args payload book)
      (ainvoke (asker.graph (asker.actor runId)) (asker.saver runId) input) s := by
  have honly : (ainvoke (asker.graph (asker.actor runId)) (asker.saver runId) input).Only (RunCall (asker.actor runId)) :=
    only_ainvoke (hkeeps.body runId) input
  have hkept : SavedKept asker.tracker asker.contract asker.names ⟨0, none, []⟩ := by
    intro checkpoint node hcheckpoint
    cases hcheckpoint
  have hopens : asker.contract.Opens asker.tracker (asker.graph (asker.actor runId)) ⟨0, none, []⟩ (.invoke input) :=
    fun given _ => (hkeeps.met runId).enters _
  have hfresh : asker.Undecided (Logbook.enter ⟨0, none, []⟩ (.opened (.invoke input))) := ⟨hkeeps.fresh.2, hkeeps.fresh.1, rfl⟩
  have hsession := (ensures_session (hkeeps.met runId).toSound (asker.actor runId) (.invoke input) hkept hopens).keeps_allowed
    honly (fun book c reply book' hbook _ hallowed hanswer => by
      obtain ⟨replies, hanswer⟩ := hanswer
      exact hbook.answer hkeeps hallowed hanswer) hfresh
  have hmirrors : asker.Mirrors runId s (Logbook.enter ⟨0, none, []⟩ (.opened (.invoke input))) := ⟨hclean.symm, hunused⟩
  apply (hsession.follow (follows_book runId) honly hmirrors).mono
  intro result s' hresult
  obtain ⟨book, ⟨⟨hpermits, hsaved⟩, hundecided⟩, hbook⟩ := hresult
  refine ⟨hbook.asks.trans hundecided.asks, ?_⟩
  rintro values payload rfl
  obtain ⟨htool, args, hargs⟩ := hkeeps.shows _ _ hpermits
  refine ⟨htool, args, book.enter (.stopped (.ok ⟨values, some payload⟩)), hargs, hbook.saved, hsaved, ?_, ?_, hargs, ?_, ?_⟩
  · rw [Logbook.enter, tracked_append]
    exact (hkeeps.records.showing _ _).1
  · rw [Logbook.enter, tracked_append]
    exact (hkeeps.records.showing _ _).2
  · rw [Logbook.enter, tracked_append]
    exact (hkeeps.showing _ _).trans hundecided.asked
  · rw [Logbook.enter, asksOf_append, hundecided.asks]
    rfl

/-- A decided run in the world calls the tool at most once, with what it waited with, and only if it was approved. -/
theorem ensures_resumed (hkeeps : asker.Keeps fleet) {args : Dict} {payload : Json} (given : Json)
    (hwaits : asker.AtInterrupt s.1 runId args payload book) (hunused : asker.calledWith runId s.2 = []) :
    (logProtocol env).Ensures (fun _ s' => asker.calledWith runId s'.2 = [] ∨
        asker.calledWith runId s'.2 = [args] ∧ isApproval given)
      (aresume (asker.graph (asker.actor runId)) (asker.saver runId) given) s := by
  have honly : (aresume (asker.graph (asker.actor runId)) (asker.saver runId) given).Only (RunCall (asker.actor runId)) :=
    only_aresume (hkeeps.body runId) given
  have hopens : asker.contract.Opens asker.tracker (asker.graph (asker.actor runId)) book (.resume given) := by
    intro input hinput
    cases hinput
  have hopened : (tracked asker.tracker (book.enter (.opened (.resume given))).history).live =
      asker.tracker.decided (tracked asker.tracker book.history).saved given := by
    rw [Logbook.enter, tracked_append]
    rfl
  have hasks : asker.asksOf (book.enter (.opened (.resume given))).history = [] := by
    rw [Logbook.enter, asksOf_append, hwaits.idle.2]
    rfl
  have hdecided : asker.Decided payload given args (book.enter (.opened (.resume given))) := by
    refine ⟨?_, ?_, .inl ⟨hasks, ?_⟩⟩
    · rw [hopened, (hkeeps.records.deciding _ _).1, hwaits.shown]
    · rw [hopened, (hkeeps.records.deciding _ _).2, hwaits.shown, hwaits.waits]
      rfl
    · rw [hopened, hkeeps.deciding, hwaits.idle.1]
  have hsession := (ensures_session (hkeeps.met runId).toSound (asker.actor runId) (.resume given) hwaits.kept hopens).keeps_allowed
    honly (fun book c reply book' hbook _ hallowed hanswer => by
      obtain ⟨replies, hanswer⟩ := hanswer
      exact hbook.answer hkeeps hwaits.args hallowed hanswer) hdecided
  have hmirrors : asker.Mirrors runId s (book.enter (.opened (.resume given))) := ⟨hwaits.saved, hunused.trans hasks.symm⟩
  apply (hsession.follow (follows_book runId) honly hmirrors).mono
  intro result s' hresult
  obtain ⟨book', ⟨-, hafter⟩, hbook⟩ := hresult
  rw [hbook.asks]
  rcases hafter.asks with ⟨hnone, -⟩ | ⟨hone, -, happroval⟩
  · exact .inl hnone
  · exact .inr ⟨hone, happroval⟩

end Threads

end Asker

end FleetWorkflow.Approvals
