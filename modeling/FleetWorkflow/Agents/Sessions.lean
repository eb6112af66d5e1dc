import Mathlib.Data.List.Induction
import FleetWorkflow.Agents.Tools
import FleetWorkflow.Core.BaseSafety

/-!
# Sessions on a thread

Any sequence of invocations and resumes on one thread of a graph. Checkpoints are kept as they were saved; every
other reply, and every failure, is arbitrary. What is known of the run under way is kept track of twice, once for the
running session and once for the checkpoint, so that a resumed session takes up what its checkpoint was saved with.
A contract says what each node relies on and what each checkpoint keeps; a graph that meets it follows it in every
history.
-/

namespace FleetWorkflow.Agents

open Python Async Core

/-! ## Histories -/

/-- One entry of a history: a session opens, a call is answered, or a session stops with its result. -/
inductive Deed where
  | opened (session : Session)
  | called (event : CallEvent)
  | stopped (result : Except Exc AgentRun)

/-- The state of a thread: what is saved, and what happened so far. -/
structure Logbook where
  tick : ℕ
  saved : Option SavedRun
  history : List Deed

namespace Logbook

/-- The notice that a node starts does not fail. -/
def noted : (c : Call) → Except Exc (Reply c) → Except Exc (Reply c)
  | .enter _ _, _ => .ok ()
  | _, reply => reply

/-- Answer one call on the thread. -/
def answer (replies : Replies) (book : Logbook) (c : Call) : Logbook × Except Exc (Reply c) :=
  let stored := checkpointStore book.saved c (noted c (replies book.tick c))
  (⟨book.tick + 1, stored.1, book.history ++ [.called ⟨c, stored.2⟩]⟩, stored.2)

/-- Enter something into the history. -/
def enter (book : Logbook) (deed : Deed) : Logbook := { book with history := book.history ++ [deed] }

/-- Hold one session. -/
def hold {ν : Type} (graph : AgentGraph ν) (saver : Saver Call Reply Exc ν Dict) (replies : Replies)
    (book : Logbook) (session : Session) : Logbook :=
  let held := (session.task graph saver).run (answer replies) (book.enter (.opened session))
  held.1.enter (.stopped held.2)

/-- Hold sessions one after another. -/
def holdAll {ν : Type} (graph : AgentGraph ν) (saver : Saver Call Reply Exc ν Dict) (replies : Replies)
    (book : Logbook) (sessions : List Session) : Logbook :=
  sessions.foldl (hold graph saver replies) book

end Logbook

/-! ## Keeping track of a run -/

/-- How what is known of a run starts, and what a call, a shown interrupt and a decision make of it. -/
structure Tracker (ρ : Type) where
  fresh : ρ
  note : ρ → CallEvent → ρ
  shown : ρ → Json → ρ
  decided : ρ → Json → ρ

/-- What is known of the run of the session, and of the run that the checkpoint is from. -/
structure Tracked (ρ : Type) where
  live : ρ
  saved : ρ

section Tracking

variable {ρ : Type} (tracker : Tracker ρ)

/-- A new run starts over, a resumed one takes up the checkpoint's with the decision; a save keeps what is known, and
a session that stops at an interrupt has shown it. -/
def Tracked.note (tracked : Tracked ρ) : Deed → Tracked ρ
  | .opened (.invoke _) => { tracked with live := tracker.fresh }
  | .opened (.resume decision) => { tracked with live := tracker.decided tracked.saved decision }
  | .called ⟨.putCheckpoint _ _, .ok _⟩ => { tracked with saved := tracked.live }
  | .called ⟨.putCheckpoint _ _, .error _⟩ => tracked
  | .called ⟨.loadCheckpoint _, _⟩ => tracked
  | .called ⟨.enter _ _, _⟩ => tracked
  | .called event => { tracked with live := tracker.note tracked.live event }
  | .stopped (.ok ⟨_, some payload⟩) => ⟨tracker.shown tracked.live payload, tracker.shown tracked.live payload⟩
  | .stopped _ => tracked

/-- What is known after a history. -/
def tracked (history : List Deed) : Tracked ρ := history.foldl (Tracked.note tracker) ⟨tracker.fresh, tracker.fresh⟩

/-- What is known after one more entry. -/
theorem tracked_append (history : List Deed) (deed : Deed) :
    tracked tracker (history ++ [deed]) = (tracked tracker history).note tracker deed := by
  simp [tracked]

end Tracking

/-- The calls of the checkpointer, and the notice that a node starts. -/
def StoreCall : Call → Prop
  | .loadCheckpoint _ | .putCheckpoint _ _ | .enter _ _ => True
  | _ => False

/-! ## Contracts -/

/-- What a graph promises: which calls are allowed and which interrupts are shown in the light of what is known, which
nodes only ask for a decision, what a node relies on when it starts, what a checkpoint at a node keeps, and how far a
node is from the end. -/
structure Contract (ν ρ : Type) where
  allowed : ρ → Call → Prop
  shows : ρ → Json → Prop
  asks : ν → Bool
  relies : Option Json → ν → Dict → ρ → Prop
  keeps : ν → Dict → ρ → Prop
  rank : ν → ℕ

section Contracts

variable {ν ρ : Type} (tracker : Tracker ρ) (contract : Contract ν ρ) (graph : AgentGraph ν)

/-- The calls of a node, in the light of what is known. -/
def runProtocol : Protocol Call Reply Exc ρ where
  allowed r c := contract.allowed r c
  answers r c reply r' := r' = tracker.note r ⟨c, reply⟩

/-- What a node leaves: the node that it routes to can start, and a checkpoint there can be resumed unless the node
only asks. -/
def Contract.Leaves (node : ν) (values : Dict) : Except Exc NodeOutcome → ρ → Prop
  | .ok (.wrote writes), r => ∀ next, graph.route node (graph.merge values writes) = .ok (some next) →
      contract.relies none next (graph.merge values writes) r ∧
        (contract.asks next = true ∨ contract.keeps next (graph.merge values writes) r)
  | .ok (.interrupted _), _ => False
  | .error _, _ => True

/-- Every node of the graph takes what it relies on to what it leaves. -/
structure Contract.Sound : Prop where
  store : ∀ r c, StoreCall c → contract.allowed r c
  inward : ∀ node resume values, (graph.body node resume values).Only fun c => ¬ StoreCall c
  entry : contract.asks graph.entry = false
  resumes : ∀ node values r decision, contract.keeps node values r →
    contract.relies (some decision) node values (tracker.decided r decision)
  asking : ∀ node values r, contract.asks node = true → contract.relies none node values r →
    ∃ payload, graph.body node none values = .done (.interrupted payload) ∧ contract.shows r payload ∧
      contract.keeps node values (tracker.shown r payload)
  acting : ∀ node resume values r, (contract.asks node = true → resume ≠ none) →
    contract.relies resume node values r → (runProtocol tracker contract).Ensures
      (contract.Leaves graph node values) (graph.body node resume values) r
  descends : ∀ node values next, graph.route node values = .ok (some next) → contract.rank next < contract.rank node
  bounded : ∀ node, contract.rank node < recursionLimit

/-- A new run can start in a state. -/
def Contract.Starts (values : Dict) : Prop :=
  contract.relies none graph.entry values tracker.fresh ∧ contract.keeps graph.entry values tracker.fresh

/-- The graph meets its contract, whatever state a run starts in. -/
structure Contract.Met : Prop extends contract.Sound tracker graph where
  enters : ∀ values, contract.relies none graph.entry values tracker.fresh ∧
    contract.keeps graph.entry values tracker.fresh

/-- Where it can start, a node is sure to write and to lead to another one. -/
def Contract.Sure (node : ν) : Prop :=
  ∀ resume values r, contract.relies resume node values r → ∃ writes next,
    graph.body node resume values = .done (.wrote writes) ∧
      graph.route node (graph.merge values writes) = .ok (some next)

/-- An entry of a history is as the contract says. -/
def Contract.Permits (known : Tracked ρ) : Deed → Prop
  | .called event => contract.allowed known.live event.call
  | .stopped (.ok ⟨_, some payload⟩) => contract.shows known.live payload
  | _ => True

/-- A history follows the contract. -/
def Contract.Follows (history : List Deed) : Prop :=
  ∀ earlier deed later, history = earlier ++ deed :: later → contract.Permits (tracked tracker earlier) deed

/-- The calls of a thread, in the light of its history. -/
def bookProtocol : Protocol Call Reply Exc Logbook where
  allowed book c := contract.allowed (tracked tracker book.history).live c
  answers book c reply book' := ∃ replies, book.answer replies c = (book', reply)

variable (names : NodeNames ν)

/-- The saved checkpoint keeps what its node is resumed with. -/
def SavedKept (book : Logbook) : Prop :=
  ∀ checkpoint node, book.saved = some checkpoint → checkpoint.next.bind names.ofName = some node →
    contract.keeps node checkpoint.values (tracked tracker book.history).saved

/-- A node that only asks has started, and no save has failed: what it shows will be known. -/
def Pending (failed : Option Exc) (resume : Option Json) (node : ν) : Prop :=
  contract.asks node = true ∧ resume = none ∧ failed = none

/-- A node can start. -/
structure Ready (failed : Option Exc) (resume : Option Json) (node : ν) (values : Dict) (book : Logbook) :
    Prop where
  relies : contract.relies resume node values (tracked tracker book.history).live
  pending : Pending contract failed resume node → book.saved = some ⟨values, some (names.name node)⟩
  kept : ¬ Pending contract failed resume node → SavedKept tracker contract names book

/-- A session may stop with a result. -/
def MayStop (result : Except Exc AgentRun) (book : Logbook) : Prop :=
  contract.Permits (tracked tracker book.history) (.stopped result) ∧
    SavedKept tracker contract names (book.enter (.stopped result))

end Contracts

/-- The last entry announces the node of a name. -/
def Announced (name : String) (history : List Deed) : Prop :=
  ∃ earlier actor reply, history = earlier ++ [.called ⟨.enter actor name, reply⟩]

/-- A session failed as soon as the node of a name was announced: the node raised. -/
def RaisedIn (name : String) (history : List Deed) : Prop :=
  ∃ earlier actor reply error later,
    history = earlier ++ .called ⟨.enter actor name, reply⟩ :: .stopped (.error error) :: later

/-- A session that has just announced the node of a name does not fail. -/
def Unharmed (name : String) (result : Except Exc AgentRun) (book : Logbook) : Prop :=
  ∀ error, result = .error error → ¬ Announced name book.history

/-! ## Calls -/

section Calls

variable {ν ρ : Type} {tracker : Tracker ρ} {contract : Contract ν ρ} {graph : AgentGraph ν} {names : NodeNames ν}
  {book book' : Logbook}

/-- What a reply leaves: one more entry, and the checkpoint that the reply says. -/
theorem answer_inv {replies : Replies} {c : Call} {reply : Except Exc (Reply c)}
    (h : book.answer replies c = (book', reply)) : book'.history = book.history ++ [.called ⟨c, reply⟩] ∧
      book'.saved = (checkpointStore book.saved c reply).1 := by
  have hreply : (book.answer replies c).2 = reply := congrArg Prod.snd h
  have hbook : (book.answer replies c).1 = book' := congrArg Prod.fst h
  rw [← hbook, ← hreply]
  refine ⟨rfl, ?_⟩
  simp only [Logbook.answer]
  generalize Logbook.noted c (replies book.tick c) = given
  cases c with
  | putCheckpoint name run => cases given <;> rfl
  | _ => rfl

/-- A call of a node is noted and leaves the checkpoint. -/
theorem answer_inward (tracker : Tracker ρ) {replies : Replies} {c : Call} {reply : Except Exc (Reply c)} (hc : ¬ StoreCall c)
    (h : book.answer replies c = (book', reply)) :
    tracked tracker book'.history = ⟨tracker.note (tracked tracker book.history).live ⟨c, reply⟩,
        (tracked tracker book.history).saved⟩ ∧ book'.saved = book.saved := by
  obtain ⟨hhistory, hsaved⟩ := answer_inv h
  rw [hhistory, hsaved, tracked_append]
  cases c <;> first | exact ⟨rfl, rfl⟩ | exact absurd trivial hc

/-- What a checkpoint keeps depends on the checkpoint and on what is known of it only. -/
theorem SavedKept.congr (h : SavedKept tracker contract names book) (hsaved : book'.saved = book.saved)
    (hknown : (tracked tracker book'.history).saved = (tracked tracker book.history).saved) :
    SavedKept tracker contract names book' := by
  intro checkpoint node hcheckpoint hnode
  rw [hknown]
  exact h checkpoint node (hsaved ▸ hcheckpoint) hnode

/-- A coroutine that keeps to the run's protocol keeps to the thread's. -/
theorem ensures_inward {α : Type} {p : Coroutine α} {post : Except Exc α → ρ → Prop}
    (hp : p.Only fun c => ¬ StoreCall c)
    (h : (runProtocol tracker contract).Ensures post p (tracked tracker book.history).live) :
    (bookProtocol tracker contract).Ensures (fun result book' => post result (tracked tracker book'.history).live ∧
      book'.saved = book.saved ∧ (tracked tracker book'.history).saved = (tracked tracker book.history).saved) p book := by
  induction p generalizing book with
  | done value => exact ⟨h, rfl, rfl⟩
  | raise error => exact ⟨h, rfl, rfl⟩
  | await c next ih =>
    refine ⟨h.1, ?_⟩
    intro reply book' hreply
    obtain ⟨replies, hreply⟩ := hreply
    obtain ⟨hknown, hsaved⟩ := answer_inward tracker hp.1 hreply
    have hkept : (tracked tracker book'.history).saved = (tracked tracker book.history).saved := by rw [hknown]
    have hlive : (tracked tracker book'.history).live =
        tracker.note (tracked tracker book.history).live ⟨c, reply⟩ := by rw [hknown]
    have hnext := h.2 reply _ hlive
    apply (ih reply (hp.2 reply) hnext).mono
    intro result book'' hresult
    exact ⟨hresult.1, hresult.2.1.trans hsaved, hresult.2.2.trans hkept⟩

/-- Announcing a node changes nothing, and does not fail. -/
theorem ensures_enter (h : contract.Sound tracker graph) (actor : Actor) (node : ν) :
    (bookProtocol tracker contract).Ensures (fun result book' => result = .ok () ∧ book'.saved = book.saved ∧
      tracked tracker book'.history = tracked tracker book.history ∧
        Announced (names.name node) book'.history) ((threadSaver names actor).enter node) book := by
  apply Protocol.ensures_call.mpr
  refine ⟨h.store _ _ trivial, ?_⟩
  intro reply book' hreply
  obtain ⟨replies, hreply⟩ := hreply
  obtain ⟨hhistory, hsaved⟩ := answer_inv hreply
  refine ⟨(congrArg Prod.snd hreply).symm, hsaved, ?_, book.history, actor, reply, hhistory⟩
  rw [hhistory, tracked_append]
  rfl

/-- Saving a checkpoint, unless a save failed before: the checkpoint keeps what is known, or a failure is kept for
the end and the saved checkpoint stays. -/
theorem ensures_saveAfter (h : contract.Sound tracker graph) (actor : Actor) (failed : Option Exc)
    (checkpoint : Checkpoint ν Dict) (hkept : SavedKept tracker contract names book) :
    (bookProtocol tracker contract).Ensures (fun result book' => ∃ failed', result = .ok failed' ∧
        (tracked tracker book'.history).live = (tracked tracker book.history).live ∧
        (failed' = none → book'.saved = some ⟨checkpoint.values, checkpoint.next.map names.name⟩ ∧
          (tracked tracker book'.history).saved = (tracked tracker book.history).live) ∧
        (failed' ≠ none → SavedKept tracker contract names book'))
      (StateGraph.saveAfter (threadSaver names actor) failed checkpoint) book := by
  cases failed with
  | some error => exact ⟨some error, rfl, rfl, fun hnone => absurd hnone (by simp), fun _ => hkept⟩
  | none =>
    rw [StateGraph.saveAfter, Protocol.ensures_bind, Protocol.ensures_attempt]
    apply Protocol.ensures_call.mpr
    refine ⟨h.store _ _ trivial, ?_⟩
    intro reply book' hreply
    obtain ⟨replies, hreply⟩ := hreply
    obtain ⟨hhistory, hsaved⟩ := answer_inv hreply
    have hknown := congrArg (tracked tracker) hhistory
    rw [tracked_append] at hknown
    cases reply with
    | ok value =>
      refine ⟨none, rfl, ?_, fun _ => ⟨hsaved, ?_⟩, fun hsome => absurd rfl hsome⟩
      · rw [hknown]
        rfl
      · rw [hknown]
        rfl
    | error error =>
      refine ⟨some error, rfl, ?_, fun hnone => absurd hnone (by simp), fun _ => hkept.congr hsaved ?_⟩
      · rw [hknown]
        rfl
      · rw [hknown]
        rfl

end Calls

/-! ## Shared nodes -/

section Gates

variable {ν ρ : Type} {tracker : Tracker ρ} {contract : Contract ν ρ} {r : ρ}

/-- The gate makes quiet calls, and writes its flag or nothing. -/
theorem ensures_gate (hallowed : ∀ r c, Quiet c → contract.allowed r c)
    (hnote : ∀ r (c : Call) (reply : Except Exc (Reply c)), Quiet c → tracker.note r ⟨c, reply⟩ = r)
    (killswitch : Option KillSwitch) (agentName : String) : (runProtocol tracker contract).Ensures
      (fun result r' => r' = r ∧ ∀ outcome, result = .ok outcome →
        outcome = .wrote [] ∨ outcome = .wrote [("paused", .bool true)])
      (killswitchGate killswitch agentName) r := by
  cases killswitch with
  | none => exact ⟨rfl, fun outcome houtcome => .inl (Except.ok.inj houtcome).symm⟩
  | some switch =>
    apply Protocol.ensures_bind.mpr
    have hcalls : ∀ (r' : ρ) (c : Call), r' = r → Quiet c → (runProtocol tracker contract).allowed r' c ∧
        ∀ reply r'', (runProtocol tracker contract).answers r' c reply r'' → r'' = r :=
      fun r' c hr hc => ⟨hallowed r' c hc, fun reply r'' hanswer => hanswer.trans ((hnote r' c reply hc).trans hr)⟩
    have hpaused : (runProtocol tracker contract).Ensures (fun _ r' => r' = r) (switch.isAgentPaused agentName) r :=
      Protocol.ensures_only (only_isAgentPaused switch agentName) hcalls rfl
    apply hpaused.mono
    intro paused r' hr
    cases paused with
    | error error => exact ⟨hr, fun outcome houtcome => by cases houtcome⟩
    | ok paused =>
      cases paused
      · exact ⟨hr, fun outcome houtcome => .inl (Except.ok.inj houtcome).symm⟩
      · exact ⟨hr, fun outcome houtcome => .inr (Except.ok.inj houtcome).symm⟩

/-- The assertion before an external write holds. -/
theorem assertRequiresApproval_external (py : Builtins) {tool : ToolSpec} (htool : tool.riskClass = "write:external") :
    assertRequiresApproval py tool = .done () := by
  have hneeded : requiresApproval py tool.riskClass (.decimal false 0 0) false = .ok true := by
    rw [htool]
    exact requiresApproval_external py _ _
  rw [assertRequiresApproval, hneeded]
  rfl

/-- A decision that is not an approval is written as a rejection. -/
theorem rejectUnlessApproved_inv {decision : Json} {writes : Dict} (h : rejectUnlessApproved decision = .ok writes) :
    writes = [("rejected", .bool true)] ∨ writes = [] ∧ isApproval decision := by
  obtain ⟨approved, happroved, hwrites⟩ := Flow.bind_eq_ok.mp h
  cases approved with
  | false => exact .inl (Except.ok.inj hwrites).symm
  | true =>
    refine .inr ⟨(Except.ok.inj hwrites).symm, ?_⟩
    rw [isApproval, happroved]

end Gates

/-! ## Runs -/

section Runs

variable {ν ρ : Type} {tracker : Tracker ρ} {contract : Contract ν ρ} {graph : AgentGraph ν} {names : NodeNames ν}
  {book : Logbook} {failed : Option Exc} {resume : Option Json} {node : ν} {values : Dict}

/-- A session that shows no interrupt may stop when its checkpoint is kept. -/
theorem mayStop_of_quiet {result : Except Exc AgentRun} (hquiet : ∀ run, result = .ok run → run.interrupt = none)
    (hkept : SavedKept tracker contract names book) : MayStop tracker contract names result book := by
  have hnote : (tracked tracker book.history).note tracker (.stopped result) = tracked tracker book.history := by
    match result, hquiet with
    | .error error, _ => rfl
    | .ok ⟨values, none⟩, _ => rfl
    | .ok ⟨values, some payload⟩, hquiet => cases hquiet _ rfl
  constructor
  · match result, hquiet with
    | .error error, _ => trivial
    | .ok ⟨values, none⟩, _ => trivial
    | .ok ⟨values, some payload⟩, hquiet => cases hquiet _ rfl
  · apply hkept.congr
    · rfl
    · rw [Logbook.enter, tracked_append, hnote]

/-- A run that failed may stop when its checkpoint is kept. -/
theorem mayStop_error (error : Exc) (hkept : SavedKept tracker contract names book) :
    MayStop tracker contract names (.error error) book := by
  apply mayStop_of_quiet _ hkept
  intro run hrun
  cases hrun

/-- A node that only asks stops the session at its interrupt, or with the failure of a save. -/
theorem ensures_asking {payload : Json}
    (hready : Ready tracker contract names failed none node values book) (hasks : contract.asks node = true)
    (hshows : contract.shows (tracked tracker book.history).live payload)
    (hkeeps : contract.keeps node values (tracker.shown (tracked tracker book.history).live payload)) :
    MayStop tracker contract names (StateGraph.outcome failed ⟨values, some payload⟩) book := by
  cases failed with
  | some error =>
    apply mayStop_error
    exact hready.kept fun hpending => by cases hpending.2.2
  | none =>
    refine ⟨hshows, ?_⟩
    intro checkpoint other hcheckpoint hother
    have hsaved := hready.pending ⟨hasks, rfl, rfl⟩
    cases Option.some.inj (hcheckpoint.symm.trans hsaved)
    rw [Option.bind_some, NodeNames.ofName_name] at hother
    rw [← Option.some.inj hother, Logbook.enter, tracked_append]
    exact hkeeps

/-- One superstep: the next node can start and is nearer to the end, or the session may stop. -/
theorem ensures_superstep (h : contract.Sound tracker graph) (actor : Actor)
    (hready : Ready tracker contract names failed resume node values book) :
    (bookProtocol tracker contract).Ensures
      (StateGraph.Steps (fun failed' resume' next values' book' => contract.rank next < contract.rank node ∧
        Ready tracker contract names failed' resume' next values' book') (MayStop tracker contract names))
      (StateGraph.superstep graph (threadSaver names actor) failed resume node values) book := by
  rw [StateGraph.superstep, Protocol.ensures_bind]
  apply (ensures_enter h actor node).mono
  intro entered book₁ hentered
  obtain ⟨rfl, hsaved₁, hknown₁, -⟩ := hentered
  have hready₁ : Ready tracker contract names failed resume node values book₁ := by
    refine ⟨hknown₁ ▸ hready.relies, fun hpending => hsaved₁.trans (hready.pending hpending), fun hpending => ?_⟩
    exact (hready.kept hpending).congr hsaved₁ (by rw [hknown₁])
  by_cases hasks : contract.asks node = true ∧ resume = none
  · obtain ⟨hasks, rfl⟩ := hasks
    obtain ⟨payload, hbody, hshows, hkeeps⟩ := h.asking node values _ hasks hready₁.relies
    rw [Protocol.after, hbody]
    exact ensures_asking hready₁ hasks hshows hkeeps
  · have hacts : contract.asks node = true → resume ≠ none := fun hnode hresume => hasks ⟨hnode, hresume⟩
    have hkept := hready₁.kept fun hpending => hasks ⟨hpending.1, hpending.2.1⟩
    have hbody := ensures_inward (h.inward node resume values) (h.acting node resume values _ hacts hready₁.relies)
    apply Protocol.ensures_bind.mpr
    apply hbody.mono
    intro result book₂ hresult
    obtain ⟨hleaves, hsaved₂, hknown₂⟩ := hresult
    have hkept₂ := hkept.congr hsaved₂ hknown₂
    cases result with
    | error error => exact mayStop_error error hkept₂
    | ok outcome =>
      cases outcome with
      | interrupted payload => exact hleaves.elim
      | wrote writes =>
        apply Protocol.ensures_ofExcept_bind
        · exact fun error _ => mayStop_error error hkept₂
        · intro next hroute
          apply Protocol.ensures_bind.mpr
          apply (ensures_saveAfter h actor failed ⟨graph.merge values writes, next⟩ hkept₂).mono
          intro saving book₃ hsaving
          obtain ⟨failed', rfl, hlive, hdone, hfailed⟩ := hsaving
          cases next with
          | none =>
            cases failed' with
            | some error => exact mayStop_error error (hfailed (by simp))
            | none =>
              apply mayStop_of_quiet
              · intro run hrun
                rw [← Except.ok.inj hrun]
              · intro checkpoint other hcheckpoint hother
                rw [(hdone rfl).1] at hcheckpoint
                rw [← Option.some.inj hcheckpoint] at hother
                cases hother
          | some next =>
            obtain ⟨hrelies, hkeeps⟩ := hleaves next hroute
            refine ⟨h.descends node _ next hroute, hlive ▸ hrelies, fun hpending => ?_, fun hpending => ?_⟩
            · exact (hdone hpending.2.2).1
            · cases failed' with
              | some error => exact hfailed (by simp)
              | none =>
                have hkeeps := hkeeps.resolve_left fun hnext => hpending ⟨hnext, rfl, rfl⟩
                intro checkpoint other hcheckpoint hother
                rw [(hdone rfl).1] at hcheckpoint
                rw [← Option.some.inj hcheckpoint, Option.map_some, Option.bind_some, NodeNames.ofName_name] at hother
                rw [← Option.some.inj hother, ← Option.some.inj hcheckpoint, (hdone rfl).2]
                exact hkeeps

/-- A run from a node that can start stops as it may. -/
theorem ensures_advance (h : contract.Sound tracker graph) (actor : Actor)
    (hready : Ready tracker contract names failed resume node values book) :
    (bookProtocol tracker contract).Ensures (MayStop tracker contract names)
      (StateGraph.advance graph (threadSaver names actor) graphRecursionError recursionLimit failed resume node values)
      book :=
  StateGraph.ensures_advance_of_rank contract.rank (fun _ _ _ _ _ hready => ensures_superstep h actor hready)
    recursionLimit failed resume node values book (h.bounded node) hready

/-- Loading returns what is saved. -/
theorem ensures_load (h : contract.Sound tracker graph) (actor : Actor) : (bookProtocol tracker contract).Ensures
    (fun loaded book' => book'.saved = book.saved ∧ tracked tracker book'.history = tracked tracker book.history ∧
      (∃ reply, book'.history = book.history ++ [.called ⟨.loadCheckpoint actor.thread, reply⟩]) ∧
      ∀ checkpoint, loaded = .ok checkpoint →
        checkpoint = book.saved.map fun saved => ⟨saved.values, saved.next.bind names.ofName⟩)
    (threadSaver names actor).load book := by
  apply Protocol.ensures_call_bind (h.store _ (.loadCheckpoint actor.thread) trivial)
  intro reply book' hreply
  obtain ⟨replies, hreply⟩ := hreply
  obtain ⟨hhistory, hsaved⟩ := answer_inv hreply
  have hknown : tracked tracker book'.history = tracked tracker book.history := by
    rw [hhistory, tracked_append]
    rfl
  have hfound : ∀ saved, reply = .ok saved → book.saved = saved := by
    intro saved hsaved'
    obtain ⟨found, -, hfound⟩ := Flow.map_eq_ok.mp ((congrArg Prod.snd hreply).trans hsaved')
    exact hfound
  match reply with
  | .error error => exact ⟨hsaved, hknown, ⟨_, hhistory⟩, fun checkpoint hloaded => by cases hloaded⟩
  | .ok none =>
    refine ⟨hsaved, hknown, ⟨_, hhistory⟩, fun checkpoint hloaded => ?_⟩
    rw [hfound none rfl, ← Except.ok.inj hloaded]
    rfl
  | .ok (some saved) =>
    refine ⟨hsaved, hknown, ⟨_, hhistory⟩, fun checkpoint hloaded => ?_⟩
    rw [hfound (some saved) rfl, ← Except.ok.inj hloaded]
    rfl

/-- The name of the last announcement is the only one announced last. -/
theorem Announced.name_eq {name other : String} {history : List Deed} (h : Announced name history)
    (hother : Announced other history) : name = other := by
  obtain ⟨earlier, caller, reply, rfl⟩ := h
  obtain ⟨earlier', caller', reply', hhistory⟩ := hother
  have hdeed := (List.append_inj' hhistory rfl).2
  injection (List.cons.inj hdeed).1 with hevent
  have hcall : Call.enter caller name = Call.enter caller' other := congrArg Event.call hevent
  injection hcall

/-- A call that is no announcement of a node leaves no announcement of it at the end. -/
theorem not_announced_append {name : String} (history : List Deed) {deed : Deed}
    (h : ∀ caller reply, deed ≠ .called ⟨.enter caller name, reply⟩) : ¬ Announced name (history ++ [deed]) := by
  rintro ⟨earlier, caller, reply, hhistory⟩
  exact h caller reply (List.cons.inj (List.append_inj' hhistory rfl).2).1

/-- Calls that announce nothing leave no announcement at the end. -/
theorem invariant_of_quiet (name : String) : ∀ (book : Logbook) (c : Call) (reply : Except Exc (Reply c))
    (book' : Logbook), ¬ Announced name book.history → (∀ caller name, c ≠ .enter caller name) →
      (bookProtocol tracker contract).answers book c reply book' → ¬ Announced name book'.history := by
  intro book c reply book' _ hcall hanswer
  obtain ⟨replies, hreply⟩ := hanswer
  rw [(answer_inv hreply).1]
  apply not_announced_append
  intro caller reply' hdeed
  injection hdeed with hevent
  exact hcall caller name (congrArg Event.call hevent)

/-- Saving a checkpoint does not fail: a failure is kept for the end. -/
theorem ensures_saveAfter_ok (h : contract.Sound tracker graph) (actor : Actor) (checkpoint : Checkpoint ν Dict) :
    (bookProtocol tracker contract).Ensures (fun result _ => ∃ failed', result = .ok failed')
      (StateGraph.saveAfter (threadSaver names actor) failed checkpoint) book := by
  cases failed with
  | some error => exact ⟨some error, rfl⟩
  | none =>
    rw [StateGraph.saveAfter, Protocol.ensures_bind, Protocol.ensures_attempt]
    apply Protocol.ensures_call.mpr
    refine ⟨h.store _ _ trivial, ?_⟩
    intro reply book' _
    cases reply with
    | ok value => exact ⟨none, rfl⟩
    | error error => exact ⟨some error, rfl⟩

/-- One superstep: besides what every superstep does, it does not fail where it has just announced a node that is sure
to lead on. -/
theorem ensures_superstep_sure (h : contract.Sound tracker graph) (actor : Actor) {sure : ν}
    (hsure : contract.Sure graph sure) (hready : Ready tracker contract names failed resume node values book) :
    (bookProtocol tracker contract).Ensures
      (StateGraph.Steps (fun failed' resume' next values' book' => contract.rank next < contract.rank node ∧
        Ready tracker contract names failed' resume' next values' book') (Unharmed (names.name sure)))
      (StateGraph.superstep graph (threadSaver names actor) failed resume node values) book := by
  have hstep := ensures_superstep h actor hready
  by_cases hname : names.name node = names.name sure
  · -- The node is the one that is sure to lead on, so the superstep moves.
    have hnode : node = sure := by
      have hfound := names.ofName_name node
      rw [hname, NodeNames.ofName_name] at hfound
      exact (Option.some.inj hfound).symm
    rw [← hnode] at hsure
    obtain ⟨writes, next, hbody, hroute⟩ := hsure resume values _ hready.relies
    have hmoves : (bookProtocol tracker contract).Ensures
        (fun result _ => ∃ failed' values', result = .ok (.moved failed' next values'))
        (StateGraph.superstep graph (threadSaver names actor) failed resume node values) book := by
      rw [StateGraph.superstep, Protocol.ensures_bind]
      apply (ensures_enter h actor node).mono
      intro entered book₁ hentered
      rw [hentered.1, Protocol.after, hbody, Prog.done_bind]
      simp only [hroute, Prog.ofExcept, Prog.done_bind]
      apply Protocol.ensures_bind.mpr
      apply (ensures_saveAfter_ok h actor _).mono
      intro saving book₂ hsaving
      obtain ⟨failed', rfl⟩ := hsaving
      exact ⟨failed', _, rfl⟩
    apply (hstep.and hmoves).mono
    intro result book' hresult
    obtain ⟨hsteps, failed', values', rfl⟩ := hresult
    exact hsteps
  · -- Another node was announced last, and what follows announces nothing.
    rw [StateGraph.superstep, Protocol.ensures_bind] at hstep ⊢
    apply ((ensures_enter h actor node).and hstep).mono
    intro entered book₁ hentered
    obtain ⟨⟨rfl, -, -, hannounced⟩, hrest⟩ := hentered
    have hother : ¬ Announced (names.name sure) book₁.history := fun hsame => hname (hannounced.name_eq hsame)
    have hkeeps := hrest.keeps (show Prog.Only (fun c : Call => ∀ caller name, c ≠ .enter caller name) _ from ?_)
      (invariant_of_quiet (names.name sure)) hother
    · apply hkeeps.mono
      intro result book' hresult
      cases result with
      | error error => exact fun _ _ => hresult.2
      | ok step =>
        cases step with
        | stopped failed' result => exact fun _ _ => hresult.2
        | moved failed' next values' => exact hresult.1
    · have hinward := (h.inward node resume values).mono
        fun c hc => show ∀ caller name, c ≠ .enter caller name from fun caller name hcall => hc (hcall ▸ trivial)
      apply hinward.bind
      intro outcome
      cases outcome with
      | interrupted payload => trivial
      | wrote writes =>
        apply (Prog.only_ofExcept _).bind
        intro next
        apply Prog.Only.bind
        · apply StateGraph.only_saveAfter
          exact fun checkpoint => Prog.only_call fun caller name hcall => by cases hcall
        · intro failed'
          cases next <;> trivial

/-- A run from a node that can start does not fail where it has just announced a node that is sure to lead on. -/
theorem ensures_advance_sure (h : contract.Sound tracker graph) (actor : Actor) {sure : ν}
    (hsure : contract.Sure graph sure) (hready : Ready tracker contract names failed resume node values book) :
    (bookProtocol tracker contract).Ensures (Unharmed (names.name sure))
      (StateGraph.advance graph (threadSaver names actor) graphRecursionError recursionLimit failed resume node values)
      book :=
  StateGraph.ensures_advance_of_rank contract.rank
    (fun _ _ _ _ _ hready => ensures_superstep_sure h actor hsure hready)
    recursionLimit failed resume node values book (h.bounded node) hready

/-- The state that a new run on the thread starts in. -/
def Logbook.startValues (graph : AgentGraph ν) (book : Logbook) (input : Dict) : Dict :=
  graph.merge (match book.saved with
    | some saved => saved.values
    | none => []) input

/-- A session can be opened: a new run can start in its state. -/
def Contract.Opens (tracker : Tracker ρ) (contract : Contract ν ρ) (graph : AgentGraph ν) (book : Logbook)
    (session : Session) : Prop :=
  ∀ input, session = .invoke input → contract.Starts tracker graph (book.startValues graph input)

/-- A new run can start from what was loaded. -/
theorem starts_of_opens {input : Dict} (hopens : contract.Opens tracker graph book (.invoke input))
    (loaded : Option (Checkpoint ν Dict)) :
    loaded = (book.saved.map fun saved => ⟨saved.values, saved.next.bind names.ofName⟩) →
      contract.Starts tracker graph (graph.merge (match loaded with
        | some checkpoint => checkpoint.values
        | none => []) input) := by
  intro hloaded
  have hstarts := hopens input rfl
  rw [Logbook.startValues] at hstarts
  rw [hloaded]
  cases hsaved : book.saved with
  | none =>
    rw [hsaved] at hstarts
    exact hstarts
  | some saved =>
    rw [hsaved] at hstarts
    exact hstarts

/-- A session on a thread whose checkpoint is kept: it stops after loading, or runs from a node that can start. -/
theorem ensures_session_of {post : Except Exc AgentRun → Logbook → Prop} (h : contract.Sound tracker graph)
    (actor : Actor) (session : Session) (hkept : SavedKept tracker contract names book)
    (hopens : contract.Opens tracker graph book session)
    (hstop : ∀ result history reply book', SavedKept tracker contract names book' →
      (∀ run, result = .ok run → run.interrupt = none) →
      book'.history = history ++ [.called ⟨.loadCheckpoint actor.thread, reply⟩] → post result book')
    (hadvance : ∀ failed resume node values book', Ready tracker contract names failed resume node values book' →
      (bookProtocol tracker contract).Ensures post (StateGraph.advance graph (threadSaver names actor)
        graphRecursionError recursionLimit failed resume node values) book') :
    (bookProtocol tracker contract).Ensures post (session.task graph (threadSaver names actor))
      (book.enter (.opened session)) := by
  have hopened : SavedKept tracker contract names (book.enter (.opened session)) := by
    apply hkept.congr
    · rfl
    · rw [Logbook.enter, tracked_append]
      cases session <;> rfl
  have herror : ∀ (error : Exc) (run : AgentRun), Except.error error = .ok run → run.interrupt = none := by
    intro error run hrun
    cases hrun
  cases session with
  | invoke input =>
    apply Protocol.ensures_bind.mpr
    apply (ensures_load h actor).mono
    intro loaded book₁ hloaded
    obtain ⟨hsaved, hknown, ⟨reply, hhistory⟩, hfound⟩ := hloaded
    have hkept₁ := hopened.congr hsaved (by rw [hknown])
    have hfresh : (tracked tracker book₁.history).live = tracker.fresh := by
      rw [hknown, Logbook.enter, tracked_append]
      rfl
    cases loaded with
    | error error => exact hstop _ _ _ _ hkept₁ (herror error) hhistory
    | ok loaded =>
      have hstarts := starts_of_opens hopens loaded (hfound loaded rfl)
      apply Protocol.ensures_bind.mpr
      apply (ensures_saveAfter h actor none _ hkept₁).mono
      intro saving book₂ hsaving
      obtain ⟨failed', rfl, hlive, hdone, hfailed⟩ := hsaving
      apply hadvance
      refine ⟨?_, fun hpending => (hdone hpending.2.2).1, fun _ => ?_⟩
      · rw [hlive, hfresh]
        cases loaded <;> exact hstarts.1
      · cases failed' with
        | some error => exact hfailed (by simp)
        | none =>
          intro checkpoint other hcheckpoint hother
          rw [(hdone rfl).1] at hcheckpoint
          rw [← Option.some.inj hcheckpoint, Option.map_some, Option.bind_some, NodeNames.ofName_name] at hother
          rw [← Option.some.inj hother, ← Option.some.inj hcheckpoint, (hdone rfl).2, hfresh]
          cases loaded <;> exact hstarts.2
  | resume decision =>
    apply Protocol.ensures_bind.mpr
    apply (ensures_load h actor).mono
    intro loaded book₁ hloaded
    obtain ⟨hsaved₁, hknown, ⟨reply, hhistory⟩, hfound⟩ := hloaded
    have hkept₁ := hopened.congr hsaved₁ (by rw [hknown])
    match loaded with
    | .error error => exact hstop _ _ _ _ hkept₁ (herror error) hhistory
    | .ok none => exact hstop _ _ _ _ hkept₁ (herror _) hhistory
    | .ok (some ⟨values, none⟩) =>
      apply hstop _ _ _ _ hkept₁ _ hhistory
      intro run hrun
      rw [← Except.ok.inj hrun]
    | .ok (some ⟨values, some node⟩) =>
      obtain ⟨saved, hsaved, hcheckpoint⟩ := Option.map_eq_some_iff.mp (hfound _ rfl).symm
      have hkeeps := hkept saved node hsaved (congrArg Checkpoint.next hcheckpoint)
      have hvalues : saved.values = values := congrArg Checkpoint.values hcheckpoint
      apply hadvance
      refine ⟨?_, fun hpending => (by cases hpending.2.1), fun _ => hkept₁⟩
      rw [← hvalues, hknown, Logbook.enter, tracked_append]
      exact h.resumes node _ _ decision hkeeps

/-- A session on a thread whose checkpoint is kept stops as it may. -/
theorem ensures_session (h : contract.Sound tracker graph) (actor : Actor) (session : Session)
    (hkept : SavedKept tracker contract names book) (hopens : contract.Opens tracker graph book session) :
    (bookProtocol tracker contract).Ensures (MayStop tracker contract names)
      (session.task graph (threadSaver names actor)) (book.enter (.opened session)) := by
  apply ensures_session_of h actor session hkept hopens
  · intro result history reply book' hkept' hquiet _
    exact mayStop_of_quiet hquiet hkept'
  · intro failed resume node values book' hready
    exact ensures_advance h actor hready

/-- A session on a thread whose checkpoint is kept does not fail where it has just announced a node that is sure to
lead on. -/
theorem ensures_session_sure (h : contract.Sound tracker graph) (actor : Actor) {sure : ν}
    (hsure : contract.Sure graph sure) (session : Session) (hkept : SavedKept tracker contract names book)
    (hopens : contract.Opens tracker graph book session) :
    (bookProtocol tracker contract).Ensures (Unharmed (names.name sure)) (session.task graph (threadSaver names actor))
      (book.enter (.opened session)) := by
  apply ensures_session_of h actor session hkept hopens
  · intro result history reply book' _ _ hhistory error _
    rw [hhistory]
    apply not_announced_append
    intro caller reply' hdeed
    injection hdeed with hevent
    cases congrArg Event.call hevent
  · intro failed resume node values book' hready
    exact ensures_advance_sure h actor hsure hready

end Runs

/-! ## Whole histories -/

section Histories

variable {ν ρ : Type} {tracker : Tracker ρ} {contract : Contract ν ρ} {graph : AgentGraph ν} {names : NodeNames ν}
  {book : Logbook}

/-- One more entry keeps a history to the contract when the contract permits it. -/
theorem Contract.Follows.append {history : List Deed} (h : contract.Follows tracker history) {deed : Deed}
    (hdeed : contract.Permits (tracked tracker history) deed) : contract.Follows tracker (history ++ [deed]) := by
  intro earlier other later hsplit
  rcases List.append_eq_append_iff.mp hsplit with ⟨rest, hearlier, hrest⟩ | ⟨rest, hhistory, hrest⟩
  · cases rest with
    | nil =>
      rw [List.append_nil] at hearlier
      rw [hearlier, ← (List.cons.inj hrest).1]
      exact hdeed
    | cons head tail => simp at hrest
  · cases rest with
    | nil =>
      rw [List.append_nil] at hhistory
      rw [← hhistory, (List.cons.inj hrest).1]
      exact hdeed
    | cons head tail =>
      rw [List.cons_append] at hrest
      rw [(List.cons.inj hrest).1]
      exact h earlier head tail hhistory

/-- One more entry is no failure of a node when it is no failure, or another entry was the last one. -/
theorem not_raisedIn_append {name : String} {history : List Deed} (h : ¬ RaisedIn name history) {deed : Deed}
    (hdeed : ∀ error, deed = .stopped (.error error) → ¬ Announced name history) :
    ¬ RaisedIn name (history ++ [deed]) := by
  intro hraised
  obtain ⟨earlier, caller, reply, error, later, hsplit⟩ := hraised
  rcases List.eq_nil_or_concat later with rfl | ⟨later, last, rfl⟩
  · have hends : history ++ [deed] = (earlier ++ [.called ⟨.enter caller name, reply⟩]) ++ [.stopped (.error error)] := by
      simpa using hsplit
    obtain ⟨hhistory, hlast⟩ := List.append_inj' hends rfl
    exact hdeed error (List.cons.inj hlast).1 ⟨earlier, caller, reply, hhistory⟩
  · have hends : history ++ [deed] =
        (earlier ++ .called ⟨.enter caller name, reply⟩ :: .stopped (.error error) :: later) ++ [last] := by
      simpa using hsplit
    exact h ⟨earlier, caller, reply, error, later, (List.append_inj' hends rfl).1⟩

/-- Holding a session keeps the checkpoint. -/
theorem hold_kept (h : contract.Sound tracker graph) (actor : Actor) (replies : Replies) (session : Session)
    (hkept : SavedKept tracker contract names book) (hopens : contract.Opens tracker graph book session) :
    SavedKept tracker contract names (book.hold graph (threadSaver names actor) replies session) := by
  have hanswer : ∀ (book' : Logbook) (c : Call), True → (bookProtocol tracker contract).allowed book' c →
      (bookProtocol tracker contract).answers book' c (book'.answer replies c).2 (book'.answer replies c).1 ∧ True :=
    fun book' c _ _ => ⟨⟨replies, rfl⟩, trivial⟩
  exact ((ensures_session h actor session hkept hopens).run id (fun _ => True) hanswer trivial).1.2

/-- Holding a session keeps the history to the contract. -/
theorem hold_follows (h : contract.Sound tracker graph) (actor : Actor) (replies : Replies) (session : Session)
    (hkept : SavedKept tracker contract names book) (hopens : contract.Opens tracker graph book session)
    (hfollows : contract.Follows tracker book.history) :
    contract.Follows tracker (book.hold graph (threadSaver names actor) replies session).history := by
  have hopened : contract.Follows tracker (book.enter (.opened session)).history := hfollows.append trivial
  have hanswer : ∀ (book' : Logbook) (c : Call), contract.Follows tracker book'.history →
      (bookProtocol tracker contract).allowed book' c → (bookProtocol tracker contract).answers book' c
        (book'.answer replies c).2 (book'.answer replies c).1 ∧
          contract.Follows tracker (book'.answer replies c).1.history := by
    intro book' c hbook hallowed
    exact ⟨⟨replies, rfl⟩, hbook.append hallowed⟩
  have hrun := (ensures_session h actor session hkept hopens).run id
    (fun book => contract.Follows tracker book.history) hanswer hopened
  exact hrun.2.append hrun.1.1

/-- Holding a session, a node that is sure to lead on does not raise. -/
theorem hold_sure (h : contract.Sound tracker graph) (actor : Actor) {sure : ν} (hsure : contract.Sure graph sure)
    (replies : Replies) (session : Session) (hkept : SavedKept tracker contract names book)
    (hopens : contract.Opens tracker graph book session) (hraised : ¬ RaisedIn (names.name sure) book.history) :
    ¬ RaisedIn (names.name sure) (book.hold graph (threadSaver names actor) replies session).history := by
  have hopened : ¬ RaisedIn (names.name sure) (book.enter (.opened session)).history :=
    not_raisedIn_append hraised fun error hdeed => (by cases hdeed)
  have hanswer : ∀ (book' : Logbook) (c : Call), ¬ RaisedIn (names.name sure) book'.history →
      (bookProtocol tracker contract).allowed book' c → (bookProtocol tracker contract).answers book' c
        (book'.answer replies c).2 (book'.answer replies c).1 ∧
          ¬ RaisedIn (names.name sure) (book'.answer replies c).1.history := by
    intro book' c hbook _
    exact ⟨⟨replies, rfl⟩, not_raisedIn_append hbook fun error hdeed => (by cases hdeed)⟩
  have hrun := (ensures_session_sure h actor hsure session hkept hopens).run id
    (fun book => ¬ RaisedIn (names.name sure) book.history) hanswer hopened
  apply not_raisedIn_append hrun.2
  intro error hstopped
  injection hstopped with hresult
  exact hrun.1 error hresult

/-- What every session keeps in the history, all sessions that can be opened keep. -/
theorem holdAll_keeps (invariant : List Deed → Prop) (h : contract.Sound tracker graph) (actor : Actor)
    (replies : Replies) (hhold : ∀ book session, SavedKept tracker contract names book →
      contract.Opens tracker graph book session → invariant book.history →
        invariant (book.hold graph (threadSaver names actor) replies session).history)
    (sessions : List Session) (hopens : ∀ book session, session ∈ sessions → contract.Opens tracker graph book session)
    (hkept : SavedKept tracker contract names book) (hbook : invariant book.history) :
    invariant (book.holdAll graph (threadSaver names actor) replies sessions).history := by
  induction sessions generalizing book with
  | nil => exact hbook
  | cons session sessions ih =>
    have hsession := hopens book session List.mem_cons_self
    apply ih (fun book' other hother => hopens book' other (List.mem_cons_of_mem _ hother))
    · exact hold_kept h actor replies session hkept hsession
    · exact hhold book session hkept hsession hbook

/-- What every session keeps in the history, one run on a new thread keeps, resumed with any decisions. -/
theorem run_keeps (invariant : List Deed → Prop) (h : contract.Sound tracker graph) (actor : Actor)
    (replies : Replies) (hhold : ∀ book session, SavedKept tracker contract names book →
      contract.Opens tracker graph book session → invariant book.history →
        invariant (book.hold graph (threadSaver names actor) replies session).history)
    (input : Dict) (decisions : List Json) (hstarts : contract.Starts tracker graph (graph.merge [] input))
    (hnew : invariant []) :
    invariant (Logbook.holdAll graph (threadSaver names actor) replies ⟨0, none, []⟩
      (.invoke input :: decisions.map .resume)).history := by
  have hkept : SavedKept tracker contract names ⟨0, none, []⟩ := by
    intro checkpoint node hcheckpoint
    cases hcheckpoint
  have hopens : contract.Opens tracker graph ⟨0, none, []⟩ (.invoke input) := by
    intro given hgiven
    cases hgiven
    exact hstarts
  apply holdAll_keeps invariant h actor replies hhold (decisions.map .resume)
  · intro book session hsession given hgiven
    obtain ⟨decision, -, hdecision⟩ := List.mem_map.mp hsession
    rw [← hdecision] at hgiven
    cases hgiven
  · exact hold_kept h actor replies (.invoke input) hkept hopens
  · exact hhold _ _ hkept hopens hnew

/-- A new thread follows every contract. -/
theorem follows_new : contract.Follows tracker [] := by
  intro earlier deed later hsplit
  simp at hsplit

/-- A graph that meets its contract follows it in every history of a new thread. -/
theorem holdAll_follows (h : contract.Met tracker graph) (names : NodeNames ν) (actor : Actor) (replies : Replies)
    (sessions : List Session) : contract.Follows tracker
      (Logbook.holdAll graph (threadSaver names actor) replies ⟨0, none, []⟩ sessions).history := by
  apply holdAll_keeps (contract.Follows tracker) h.toSound actor replies (fun book session => hold_follows h.toSound actor replies session)
  · intro book session _ input _
    exact h.enters _
  · intro checkpoint node hcheckpoint
    cases hcheckpoint
  · exact follows_new

/-- One run on a new thread, resumed with any decisions, follows the contract when it can start. -/
theorem run_follows (h : contract.Sound tracker graph) (names : NodeNames ν) (actor : Actor) (replies : Replies)
    (input : Dict) (decisions : List Json) (hstarts : contract.Starts tracker graph (graph.merge [] input)) :
    contract.Follows tracker (Logbook.holdAll graph (threadSaver names actor) replies ⟨0, none, []⟩
      (.invoke input :: decisions.map .resume)).history :=
  run_keeps (contract.Follows tracker) h actor replies (fun _ session => hold_follows h actor replies session) input
    decisions hstarts follows_new

/-- One run on a new thread, resumed with any decisions: a node that is sure to lead on does not raise. -/
theorem run_sure (h : contract.Sound tracker graph) (names : NodeNames ν) (actor : Actor) {sure : ν}
    (hsure : contract.Sure graph sure) (replies : Replies) (input : Dict) (decisions : List Json)
    (hstarts : contract.Starts tracker graph (graph.merge [] input)) :
    ¬ RaisedIn (names.name sure) (Logbook.holdAll graph (threadSaver names actor) replies ⟨0, none, []⟩
      (.invoke input :: decisions.map .resume)).history := by
  have hnew : ¬ RaisedIn (names.name sure) [] := by
    intro hraised
    obtain ⟨earlier, caller, reply, error, later, hsplit⟩ := hraised
    simp at hsplit
  exact run_keeps (fun history => ¬ RaisedIn (names.name sure) history) h actor replies
    (fun _ session => hold_sure h actor hsure replies session) input decisions hstarts hnew

end Histories

/-! ## Interrupts and decisions in the history -/

/-- The payload of the interrupt at which a session stopped. -/
def shownBy : Deed → Option Json
  | .stopped (.ok ⟨_, some payload⟩) => some payload
  | _ => none

/-- A session stopped at the interrupt with a payload, none has stopped at one since, and a session was resumed with an
approval since. -/
def ApprovedWhenShown (history : List Deed) (payload : Json) : Prop :=
  ∃ before values between decision after, isApproval decision ∧
    history = before ++ .stopped (.ok ⟨values, some payload⟩) :: (between ++ .opened (.resume decision) :: after) ∧
      ∀ deed ∈ between ++ after, shownBy deed = none

/-- The history tells which interrupt was shown last and which decision was the first on it. -/
structure Witnessed (history : List Deed) (last given : Option Json) : Prop where
  shown : ∀ payload, last = some payload → ∃ before values after,
    history = before ++ .stopped (.ok ⟨values, some payload⟩) :: after ∧ ∀ deed ∈ after, shownBy deed = none
  decided : ∀ payload decision, last = some payload → given = some decision → ∃ before values between after,
    history = before ++ .stopped (.ok ⟨values, some payload⟩) :: (between ++ .opened (.resume decision) :: after) ∧
      ∀ deed ∈ between ++ after, shownBy deed = none

/-- What is known includes the last interrupt and the first decision on it. -/
structure Tracker.Records {ρ : Type} (tracker : Tracker ρ) (shown decision : ρ → Option Json) : Prop where
  fresh : shown tracker.fresh = none
  note : ∀ r event, shown (tracker.note r event) = shown r ∧ decision (tracker.note r event) = decision r
  showing : ∀ r payload, shown (tracker.shown r payload) = some payload ∧ decision (tracker.shown r payload) = none
  deciding : ∀ r given, shown (tracker.decided r given) = shown r ∧
    decision (tracker.decided r given) = if (shown r).isSome && (decision r).isNone then some given else decision r

section Interrupts

variable {ρ : Type} {tracker : Tracker ρ} {shown decision : ρ → Option Json} {history : List Deed}
  {given : Option Json} {payload : Option Json}

/-- Nothing is told of an interrupt where none was shown. -/
theorem witnessed_none (history : List Deed) (given : Option Json) : Witnessed history none given where
  shown _ hshown := by cases hshown
  decided _ _ hshown := by cases hshown

/-- An approval that is known was given. -/
theorem Witnessed.approved (h : Witnessed history payload given) {shown decision : Json} (hshown : payload = some shown)
    (hdecision : given = some decision) (happroval : isApproval decision) : ApprovedWhenShown history shown := by
  obtain ⟨before, values, between, after, hhistory, hquiet⟩ := h.decided shown decision hshown hdecision
  exact ⟨before, values, between, decision, after, happroval, hhistory, hquiet⟩

/-- A longer history tells the same when no interrupt is shown. -/
theorem Witnessed.append (h : Witnessed history payload given) {deed : Deed} (hdeed : shownBy deed = none) :
    Witnessed (history ++ [deed]) payload given where
  shown payload hshown := by
    obtain ⟨before, values, after, rfl, hquiet⟩ := h.shown payload hshown
    refine ⟨before, values, after ++ [deed], by simp, ?_⟩
    rw [List.forall_mem_append]
    exact ⟨hquiet, by simpa using hdeed⟩
  decided payload decision hshown hdecision := by
    obtain ⟨before, values, between, after, rfl, hquiet⟩ := h.decided payload decision hshown hdecision
    refine ⟨before, values, between, after ++ [deed], by simp, ?_⟩
    rw [← List.append_assoc, List.forall_mem_append]
    exact ⟨hquiet, by simpa using hdeed⟩

/-- A decision is known from the session that was resumed with it, unless another one was given before. -/
theorem Witnessed.resume (h : Witnessed history payload given) (decision : Json) :
    Witnessed (history ++ [.opened (.resume decision)]) payload
      (if payload.isSome && given.isNone then some decision else given) := by
  have hkept : Witnessed (history ++ [.opened (.resume decision)]) payload given := h.append rfl
  split
  · refine ⟨hkept.shown, fun payload held hshown hheld => ?_⟩
    obtain ⟨before, values, after, rfl, hquiet⟩ := h.shown payload hshown
    rw [← Option.some.inj hheld]
    exact ⟨before, values, after, [], by simp, by simpa using hquiet⟩
  · exact hkept

/-- The interrupt that a session stopped at is the last one. -/
theorem witnessed_stopped (history : List Deed) (values : Dict) (payload : Json) :
    Witnessed (history ++ [.stopped (.ok ⟨values, some payload⟩)]) (some payload) none where
  shown other hother := by
    rw [← Option.some.inj hother]
    exact ⟨history, values, [], rfl, by simp⟩
  decided _ _ _ hdecision := by cases hdecision

/-- What the history tells of what is known: it tells it of a new run, goes on telling it with entries that show no
interrupt, and tells it of what a call, an interrupt or a decision makes known. -/
theorem tracked_induction (motive : List Deed → ρ → Prop) (fresh : ∀ history, motive history tracker.fresh)
    (grow : ∀ history r deed, shownBy deed = none → motive history r → motive (history ++ [deed]) r)
    (note : ∀ history r event, motive history r → motive (history ++ [.called event]) (tracker.note r event))
    (showing : ∀ history r values payload, motive history r →
      motive (history ++ [.stopped (.ok ⟨values, some payload⟩)]) (tracker.shown r payload))
    (deciding : ∀ history r decision, motive history r →
      motive (history ++ [.opened (.resume decision)]) (tracker.decided r decision)) (history : List Deed) :
    motive history (tracked tracker history).live ∧ motive history (tracked tracker history).saved := by
  induction history using List.reverseRecOn with
  | nil => exact ⟨fresh [], fresh []⟩
  | append_singleton history deed ih =>
    rw [tracked_append]
    obtain ⟨hlive, hsaved⟩ := ih
    match deed with
    | .opened (.invoke input) => exact ⟨fresh _, grow _ _ _ rfl hsaved⟩
    | .opened (.resume decision) => exact ⟨deciding _ _ _ hsaved, grow _ _ _ rfl hsaved⟩
    | .stopped (.error error) => exact ⟨grow _ _ _ rfl hlive, grow _ _ _ rfl hsaved⟩
    | .stopped (.ok ⟨values, none⟩) => exact ⟨grow _ _ _ rfl hlive, grow _ _ _ rfl hsaved⟩
    | .stopped (.ok ⟨values, some payload⟩) => exact ⟨showing _ _ _ _ hlive, showing _ _ _ _ hlive⟩
    | .called ⟨c, reply⟩ =>
      cases c with
      | putCheckpoint thread run =>
        cases reply with
        | ok value => exact ⟨grow _ _ _ rfl hlive, grow _ _ _ rfl hlive⟩
        | error error => exact ⟨grow _ _ _ rfl hlive, grow _ _ _ rfl hsaved⟩
      | loadCheckpoint thread => exact ⟨grow _ _ _ rfl hlive, grow _ _ _ rfl hsaved⟩
      | enter actor node => exact ⟨grow _ _ _ rfl hlive, grow _ _ _ rfl hsaved⟩
      | _ => exact ⟨note _ _ _ hlive, grow _ _ _ rfl hsaved⟩

/-- The history tells all that is known of interrupts and decisions. -/
theorem Tracker.Records.witnessed (h : tracker.Records shown decision) (history : List Deed) :
    Witnessed history (shown (tracked tracker history).live) (decision (tracked tracker history).live) ∧
      Witnessed history (shown (tracked tracker history).saved) (decision (tracked tracker history).saved) := by
  apply tracked_induction fun history r => Witnessed history (shown r) (decision r)
  · intro history
    rw [h.fresh]
    exact witnessed_none _ _
  · exact fun history r deed hdeed hknown => hknown.append hdeed
  · intro history r event hknown
    rw [(h.note r event).1, (h.note r event).2]
    exact hknown.append rfl
  · intro history r values payload _
    rw [(h.showing r payload).1, (h.showing r payload).2]
    exact witnessed_stopped history values payload
  · intro history r given hknown
    rw [(h.deciding r given).1, (h.deciding r given).2]
    exact hknown.resume given

end Interrupts

end FleetWorkflow.Agents
