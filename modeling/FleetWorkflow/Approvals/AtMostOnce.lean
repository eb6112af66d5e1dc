import FleetWorkflow.Api.Approvals
import FleetWorkflow.Async.Pool
import FleetWorkflow.Store.World

/-!
# Several reviewers of one approval

Any number of decisions on one approval, interleaved at their calls. The handler reads the row,
checks that it is pending, and commits in a later step, so that two reviewers can both find it
pending. As long as no decision is committed onto a row that is decided already, one resume handler
starts at most, and with the decision that the row keeps.
-/

namespace FleetWorkflow.Approvals

open Python Async Core Agents Store Api

/-! ## Reviewers -/

/-- What a reviewer sends, and who the reviewer is. -/
structure Review where
  body : DecisionIn
  sub : String

/-- The request of a reviewer. -/
def Review.task (fleet : Fleet) (approvalId : ℕ) (review : Review) : Coroutine Unit :=
  discard (decideApproval fleet approvalId review.body review.sub)

/-- The requests of all reviewers, none of which has started. -/
def reviewPool (fleet : Fleet) (approvalId : ℕ) (reviews : List Review) (w : World) :
    Pool Call Reply Exc World ℕ where
  shared := w
  running task :=
    match reviews[task]? with
    | some review => review.task fleet approvalId
    | none => .done ()
  trace := []

/-- The decision with which an event starts a resume handler. -/
def resumption (event : CallEvent) : Option Bool :=
  match event.call with
  | .resumeStarted _ _ approved => some approved
  | _ => none

/-- The decisions with which resume handlers were started. -/
def resumptions (trace : List (ℕ × CallEvent)) : List Bool := trace.filterMap fun entry => resumption entry.2

/-- One resume handler was started at most, and with the decision that the row tells. -/
def DecidedOnce (approvalId : ℕ) (pool : Pool Call Reply Exc World ℕ) : Prop :=
  (resumptions pool.trace).length ≤ 1 ∧ ∀ approved ∈ resumptions pool.trace,
    ∃ row, pool.shared.stores.approvals.row approvalId = some row ∧ row.status = decidedStatus approved

/-- A task that is about to commit a decision finds the row pending still. -/
def CommitsOnPending (pool : Pool Call Reply Exc World ℕ) (task : ℕ) : Prop :=
  match pool.pendingCall task with
  | some (.commitDecision id _ _ _) => ∀ row ∈ pool.shared.stores.approvals.row id, row.status = "pending"
  | _ => True

instance (pool : Pool Call Reply Exc World ℕ) (task : ℕ) : Decidable (CommitsOnPending pool task) := by
  unfold CommitsOnPending
  split <;> infer_instance

/-! ## One reviewer -/

/-- How far a request has come. -/
inductive Stage where
  | reading
  | decided
  | resumed
deriving DecidableEq

/-- A request's decision, and how far the request has come. -/
structure Ticket where
  approved : Bool
  stage : Stage

/-- A committed decision and a started handler move the ticket. -/
def Ticket.note (ticket : Ticket) : (c : Call) → Except Exc (Reply c) → Ticket
  | .commitDecision _ _ _ _, .ok _ => ⟨ticket.approved, .decided⟩
  | .resumeStarted _ _ _, .ok _ => ⟨ticket.approved, .resumed⟩
  | _, _ => ticket

/-- A row that was read is the one of its id. -/
def ReadsRow : (c : Call) → Except Exc (Reply c) → Prop
  | .getApproval id, .ok (some row) => row.id = id
  | _, _ => True

/-- A request commits its decision on the approval once, and starts one handler with it. -/
def ticketProtocol (approvalId : ℕ) : Protocol Call Reply Exc Ticket where
  allowed ticket c :=
    match c with
    | .commitDecision id _ status _ =>
      ticket.stage = .reading ∧ id = approvalId ∧ status = decidedStatus ticket.approved
    | .resumeStarted _ _ approved => ticket.stage = .decided ∧ approved = ticket.approved
    | .insertApproval _ => False
    | _ => True
  answers ticket c reply ticket' := ReadsRow c reply ∧ ticket' = ticket.note c reply

section Reviewer

variable {approvalId : ℕ}

/-- The calls of a handler are allowed and move no ticket. -/
theorem ticket_resumeCall {actor : Actor} {ticket : Ticket} (held : Ticket) (c : Call) (h : held = ticket)
    (hc : ResumeCall actor c) : (ticketProtocol approvalId).allowed held c ∧
      ∀ reply moved, (ticketProtocol approvalId).answers held c reply moved → moved = ticket := by
  subst h
  cases c with
  | buildClient | findApprovalByRun _ | enter _ _ | llm _ _ _ _ | tool _ _ _ | loadCheckpoint _
  | putCheckpoint _ _ | redisGet _ | readPauseCache _ _ | writePauseCache _ _ _ _ | uuidToken | query _ _ =>
    exact ⟨trivial, fun reply moved hmoved => hmoved.2⟩
  | _ => exact hc.elim

/-- Carrying out a decision starts one handler. -/
theorem ensures_carryOut (fleet : Fleet) (agentName runId : String) (approved : Bool) :
    (ticketProtocol approvalId).Ensures (fun _ _ => True) (carryOut fleet agentName runId approved)
      ⟨approved, .decided⟩ := by
  rw [carryOut]
  cases hresumer : resumerOf fleet runId approved agentName with
  | none => trivial
  | some resumer =>
    apply Protocol.ensures_call_bind
    · exact ⟨rfl, rfl⟩
    · intro reply moved hmoved
      cases reply with
      | error error => trivial
      | ok value =>
        have hkept : (ticketProtocol approvalId).Ensures (fun _ held => held = moved) resumer moved :=
          Protocol.ensures_only (only_resumerOf fleet runId approved hresumer) ticket_resumeCall rfl
        exact hkept.mono fun _ _ _ => trivial

/-- The row that a request reads is the approval's. -/
theorem ensures_pendingApproval (ticket : Ticket) : (ticketProtocol approvalId).Ensures
    (fun result ticket' => ticket' = ticket ∧ ∀ row, result = .ok row → row.id = approvalId)
    (pendingApproval approvalId) ticket := by
  apply Protocol.ensures_call_bind trivial
  intro reply ticket' hreply
  match reply with
  | .error error => exact ⟨hreply.2, fun row h => by cases h⟩
  | .ok none => exact ⟨hreply.2, fun row h => by cases h⟩
  | .ok (some row) =>
    show Protocol.Ensures _ _ (if row.status ≠ "pending" then _ else _) _
    split
    · exact ⟨hreply.2, fun row' h => by cases h⟩
    · exact ⟨hreply.2, fun row' h => Except.ok.inj h ▸ hreply.1⟩

/-- Looking up the agent moves no ticket. -/
theorem ensures_resumableAgent (fleet : Fleet) (approval : ApprovalRow) (ticket : Ticket) :
    (ticketProtocol approvalId).Ensures (fun _ ticket' => ticket' = ticket) (resumableAgent fleet approval) ticket := by
  apply Protocol.ensures_call_bind trivial
  intro reply ticket' hreply
  match reply with
  | .error error => exact hreply.2
  | .ok none => exact hreply.2
  | .ok (some agentRow) =>
    show Protocol.Ensures _ _ (if agentRow.name ∈ resumableAgents then _ else _) _
    split <;> exact hreply.2

/-- Reading the row again moves no ticket. -/
theorem ensures_refreshApproval (id : ℕ) (ticket : Ticket) :
    (ticketProtocol approvalId).Ensures (fun _ ticket' => ticket' = ticket) (refreshApproval id) ticket := by
  apply Protocol.ensures_call_bind trivial
  intro reply ticket' hreply
  match reply with
  | .error error => exact hreply.2
  | .ok none => exact hreply.2
  | .ok (some row) => exact hreply.2

/-- A request keeps to its ticket. -/
theorem ensures_review (fleet : Fleet) (review : Review) :
    (ticketProtocol approvalId).Ensures (fun _ _ => True) (review.task fleet approvalId)
      ⟨review.body.approves, .reading⟩ := by
  rw [Review.task, Protocol.ensures_discard, decideApproval]
  split
  · trivial
  · refine Protocol.ensures_bind.mpr ((ensures_pendingApproval _).mono fun found ticket ⟨hticket, hid⟩ => ?_)
    subst hticket
    cases found with
    | error error => trivial
    | ok approval =>
      refine Protocol.ensures_bind.mpr ((ensures_resumableAgent fleet approval _).mono fun named ticket hticket => ?_)
      subst hticket
      cases named with
      | error error => trivial
      | ok agentName =>
        apply Protocol.ensures_call_bind
        · exact ⟨rfl, hid approval rfl, rfl⟩
        · rintro reply ticket ⟨-, hticket⟩
          cases reply with
          | error error => trivial
          | ok value =>
            subst hticket
            refine Protocol.ensures_bind.mpr ((ensures_refreshApproval approval.id _).mono fun read ticket hticket => ?_)
            subst hticket
            cases read with
            | error error => trivial
            | ok approval =>
              refine Protocol.ensures_bind.mpr ((ensures_carryOut fleet agentName approval.runId _).mono
                fun carried _ _ => ?_)
              cases carried <;> trivial

end Reviewer

/-! ## All reviewers -/

section Pool

variable {env : Env} {approvalId : ℕ} {pool : Pool Call Reply Exc World ℕ} {ghost : ℕ → Ticket}

/-- Nothing is committed and no handler was started; or one request has committed the decision that
the row has, and at most it has started a handler. -/
def Settled (approvalId : ℕ) (ghost : ℕ → Ticket) (pool : Pool Call Reply Exc World ℕ) : Prop :=
  (∀ task, (ghost task).stage = .reading) ∧ resumptions pool.trace = [] ∨
    ∃ task row, (∀ other, other ≠ task → (ghost other).stage = .reading) ∧ (ghost task).stage ≠ .reading ∧
      pool.shared.stores.approvals.row approvalId = some row ∧ row.status = decidedStatus (ghost task).approved ∧
      resumptions pool.trace = if (ghost task).stage = .resumed then [(ghost task).approved] else []

/-- Every request keeps to its ticket, and the tickets tell the row and the handlers. -/
def Ticketed (approvalId : ℕ) (pool : Pool Call Reply Exc World ℕ) : Prop :=
  ∃ ghost, Pool.Follows (ticketProtocol approvalId) ghost pool ∧ Settled approvalId ghost pool

/-- A decided status is not the pending one. -/
theorem decidedStatus_ne (approved : Bool) : decidedStatus approved ≠ "pending" := by
  cases approved <;> decide

/-- One more event. -/
theorem resumptions_append (trace : List (ℕ × CallEvent)) (task : ℕ) (event : CallEvent) :
    resumptions (trace ++ [(task, event)]) = resumptions trace ++ (resumption event).toList := by
  rw [resumptions, List.filterMap_append, resumptions]
  congr 1

/-- The tickets tell what happened. -/
theorem Ticketed.decidedOnce (h : Ticketed approvalId pool) : DecidedOnce approvalId pool := by
  obtain ⟨ghost, -, ⟨-, hnone⟩ | ⟨task, row, -, -, hrow, hstatus, hstarted⟩⟩ := h
  · rw [DecidedOnce, hnone]
    simp
  · rw [DecidedOnce, hstarted]
    split
    · refine ⟨Nat.le_refl 1, fun approved happroved => ⟨row, hrow, ?_⟩⟩
      rw [List.mem_singleton.mp happroved]
      exact hstatus
    · simp

/-- The world reads the row of an id. -/
theorem readsRow_answer (w : World) (c : Call) : ReadsRow c (w.answer env c).2 := by
  cases c with
  | getApproval id =>
    have hread : ∀ row, (w.answer env (.getApproval id)).2 = .ok row → row = w.stores.approvals.row id :=
      (World.answer_getApproval rfl).2
    generalize (w.answer env (.getApproval id)).2 = reply at hread ⊢
    match reply with
    | .error error => trivial
    | .ok none => trivial
    | .ok (some row) => exact w.stores.approvals.keyed id row (hread _ rfl).symm
  | _ => trivial

/-- The tickets after a step of one task. -/
def moved (ghost : ℕ → Ticket) (task : ℕ) (c : Call) (reply : Except Exc (Reply c)) : ℕ → Ticket :=
  Function.update ghost task ((ghost task).note c reply)

/-- A call that moves no ticket, starts no handler and leaves the approvals. -/
theorem Settled.quiet (h : Settled approvalId ghost pool) {task : ℕ} {c : Call}
    {next : Except Exc (Reply c) → Coroutine Unit} (hawait : pool.running task = .await c next)
    (happrovals : ¬ Stores.WritesApprovals c) (hstart : ∀ reply, resumption ⟨c, reply⟩ = none)
    (hnote : ∀ reply, (ghost task).note c reply = ghost task) :
    Settled approvalId (moved ghost task c (pool.shared.answer env c).2) (pool.step (World.answer env) task) := by
  have hghost : moved ghost task c (pool.shared.answer env c).2 = ghost := by
    rw [moved, hnote, Function.update_eq_self]
  have hrow : (pool.step (World.answer env) task).shared.stores.approvals = pool.shared.stores.approvals := by
    rw [Pool.step_await hawait]
    exact Stores.respond_approvals happrovals
  have htrace : resumptions (pool.step (World.answer env) task).trace = resumptions pool.trace := by
    rw [Pool.step_await hawait]
    simp [resumptions_append, hstart]
  rw [hghost, Settled, htrace, hrow]
  exact h

/-- Committing a decision onto a row that is pending still. -/
theorem Settled.commit (h : Settled approvalId ghost pool) {task : ℕ} {editedPayload : Option Dict}
    {status sub : String} {next : Except Exc Unit → Coroutine Unit}
    (hawait : pool.running task = .await (.commitDecision approvalId editedPayload status sub) next)
    (hstatus : status = decidedStatus (ghost task).approved)
    (hpending : ∀ row, pool.shared.stores.approvals.row approvalId = some row → row.status = "pending") :
    Settled approvalId (moved ghost task _ (pool.shared.answer env
      (.commitDecision approvalId editedPayload status sub)).2) (pool.step (World.answer env) task) := by
  rw [Pool.step_await hawait]
  obtain ⟨w', reply, hanswer⟩ : ∃ w' reply,
      pool.shared.answer env (.commitDecision approvalId editedPayload status sub) = (w', reply) := ⟨_, _, rfl⟩
  simp only [hanswer]
  rcases World.answer_commitDecision hanswer with ⟨⟨error, hreply⟩, hstores⟩ | ⟨hreply, row, time, hrow, -, hdecided⟩
  · have hghost : moved ghost task (.commitDecision approvalId editedPayload status sub) (.error error) = ghost :=
      Function.update_eq_self task ghost
    rw [hreply, hghost, Settled, hstores, resumptions_append]
    simpa [resumption, Settled] using h
  · rw [hreply, Settled, resumptions_append]
    rcases h with ⟨hreading, hnone⟩ | ⟨decider, row', -, -, hrow', hstatus', -⟩
    · refine .inr ⟨task, _, fun other hother => ?_, ?_, hdecided, ?_, ?_⟩
      · rw [moved, Function.update_of_ne hother]
        exact hreading other
      · simp [moved, Ticket.note]
      · simp [moved, Ticket.note, ApprovalRow.decided, hstatus]
      · simp [moved, Ticket.note, hnone, resumption]
    · exact absurd (hstatus' ▸ hpending row' hrow') (decidedStatus_ne _)

/-- Starting the handler after the decision. -/
theorem Settled.start (h : Settled approvalId ghost pool) {task : ℕ} {agentName runId : String} {approved : Bool}
    {next : Except Exc Unit → Coroutine Unit}
    (hawait : pool.running task = .await (.resumeStarted agentName runId approved) next)
    (hstage : (ghost task).stage = .decided) (happroved : approved = (ghost task).approved) :
    Settled approvalId (moved ghost task _ (pool.shared.answer env (.resumeStarted agentName runId approved)).2)
      (pool.step (World.answer env) task) := by
  rw [Pool.step_await hawait]
  rcases h with ⟨hreading, -⟩ | ⟨decider, row, hreading, -, hrow, hstatus, hstarted⟩
  · rw [hreading task] at hstage
    cases hstage
  · have htask : task = decider := by
      by_contra hother
      rw [hreading task hother] at hstage
      cases hstage
    subst htask
    refine .inr ⟨task, row, fun other hother => ?_, ?_, hrow, ?_, ?_⟩
    · rw [moved, Function.update_of_ne hother]
      exact hreading other hother
    · simp [moved, Ticket.note, World.answer, Stores.respond]
    · simpa [moved, Ticket.note, World.answer, Stores.respond] using hstatus
    · rw [hstage] at hstarted
      simp [resumptions_append, hstarted, moved, Ticket.note, World.answer, Stores.respond, resumption, happroved]

/-- A step that commits onto a pending row only keeps the tickets telling what happened. -/
theorem Ticketed.step (h : Ticketed approvalId pool) (task : ℕ) (hcommit : CommitsOnPending pool task) :
    Ticketed approvalId (pool.step (World.answer env) task) := by
  obtain ⟨ghost, hfollows, hsettled⟩ := h
  rcases Pool.step_cases pool task with hsame | ⟨c, next, hawait⟩
  · exact ⟨ghost, hsame.symm ▸ hfollows, hsame.symm ▸ hsettled⟩
  · refine ⟨moved ghost task c (pool.shared.answer env c).2, ?_, ?_⟩
    · exact hfollows.step hawait ⟨readsRow_answer pool.shared c, rfl⟩
    · have hallowed := hfollows.allowed hawait
      cases c with
      | commitDecision id editedPayload status sub =>
        obtain ⟨-, rfl, hstatus⟩ := hallowed
        rw [CommitsOnPending, Pool.pendingCall, hawait] at hcommit
        exact hsettled.commit hawait hstatus fun row hrow => hcommit row hrow
      | resumeStarted agentName runId approved => exact hsettled.start hawait hallowed.1 hallowed.2
      | insertApproval draft => exact hallowed.elim
      | _ => exact hsettled.quiet hawait (fun hc => hc) (fun _ => rfl) (fun _ => rfl)

/-- At first nothing is decided. -/
theorem ticketed_reviewPool (fleet : Fleet) (reviews : List Review) (w : World) :
    Ticketed approvalId (reviewPool fleet approvalId reviews w) := by
  refine ⟨fun task => ⟨(reviews[task]?.map fun review => review.body.approves).getD false, .reading⟩, ?_,
    .inl ⟨fun _ => rfl, rfl⟩⟩
  intro task
  simp only [reviewPool]
  cases reviews[task]? with
  | none => trivial
  | some review => exact ensures_review fleet review

end Pool

/-- However the requests of any number of reviewers interleave, as long as no decision is committed
onto a decided row, one handler starts at most, and with the decision that the row keeps. -/
theorem reviews_decidedOnce (fleet : Fleet) (env : Env) (w : World) (approvalId : ℕ) (reviews : List Review)
    (schedule : List ℕ) (hcommits : Pool.Along (World.answer env) CommitsOnPending
      (reviewPool fleet approvalId reviews w) schedule) :
    DecidedOnce approvalId ((reviewPool fleet approvalId reviews w).exec (World.answer env) schedule) :=
  (hcommits.invariant (fun _ task hpool hcommit => hpool.step task hcommit)
    (ticketed_reviewPool fleet reviews w)).decidedOnce

/-! ## Two reviewers -/

/-- A fleet in which nothing is read off a reply. -/
def plainFleet : Fleet where
  py := ⟨fun _ => "", id, fun _ => .error ⟨.valueError, ""⟩, fun _ => .error ⟨.valueError, ""⟩⟩
  exceedsTolerance _ _ := false
  detectInjection _ := .ok false
  hr := ⟨"", fun _ => .error ⟨.parseError, ""⟩, fun _ _ => .ok []⟩
  dealer := ⟨"", fun _ => .error ⟨.parseError, ""⟩, id⟩
  insights := ⟨fun _ _ => .ok [], fun _ => .error ⟨.parseError, ""⟩, fun _ _ => .ok []⟩
  listing := ⟨fun _ _ _ _ _ => .ok [], fun _ => .error ⟨.parseError, ""⟩⟩
  legal := ⟨fun _ _ => .ok [], fun _ _ _ => .error ⟨.parseError, ""⟩⟩
  analyticsReply _ _ _ := return ""
  ragReply _ _ _ := return ""
  analyticsReply_only _ _ _ := trivial
  ragReply_only _ _ _ := trivial

/-- A queued e-mail of a recipe. -/
def queuedEmail : ApprovalDraft where
  agentId := 0
  runId := "0"
  action := "email.send"
  payload := [("to", .str "a@fleet.local"), ("subject", .str "s"), ("body", .str "b")]

/-- A world with the recipes' agent and one queued e-mail. -/
def queuedWorld : World where
  tick := 0
  stores := { Stores.initial with
    agents := Table.empty.insert ⟨0, recipeAgentName, "paused", "internal", []⟩ rfl
    approvals := Table.empty.insert (queuedEmail.row 0) rfl
    uuids := 1 }

/-- One reviewer approves the e-mail, the other rejects it. -/
def disagreeing : List Review := [⟨⟨"approve", none⟩, "a"⟩, ⟨⟨"reject", none⟩, "b"⟩]

/-- One after the other, the second reviewer finds the row decided. -/
theorem reviews_decidedOnce_sequential : DecidedOnce 0
    ((reviewPool plainFleet 0 disagreeing queuedWorld).exec (World.answer .calm)
      (List.replicate 8 0 ++ List.replicate 8 1)) := by
  apply reviews_decidedOnce
  decide

/-- When both have read the row before one commits, both handlers start. -/
theorem reviews_decidedTwice : ¬ DecidedOnce 0
    ((reviewPool plainFleet 0 disagreeing queuedWorld).exec (World.answer .calm)
      ([0, 1, 0, 1] ++ List.replicate 8 0 ++ List.replicate 8 1)) := by
  intro h
  exact absurd h.1 (by decide)

end FleetWorkflow.Approvals
