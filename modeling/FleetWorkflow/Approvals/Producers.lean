import FleetWorkflow.Api.Replies
import FleetWorkflow.Approvals.AtMostOnce

/-!
# Who files approvals, and who can decide them

Six requests file pending approvals: five that start a run, and the automation's e-mail. What one of them files waits
under the name of its agent. A waiting approval can be decided exactly when a handler is registered for that name, which
the publisher of insights has none of.
-/

namespace FleetWorkflow.Approvals

open Python Async Core Agents Store Api

/-! ## The requests that file approvals -/

/-- A request that can file an approval. -/
inductive Filing where
  | devAgent (ticketKey : String)
  | invoiceAgent (imageBase64 : String)
  | hrAgent (imageBase64 : String) (criteria : List String)
  | dealerOnboarding (applicationId : String) (documents : List DocumentIn)
  | insightsPublisher
  | email (body : EmailSendIn)

/-- The name of the agent under which a request files. -/
def Filing.agentName : Filing → String
  | .devAgent _ => DevAgent.agentName
  | .invoiceAgent _ => InvoiceAgent.agentName
  | .hrAgent _ _ => HrAgent.agentName
  | .dealerOnboarding _ _ => DealerOnboarding.agentName
  | .insightsPublisher => InsightsPublisher.agentName
  | .email _ => recipeAgentName

/-- The handler of a request. -/
def Filing.request (fleet : Fleet) : Filing → Coroutine Unit
  | .devAgent ticketKey => discard (startDevAgent fleet ticketKey)
  | .invoiceAgent imageBase64 => discard (startInvoiceAgent fleet imageBase64)
  | .hrAgent imageBase64 criteria => discard (startHrAgent fleet imageBase64 criteria)
  | .dealerOnboarding applicationId documents => discard (startDealerOnboarding fleet applicationId documents)
  | .insightsPublisher => discard (startInsightsPublisher fleet)
  | .email body => discard (emailSendRequest fleet body)

/-- The world after a request. -/
def Filing.serve (fleet : Fleet) (env : Env) (filing : Filing) (w : World) : World :=
  ((filing.request fleet).run (World.answer env) w).1

/-- An approval waits for its decision, under the name of its agent. -/
structure Waiting (w : World) (agentName : String) (row : ApprovalRow) : Prop where
  stored : w.stores.approvals.row row.id = some row
  pending : row.status = "pending"
  agent : ∃ agent, w.stores.agents.row row.agentId = some agent ∧ agent.name = agentName

/-- The approvals of a world that another one does not have wait under a name. -/
def FilesUnder (agentName : String) (w w' : World) : Prop :=
  ∀ id row, w'.stores.approvals.row id = some row → w.stores.approvals.row id = none → Waiting w' agentName row

/-! ## Deciding an approval -/

/-- What a decision leads to: the world, and the calls that were made. -/
def afterDecision (fleet : Fleet) (env : Env) (w : World) (approvalId : ℕ) (body : DecisionIn) (sub : String) :
    World × List CallEvent :=
  ((decideApproval fleet approvalId body sub).run (logged (World.answer env)) (w, [])).1

/-- The approval is decided, and the handler that is registered for its agent was started with the decision. -/
def CarriedOut (fleet : Fleet) (approvalId : ℕ) (after : World × List CallEvent) : Prop :=
  ∃ row agent approved, after.1.stores.approvals.row approvalId = some row ∧ row.status = decidedStatus approved ∧
    after.1.stores.agents.row row.agentId = some agent ∧ (resumerOf fleet row.runId approved agent.name).isSome ∧
    ⟨.resumeStarted agent.name row.runId approved, .ok ()⟩ ∈ after.2

/-- Some decision is carried out. -/
def CanBeDecided (fleet : Fleet) (env : Env) (w : World) (approvalId : ℕ) : Prop :=
  ∃ body sub, CarriedOut fleet approvalId (afterDecision fleet env w approvalId body sub)

/-- The database answers what a decision asks of it. -/
structure DatabaseAnswers (env : Env) : Prop where
  getApproval : ∀ tick id, ∃ row, env.given tick (.getApproval id) = .ok row
  getAgent : ∀ tick id, ∃ row, env.given tick (.getAgent id) = .ok row
  commitDecision : ∀ tick id editedPayload status sub,
    env.given tick (.commitDecision id editedPayload status sub) = .ok ()

/-! ## What is filed waits -/

section Filed

variable {env : Env} {w : World} {agentName : String}

/-- The agents and the approvals are those of another world. -/
def SameRows (w w' : World) : Prop :=
  w'.stores.agents = w.stores.agents ∧ w'.stores.approvals = w.stores.approvals

/-- The same rows hold no filed approval. -/
theorem SameRows.files {w' : World} (h : SameRows w w') : FilesUnder agentName w w' := by
  intro id row hrow hnone
  rw [h.2, hnone] at hrow
  cases hrow

/-- A call that writes to neither table. -/
theorem SameRows.answer {w' : World} (h : SameRows w w') {c : Call} {reply : Except Exc (Reply c)} {moved : World}
    (hanswer : w'.answer env c = (moved, reply)) (happrovals : ¬ Stores.WritesApprovals c)
    (hagents : ¬ Stores.WritesAgents c) : SameRows w moved := by
  have hspec : (w'.stores.respond (env.now w'.tick) c (env.given w'.tick c)).1 = moved.stores :=
    congrArg Prod.fst (World.answer_spec hanswer).2
  rw [SameRows, ← hspec, Stores.respond_agents hagents, Stores.respond_approvals happrovals]
  exact h

/-- A coroutine that writes to neither table. -/
theorem ensures_sameRows {α : Type} {p : Coroutine α} {calls : Call → Prop} (hp : p.Only calls)
    (hcalls : ∀ c, calls c → ¬ Stores.WritesApprovals c ∧ ¬ Stores.WritesAgents c) {w' : World} (h : SameRows w w') :
    (worldProtocol env).Ensures (fun _ moved => SameRows w moved) p w' :=
  Protocol.ensures_only hp (fun _ c hsame hc => ⟨trivial, fun _ _ hanswer =>
    hsame.answer hanswer (hcalls c hc).1 (hcalls c hc).2⟩) h

/-- A run writes to neither table. -/
theorem runCall_writes {actor : Actor} {c : Call} (h : RunCall actor c) :
    ¬ Stores.WritesApprovals c ∧ ¬ Stores.WritesAgents c := by
  cases c <;> first | exact ⟨id, id⟩ | exact h.elim

/-- A resume handler writes to neither table. -/
theorem resumeCall_writes {actor : Actor} {c : Call} (h : ResumeCall actor c) :
    ¬ Stores.WritesApprovals c ∧ ¬ Stores.WritesAgents c := by
  cases c <;> first | exact ⟨id, id⟩ | exact h.elim

/-- What is filed under the row of an agent waits under its name. -/
theorem ensures_insertApproval {agent : AgentRow} (hname : w.stores.agentNamed agentName = some agent)
    (draft : ApprovalDraft) (hagent : draft.agentId = agent.id) {w' : World} (h : SameRows w w') :
    (worldProtocol env).Ensures (fun _ moved => FilesUnder agentName w moved ∧ moved.stores.agents = w.stores.agents)
      (await (.insertApproval draft)) w' := by
  apply Protocol.ensures_call.mpr
  refine ⟨trivial, fun reply moved hanswer => ?_⟩
  have hspec := (World.answer_spec hanswer).2
  have hrow : w.stores.agents.row agent.id = some agent := w.stores.agents.row_key (List.mem_of_find?_eq_some hname)
  have hagentName : agent.name = agentName := by simpa using List.find?_some hname
  cases hgiven : env.given w'.tick (.insertApproval draft) with
  | error error =>
    rw [hgiven] at hspec
    have hstores : moved.stores = w'.stores := (congrArg Prod.fst hspec).symm
    have hsame : SameRows w moved := by rw [SameRows, hstores]; exact h
    exact ⟨hsame.files, hsame.1⟩
  | ok value =>
    have hsome : (w'.stores.agents.row draft.agentId).isSome := by rw [h.1, hagent, hrow]; rfl
    rw [hgiven] at hspec
    simp only [Stores.respond, hsome, if_true] at hspec
    obtain ⟨hstores, -⟩ := Prod.mk.inj hspec
    have hagents : moved.stores.agents = w.stores.agents := by rw [← hstores, ← h.1]
    refine ⟨fun id row hfound hnone => ?_, hagents⟩
    have happrovals : moved.stores.approvals.row id =
        if id = w'.stores.approvals.next then some (draft.row w'.stores.approvals.next)
        else w'.stores.approvals.row id := by
      rw [← hstores]
      exact Table.row_insert _ _ (draft.row_id _) _
    rw [happrovals] at hfound
    split at hfound
    · rename_i hid
      obtain rfl := Option.some.inj hfound
      refine ⟨?_, rfl, agent, ?_, hagentName⟩
      · show moved.stores.approvals.row w'.stores.approvals.next = _
        rw [← hid, happrovals, if_pos hid]
        exact hid ▸ rfl
      · show moved.stores.agents.row draft.agentId = some agent
        rw [hagents, hagent]
        exact hrow
    · rw [h.2, hnone] at hfound
      cases hfound

/-- The end of a run files what it stopped at. -/
theorem ensures_finishRun {agent : AgentRow} (hname : w.stores.agentNamed agentName = some agent) {outcomes : Outcomes}
    (hended : ∀ runId values, (outcomes.ended runId values).Only fun _ => False) (runId : String) (result : AgentRun)
    {w' : World} (h : SameRows w w') : (worldProtocol env).Ensures (fun _ moved => FilesUnder agentName w moved)
      (finishRun outcomes agent.id runId result) w' := by
  rw [finishRun]
  split
  · exact h.files
  · cases result.interrupt with
    | none => exact (ensures_sameRows (hended _ _) (fun _ hc => hc.elim) h).mono fun _ _ hsame => hsame.files
    | some payload =>
      apply Protocol.ensures_bind.mpr
      rw [queueApproval]
      apply Protocol.ensures_ofExcept_bind
      · exact fun _ _ => h.files
      · intro action _
        apply Protocol.ensures_ofExcept_bind
        · exact fun _ _ => h.files
        · intro args _
          apply (ensures_insertApproval hname ⟨agent.id, runId, action, args⟩ rfl h).mono
          rintro inserted moved ⟨hfiles, -⟩
          cases inserted with
          | error error => exact hfiles
          | ok row => exact hfiles

/-- A request that starts a run files under the name of its agent. -/
theorem ensures_startRun {outcomes : Outcomes} (hended : ∀ runId values, (outcomes.ended runId values).Only fun _ => False)
    {run : String → Coroutine AgentRun} (hrun : ∀ runId, (run runId).Only (RunCall ⟨agentName, runId⟩)) :
    (worldProtocol env).Ensures (fun _ moved => FilesUnder agentName w moved) (startRun agentName outcomes run) w := by
  apply Protocol.ensures_call_bind trivial
  intro found w₁ hanswer
  obtain ⟨-, hstores, hfound⟩ := World.answer_findAgent hanswer
  have hsame : SameRows w w₁ := by
    rw [SameRows, hstores]
    exact ⟨rfl, rfl⟩
  match found with
  | .error error => exact hsame.files
  | .ok none => exact hsame.files
  | .ok (some agent) =>
    have hname : w.stores.agentNamed agentName = some agent := (hfound _ rfl).symm
    apply Protocol.ensures_call_bind trivial
    intro built w₂ hbuilt
    have hsame := hsame.answer hbuilt (fun h => h) (fun h => h)
    cases built with
    | error error => exact hsame.files
    | ok built =>
      apply Protocol.ensures_call_bind trivial
      intro made w₃ hmade
      have hsame := hsame.answer hmade (fun h => h) (fun h => h)
      cases made with
      | error error => exact hsame.files
      | ok runId =>
        apply Protocol.ensures_bind.mpr
        apply (ensures_sameRows (hrun runId) (fun _ => runCall_writes) hsame).mono
        intro ran w₄ hsame
        cases ran with
        | error error => exact hsame.files
        | ok result => exact ensures_finishRun hname hended runId result hsame

/-- The automation's e-mail is filed under the name of the recipes. -/
theorem ensures_emailSendRequest (fleet : Fleet) (body : EmailSendIn) : (worldProtocol env).Ensures
    (fun _ moved => FilesUnder recipeAgentName w moved) (emailSendRequest fleet body) w := by
  have hself : SameRows w w := ⟨rfl, rfl⟩
  rw [emailSendRequest]
  split
  · exact hself.files
  · apply Protocol.ensures_call_bind trivial
    intro found w₁ hanswer
    obtain ⟨-, hstores, hfound⟩ := World.answer_findAgent hanswer
    have hsame : SameRows w w₁ := by
      rw [SameRows, hstores]
      exact hself
    match found with
    | .error error => exact hsame.files
    | .ok none => exact hsame.files
    | .ok (some agent) =>
      have hname : w.stores.agentNamed recipeAgentName = some agent := (hfound _ rfl).symm
      apply Protocol.ensures_call_bind trivial
      intro made w₂ hmade
      have hsame := hsame.answer hmade (fun h => h) (fun h => h)
      cases made with
      | error error => exact hsame.files
      | ok runId =>
        apply Protocol.ensures_bind.mpr
        apply (ensures_insertApproval hname ⟨agent.id, runId, "email.send", body.payload⟩ rfl hsame).mono
        rintro inserted w₃ ⟨hfiles, -⟩
        cases inserted with
        | error error => exact hfiles
        | ok row =>
          apply Protocol.ensures_bind.mpr
          apply Protocol.ensures_call_bind trivial
          intro read w₄ hread
          have hstill : w₄.stores = w₃.stores := (World.answer_getApproval hread).1
          have hfiles₄ : FilesUnder recipeAgentName w w₄ := by
            intro id row hrow hnone
            rw [hstill] at hrow
            obtain ⟨hstored, hpending, hagent⟩ := hfiles id row hrow hnone
            exact ⟨hstill ▸ hstored, hpending, hstill ▸ hagent⟩
          match read with
          | .error error => exact hfiles₄
          | .ok none => exact hfiles₄
          | .ok (some row) => exact hfiles₄

/-- What a request files waits under the name of its agent. -/
theorem Filing.filesUnder (fleet : Fleet) (filing : Filing) : FilesUnder filing.agentName w (filing.serve fleet env w) := by
  have hfiles : (worldProtocol env).Ensures (fun _ moved => FilesUnder filing.agentName w moved) (filing.request fleet) w := by
    cases filing with
    | devAgent ticketKey =>
      refine Protocol.ensures_discard.mpr (ensures_startRun ?_ fun runId =>
        only_ainvoke (DevAgent.only_body fleet.py _ none) _)
      exact fun _ _ => trivial
    | invoiceAgent imageBase64 =>
      refine Protocol.ensures_discard.mpr (ensures_startRun ?_ fun runId =>
        only_ainvoke (InvoiceAgent.only_body fleet.py fleet.exceedsTolerance _ none []) _)
      exact fun _ _ => trivial
    | hrAgent imageBase64 criteria =>
      refine Protocol.ensures_discard.mpr (ensures_startRun ?_ fun runId =>
        only_ainvoke (HrAgent.only_body fleet.py fleet.hr _ none) _)
      exact fun _ _ => trivial
    | dealerOnboarding applicationId documents =>
      refine Protocol.ensures_discard.mpr (ensures_startRun ?_ fun runId =>
        only_ainvoke (DealerOnboarding.only_body fleet.py fleet.dealer _ none) _)
      exact fun _ _ => (Prog.only_ofExcept _).bind fun _ => trivial
    | insightsPublisher =>
      refine Protocol.ensures_discard.mpr (ensures_startRun ?_ fun runId =>
        only_ainvoke (InsightsPublisher.only_body fleet.py fleet.insights _ none) _)
      exact fun _ _ => trivial
    | email body => exact Protocol.ensures_discard.mpr (ensures_emailSendRequest fleet body)
  exact run_of_ensures hfiles

end Filed

/-! ## What waits is decided, or stays -/

section Decided

variable {env : Env} {w : World} {agentName : String} {row : ApprovalRow} {log : List CallEvent}

/-- The protocol of a world that logs what it answers. -/
def logProtocol (env : Env) : Protocol Call Reply Exc (World × List CallEvent) where
  allowed _ _ := True
  answers s c reply s' := logged (World.answer env) s c = (s', reply)

/-- A logged answer is an answer, and one more entry. -/
theorem answers_logged {s s' : World × List CallEvent} {c : Call} {reply : Except Exc (Reply c)}
    (h : (logProtocol env).answers s c reply s') : s.1.answer env c = (s'.1, reply) ∧ s'.2 = s.2 ++ [⟨c, reply⟩] := by
  obtain ⟨hworld, hreply⟩ := Prod.mk.inj h
  subst hreply
  rw [← hworld]
  exact ⟨rfl, rfl⟩

/-- A coroutine run with a log ends as it ensures. -/
theorem logged_of_ensures {α : Type} {p : Coroutine α} {post : Except Exc α → World × List CallEvent → Prop}
    (h : (logProtocol env).Ensures post p (w, log)) :
    post (p.run (logged (World.answer env)) (w, log)).2 (p.run (logged (World.answer env)) (w, log)).1 :=
  (h.run id (fun _ => True) (fun _ _ _ _ => ⟨rfl, trivial⟩) trivial).1

/-- The row that a request reads of a waiting approval is the approval. -/
theorem ensures_pending (hanswers : DatabaseAnswers env) (h : Waiting w agentName row) :
    (logProtocol env).Ensures (fun found after => found = .ok row ∧ after.1.stores = w.stores)
      (pendingApproval row.id) (w, log) := by
  apply Protocol.ensures_call_bind trivial
  intro reply s hreply
  obtain ⟨hanswer, -⟩ := answers_logged hreply
  obtain ⟨value, hgiven⟩ := hanswers.getApproval w.tick row.id
  have hspec := (World.answer_spec hanswer).2
  rw [hgiven] at hspec
  obtain ⟨hstores, hread⟩ := Prod.mk.inj hspec
  rw [h.stored] at hread
  rw [← hread]
  show Protocol.Ensures _ _ (if row.status ≠ "pending" then _ else _) _
  rw [if_neg (not_not_intro h.pending)]
  exact ⟨rfl, hstores.symm⟩

/-- The handler of a waiting approval is looked up by the name of its agent. -/
theorem ensures_resumable (fleet : Fleet) (hanswers : DatabaseAnswers env) (h : Waiting w agentName row) {w' : World}
    (hstores : w'.stores = w.stores) : (logProtocol env).Ensures (fun named after => after.1.stores = w.stores ∧
      (agentName ∈ resumableAgents → named = .ok agentName) ∧
        (agentName ∉ resumableAgents → ∃ error, named = .error error)) (resumableAgent fleet row) (w', log) := by
  apply Protocol.ensures_call_bind trivial
  intro reply s hreply
  obtain ⟨hanswer, -⟩ := answers_logged hreply
  obtain ⟨value, hgiven⟩ := hanswers.getAgent w'.tick row.agentId
  obtain ⟨agent, hagent, hname⟩ := h.agent
  have hspec := (World.answer_spec hanswer).2
  rw [hgiven] at hspec
  obtain ⟨hsame, hread⟩ := Prod.mk.inj hspec
  rw [hstores, hagent] at hread
  rw [← hread]
  show Protocol.Ensures _ _ (if agent.name ∈ resumableAgents then _ else _) _
  rw [hname]
  split
  · rename_i hmem
    exact ⟨hsame.symm.trans hstores, fun _ => rfl, fun hnot => absurd hmem hnot⟩
  · rename_i hmem
    exact ⟨hsame.symm.trans hstores, fun hin => absurd hin hmem, fun _ => ⟨_, rfl⟩⟩

/-- A waiting approval of an agent without a handler stays as it is, whatever is decided. -/
theorem ensures_undecided (fleet : Fleet) (hanswers : DatabaseAnswers env) (h : Waiting w agentName row)
    (hname : agentName ∉ resumableAgents) (body : DecisionIn) (sub : String) :
    (logProtocol env).Ensures (fun _ after => after.1.stores = w.stores) (decideApproval fleet row.id body sub) (w, log) := by
  rw [decideApproval]
  split
  · rfl
  · apply Protocol.ensures_bind.mpr
    apply (ensures_pending hanswers h).mono
    rintro _ ⟨w', log'⟩ ⟨rfl, hstores⟩
    apply Protocol.ensures_bind.mpr
    apply (ensures_resumable fleet hanswers h hstores).mono
    rintro named after ⟨hstores, -, hnone⟩
    obtain ⟨error, rfl⟩ := hnone hname
    exact hstores

/-- A handler that was started leaves the decision as it is carried out. -/
theorem ensures_carriedOut {fleet : Fleet} {id : ℕ} {resumer : Coroutine Unit} {actor : Actor}
    (hresumer : resumer.Only (ResumeCall actor)) {after : World × List CallEvent} (h : CarriedOut fleet id after) :
    (logProtocol env).Ensures (fun _ after => CarriedOut fleet id after) resumer after := by
  apply Protocol.ensures_only hresumer _ h
  intro s c hs hc
  refine ⟨trivial, fun reply s' hreply => ?_⟩
  obtain ⟨hanswer, hlog⟩ := answers_logged hreply
  have hspec : (s.1.stores.respond (env.now s.1.tick) c (env.given s.1.tick c)).1 = s'.1.stores :=
    congrArg Prod.fst (World.answer_spec hanswer).2
  have hwrites := resumeCall_writes hc
  obtain ⟨row, agent, approved, hrow, hstatus, hagent, hregistered, hstarted⟩ := hs
  refine ⟨row, agent, approved, ?_, hstatus, ?_, hregistered, ?_⟩
  · rw [← hspec, Stores.respond_approvals hwrites.1]
    exact hrow
  · rw [← hspec, Stores.respond_agents hwrites.2]
    exact hagent
  · rw [hlog]
    exact List.mem_append_left _ hstarted

/-- What is registered is carried out. -/
theorem carryOut_of_some {fleet : Fleet} {runId : String} {approved : Bool} {resumer : Coroutine Unit}
    (h : resumerOf fleet runId approved agentName = some resumer) :
    carryOut fleet agentName runId approved = resumeRun runId approved agentName resumer := by
  rw [carryOut, h]

/-- A decision on a stored row is committed. -/
theorem answer_commits (hanswers : DatabaseAnswers env) {w' : World} {editedPayload : Option Dict} {status sub : String}
    {reply : Except Exc Unit} (hrow : w.stores.approvals.row row.id = some row)
    (h : w.answer env (.commitDecision row.id editedPayload status sub) = (w', reply)) : reply = .ok () ∧
      w'.stores.agents = w.stores.agents ∧
        ∃ time, w'.stores.approvals.row row.id = some (row.decided editedPayload status sub time) := by
  rcases World.answer_commitDecision h with ⟨⟨error, rfl⟩, -⟩ | ⟨hreply, row', time, hrow', hstores, hdecided⟩
  · have hspec := congrArg Prod.snd (World.answer_spec h).2
    rw [hanswers.commitDecision] at hspec
    simp [Stores.respond, hrow] at hspec
  · obtain rfl := Option.some.inj (hrow.symm.trans hrow')
    refine ⟨hreply, ?_, time, hdecided⟩
    rw [hstores]

/-- The handler that is registered for a waiting approval's agent is started with a decision. -/
theorem ensures_decided (fleet : Fleet) (hanswers : DatabaseAnswers env) (h : Waiting w agentName row)
    (hname : agentName ∈ resumableAgents) (editedPayload : Option Dict) (sub : String) : (logProtocol env).Ensures
      (fun _ after => CarriedOut fleet row.id after) (decideApproval fleet row.id ⟨"approve", editedPayload⟩ sub) (w, log) := by
  obtain ⟨resumer, hresumer⟩ := Option.isSome_iff_exists.mp ((resumerOf_isSome fleet row.runId true).mpr hname)
  obtain ⟨agent, hagent, hagentName⟩ := h.agent
  rw [decideApproval, if_neg (by simp)]
  apply Protocol.ensures_bind.mpr
  apply (ensures_pending hanswers h).mono
  rintro _ ⟨w₁, log₁⟩ ⟨rfl, hstores₁⟩
  apply Protocol.ensures_bind.mpr
  apply (ensures_resumable fleet hanswers h hstores₁).mono
  rintro named ⟨w₂, log₂⟩ ⟨hstores₂, hnamed, -⟩
  rw [hnamed hname]
  apply Protocol.ensures_call_bind trivial
  intro committed s₃ hcommitted
  obtain ⟨hanswer, -⟩ := answers_logged hcommitted
  obtain ⟨rfl, hagents, time, hrow₃⟩ := answer_commits hanswers (by rw [hstores₂]; exact h.stored) hanswer
  let decided := row.decided editedPayload (decidedStatus true) sub time
  have hagent₃ : s₃.1.stores.agents.row decided.agentId = some agent := by
    rw [hagents, hstores₂]
    exact hagent
  apply Protocol.ensures_bind.mpr
  apply Protocol.ensures_call_bind trivial
  intro refreshed s₄ hrefreshed
  obtain ⟨hanswer, -⟩ := answers_logged hrefreshed
  obtain ⟨value, hgiven⟩ := hanswers.getApproval s₃.1.tick row.id
  have hspec := (World.answer_spec hanswer).2
  rw [hgiven] at hspec
  obtain ⟨hstores₄, hread⟩ := Prod.mk.inj hspec
  rw [hrow₃] at hread
  rw [← hread]
  apply Protocol.ensures_bind.mpr
  show Protocol.Ensures _ _ (carryOut fleet agentName row.runId true) s₄
  rw [carryOut_of_some hresumer]
  apply Protocol.ensures_call_bind trivial
  intro started s₅ hstarted
  obtain ⟨hanswer, hlog⟩ := answers_logged hstarted
  obtain ⟨hstores₅, rfl⟩ := Prod.mk.inj (World.answer_spec hanswer).2
  have hcarried : CarriedOut fleet row.id s₅ := by
    refine ⟨decided, agent, true, ?_, rfl, ?_, ?_, ?_⟩
    · rw [← hstores₅, ← hstores₄]
      exact hrow₃
    · rw [← hstores₅, ← hstores₄]
      exact hagent₃
    · rw [hagentName, resumerOf_isSome]
      exact hname
    · rw [hlog, hagentName]
      exact List.mem_append_right _ List.mem_cons_self
  apply (ensures_carriedOut (only_resumerOf fleet row.runId true hresumer) hcarried).mono
  intro resumed after hafter
  cases resumed with
  | error error => exact hafter
  | ok value => exact hafter

/-- A waiting approval can be decided exactly when a handler is registered for its agent. -/
theorem canBeDecided_iff (fleet : Fleet) (hanswers : DatabaseAnswers env) (h : Waiting w agentName row) :
    CanBeDecided fleet env w row.id ↔ agentName ∈ resumableAgents := by
  constructor
  · rintro ⟨body, sub, row', agent, approved, hrow', hstatus, -, -, -⟩
    by_contra hname
    have hstays : (afterDecision fleet env w row.id body sub).1.stores = w.stores :=
      logged_of_ensures (ensures_undecided fleet hanswers h hname body sub)
    rw [hstays, h.stored, Option.some.injEq] at hrow'
    rw [← hrow', h.pending] at hstatus
    exact decidedStatus_ne approved hstatus.symm
  · intro hname
    exact ⟨⟨"approve", none⟩, "", logged_of_ensures (ensures_decided fleet hanswers h hname none "")⟩

end Decided

/-! ## What is filed can be decided -/

/-- A handler is registered for all that file approvals but the publisher of insights. -/
theorem Filing.registered_iff (filing : Filing) : filing.agentName ∈ resumableAgents ↔ filing ≠ .insightsPublisher := by
  cases filing with
  | insightsPublisher => simp [Filing.agentName, InsightsPublisher.agentName, resumableAgents, DevAgent.agentName,
      InvoiceAgent.agentName, HrAgent.agentName, DealerOnboarding.agentName, recipeAgentName]
  | _ => simp [Filing.agentName, resumableAgents]

/-- Whatever happens in a request that files an approval, the approval waits under the name of its agent; and as long as
it waits there, it can be decided exactly when the request is not the one of the publisher of insights. -/
theorem filed_canBeDecided_iff (fleet : Fleet) (env : Env) (w : World) (filing : Filing) (row : ApprovalRow)
    (hfiled : (filing.serve fleet env w).stores.approvals.row row.id = some row)
    (hnew : w.stores.approvals.row row.id = none) :
    Waiting (filing.serve fleet env w) filing.agentName row ∧ ∀ later env', Waiting later filing.agentName row →
      DatabaseAnswers env' → (CanBeDecided fleet env' later row.id ↔ filing ≠ .insightsPublisher) := by
  refine ⟨filing.filesUnder fleet row.id row hfiled hnew, fun later env' hwaits hanswers => ?_⟩
  rw [canBeDecided_iff fleet hanswers hwaits]
  exact filing.registered_iff

/-- The database answers when nothing fails. -/
theorem databaseAnswers_calm : DatabaseAnswers .calm where
  getApproval _ _ := ⟨_, rfl⟩
  getAgent _ _ := ⟨_, rfl⟩
  commitDecision _ _ _ _ _ := rfl

/-- A world with the row of one agent. -/
def worldWith (agentName : String) : World where
  tick := 0
  stores := { Stores.initial with agents := Table.empty.insert ⟨0, agentName, "active", "internal", []⟩ rfl }

/-- The automation's e-mail. -/
def reminder : EmailSendIn := ⟨"a@fleet.local", "s", "b"⟩

/-- A queued e-mail can be decided. -/
theorem reminder_canBeDecided : ∃ row,
    (Filing.serve plainFleet .calm (.email reminder) (worldWith recipeAgentName)).stores.approvals.row 0 = some row ∧
      CanBeDecided plainFleet .calm (Filing.serve plainFleet .calm (.email reminder) (worldWith recipeAgentName)) row.id := by
  obtain ⟨row, hrow⟩ := Option.isSome_iff_exists.mp (show ((Filing.serve plainFleet .calm (.email reminder)
    (worldWith recipeAgentName)).stores.approvals.row 0).isSome = true by decide)
  have hid : row.id = 0 := Table.keyed _ 0 row hrow
  obtain ⟨hwaits, hdecided⟩ := filed_canBeDecided_iff plainFleet .calm (worldWith recipeAgentName) (.email reminder) row
    (by rw [hid]; exact hrow) rfl
  exact ⟨row, hrow, (hdecided _ .calm hwaits databaseAnswers_calm).mpr (by simp)⟩

/-- A fleet in which every draft is read and grounded. -/
def draftingFleet : Fleet :=
  { plainFleet with insights := ⟨fun _ _ => .ok [], fun _ => .ok ("", ""), fun _ _ => .ok []⟩ }

/-- An approval of the publisher of insights is filed, and no decision on it is carried out. -/
theorem insights_deadEnd : ¬ ∀ (fleet : Fleet) (env : Env) (w : World) (filing : Filing) (row : ApprovalRow),
    (filing.serve fleet env w).stores.approvals.row row.id = some row → w.stores.approvals.row row.id = none →
      ∃ env', DatabaseAnswers env' ∧ CanBeDecided fleet env' (filing.serve fleet env w) row.id := by
  intro h
  obtain ⟨row, hrow⟩ := Option.isSome_iff_exists.mp (show ((Filing.serve draftingFleet .calm .insightsPublisher
    (worldWith InsightsPublisher.agentName)).stores.approvals.row 0).isSome = true by decide)
  have hid : row.id = 0 := Table.keyed _ 0 row hrow
  have hfiled : (Filing.serve draftingFleet .calm .insightsPublisher
      (worldWith InsightsPublisher.agentName)).stores.approvals.row row.id = some row := by rw [hid]; exact hrow
  obtain ⟨env', hanswers, hdecided⟩ := h draftingFleet .calm _ .insightsPublisher row hfiled rfl
  have hwaits := Filing.filesUnder draftingFleet .insightsPublisher row.id row hfiled rfl
  have hname := (canBeDecided_iff draftingFleet hanswers hwaits).mp hdecided
  exact (Filing.registered_iff .insightsPublisher).mp hname rfl

end FleetWorkflow.Approvals
