import FleetWorkflow.Agents.DevChanges
import FleetWorkflow.Agents.InvoiceEntries
import FleetWorkflow.Api.Replies
import FleetWorkflow.Approvals.Askers
import FleetWorkflow.Python.Separated

/-!
# Writes that were asked for

Requests to the whole API, one after another: runs that start, decisions on approvals, and whatever else keeps away from
both. An agent whose graph asks before it calls a tool calls it at most once in a run, with the arguments that were filed
as a pending approval when the run stopped, and after that approval was approved.
-/

namespace FleetWorkflow.Approvals

open Python Async Core Agents Store Api

namespace Asker

variable {ν ρ : Type} {asker : Asker ν ρ} {fleet : Fleet}

/-! ## Starting runs -/

section Starting

variable {s s' : World × List CallEvent} {env : Env} {runId agentName : String} {busy : Option String}

/-- A run id that was just drawn. -/
structure Drawn (asker : Asker ν ρ) (runId : String) (s : World × List CallEvent) : Prop where
  kept : asker.Kept none s
  issued : Issued s.1 runId
  rowless : ∀ id row, s.1.stores.approvals.row id = some row → row.runId ≠ runId
  unused : asker.calledWith runId s.2 = []
  clean : s.1.stores.checkpoints runId = none

/-- The run of an id takes its turn. -/
theorem Kept.begin (h : asker.Kept none s) (hissued : Issued s.1 runId) : asker.Kept (some runId) s where
  running other hother := by
    obtain rfl : runId = other := Option.some.inj hother
    exact hissued
  issued := h.issued
  unique := h.unique
  fresh := h.fresh
  waiting id row agent hrow hpending hagent hname _ := h.waiting id row agent hrow hpending hagent hname (by simp)
  wrote runId _ := h.wrote runId (by simp)

/-- The run of an id has had its turn. -/
theorem Kept.finish (h : asker.Kept (some runId) s) (hwrote : asker.WroteAsApproved runId s.2)
    (hdone : ∀ id row, s.1.stores.approvals.row id = some row → row.runId = runId → row.status ≠ "pending") :
    asker.Kept none s where
  running other hother := by cases hother
  issued := h.issued
  unique := h.unique
  fresh := h.fresh
  waiting id row agent hrow hpending hagent hname _ := by
    apply h.waiting id row agent hrow hpending hagent hname
    intro hsame
    exact hdone id row hrow (Option.some.inj hsame) hpending
  wrote other _ := by
    by_cases hsame : other = runId
    · rw [hsame]
      exact hwrote
    · exact h.wrote other fun heq => hsame (Option.some.inj heq)

/-- A call that keeps away from everything. -/
theorem Kept.answer (h : asker.Kept none s) {c : Call} {reply : Except Exc (Reply c)} (hc : asker.Spares none c)
    (hanswer : (logProtocol env).answers s c reply s') : asker.Kept none s' := h.aside (Aside.answer hc hanswer)

/-- The next run id was not drawn. -/
theorem not_issued_next (w : World) : ¬ Issued w (Nat.repr w.stores.uuids) := by
  rintro ⟨n, hn, hrepr⟩
  have hdigits : Nat.toDigits 10 w.stores.uuids = Nat.toDigits 10 n := by simpa using congrArg String.toList hrepr
  have hsame := toDigits_inj hdigits
  omega

/-- Drawing a run id. -/
theorem Kept.draw (h : asker.Kept none s) {reply : Except Exc String} (hanswer : (logProtocol env).answers s .uuid4 reply s') :
    ∃ runId, reply = .ok runId ∧ asker.Drawn runId s' := by
  have haside : asker.Aside none s s' := Aside.answer (show asker.Spares none .uuid4 from trivial) hanswer
  obtain ⟨hworld, hlog⟩ := answers_logged hanswer
  obtain ⟨hstores, rfl⟩ := Prod.mk.inj (World.answer_spec hworld).2
  have hnew := not_issued_next s.1
  obtain ⟨hcalled, hcheckpoint⟩ := h.fresh _ hnew
  refine ⟨_, rfl, h.aside haside, ⟨s.1.stores.uuids, ?_, rfl⟩, ?_, ?_, ?_⟩
  · rw [← hstores]
    exact Nat.lt_succ_self _
  · intro id row hrow hrun
    rw [haside.approvals] at hrow
    exact hnew (hrun ▸ h.issued id row hrow)
  · rw [hlog, calledWith_append, hcalled]
    rfl
  · rw [haside.checkpoints _ (by simp), hcheckpoint]

/-- The calls of a run spare everything but the run. -/
theorem spares_runCall {c : Call} (h : RunCall ⟨agentName, runId⟩ c) : asker.Spares (some runId) c := by
  cases c with
  | putCheckpoint thread run => exact congrArg some h
  | tool caller tool args =>
    obtain rfl : caller = ⟨agentName, runId⟩ := h
    exact fun _ _ => rfl
  | _ => trivial

/-- A run of an agent, once it is over: other runs are left alone, and it waits where it stopped if it is one of the
agent that asks. -/
structure Ran (asker : Asker ν ρ) (agentName runId : String) (before : World × List CallEvent)
    (result : Except Exc AgentRun) (s : World × List CallEvent) : Prop where
  kept : asker.Kept none s
  aside : asker.Aside (some runId) before s
  waits : agentName = asker.agentName → ∀ values payload, result = .ok ⟨values, some payload⟩ →
    asker.calledWith runId s.2 = [] ∧ payload.item "tool" = .ok (.str asker.tool.name) ∧
      ∃ args book, payload.item "args" = .ok (.obj args) ∧ asker.AtInterrupt s.1 runId args payload book

/-- A new run of the agent that asks. -/
theorem ensures_ownRun (hkeeps : asker.Keeps fleet) (input : Dict) (hdrawn : asker.Drawn runId s) :
    (logProtocol env).Ensures (asker.Ran asker.agentName runId s)
      (ainvoke (asker.graph (asker.actor runId)) (asker.saver runId) input) s := by
  have honly : (ainvoke (asker.graph (asker.actor runId)) (asker.saver runId) input).Only (asker.Spares (some runId)) :=
    (only_ainvoke (hkeeps.body runId) input).mono fun _ => spares_runCall
  apply ((ensures_started hkeeps input hdrawn.clean hdrawn.unused).and (ensures_aside honly (Aside.refl s))).mono
  rintro result s' ⟨⟨hunused, hwaits⟩, haside⟩
  have hkept : asker.Kept none s' := by
    apply ((hdrawn.kept.begin hdrawn.issued).aside haside).finish (.inl hunused)
    intro id row hrow hrun
    rw [haside.approvals] at hrow
    exact absurd hrun (hdrawn.rowless id row hrow)
  exact ⟨hkept, haside, fun _ values payload hresult => ⟨hunused, hwaits values payload hresult⟩⟩

/-- Calls that leave the tool to the agent that asks. -/
def SparesTool (asker : Asker ν ρ) : Call → Prop
  | .tool caller tool _ => tool = asker.tool → caller.agent ≠ asker.agentName
  | _ => True

/-- What does not call the tool leaves what was written. -/
theorem ensures_wrote {α : Type} {p : Coroutine α} (hp : p.Only asker.SparesTool) (h : asker.WroteAsApproved runId s.2) :
    (logProtocol env).Ensures (fun _ s' => asker.WroteAsApproved runId s'.2) p s := by
  apply @Protocol.ensures_only _ _ _ _ _ _ asker.SparesTool (fun s => asker.WroteAsApproved runId s.2) p s hp _ h
  intro before c hbefore hc
  refine ⟨trivial, ?_⟩
  intro reply after hreply
  rw [(answers_logged hreply).2]
  apply hbefore.append
  cases c with
  | tool caller tool args =>
    rw [calledWith_tool, if_neg]
    rintro ⟨rfl, htool⟩
    exact hc htool rfl
  | _ => rfl

/-- The calls of another agent's run leave the tool. -/
theorem sparesTool_runCall {c : Call} (hname : agentName ≠ asker.agentName) (h : RunCall ⟨agentName, runId⟩ c) :
    asker.SparesTool c := by
  cases c with
  | tool caller tool args =>
    obtain rfl : caller = ⟨agentName, runId⟩ := h
    exact fun _ => hname
  | _ => trivial

/-- A new run of another agent. -/
theorem ensures_otherRun (hname : agentName ≠ asker.agentName) {run : Coroutine AgentRun}
    (hrun : run.Only (RunCall ⟨agentName, runId⟩)) (hdrawn : asker.Drawn runId s) :
    (logProtocol env).Ensures (asker.Ran agentName runId s) run s := by
  have honly : run.Only (asker.Spares (some runId)) := hrun.mono fun _ => spares_runCall
  have htool : run.Only asker.SparesTool := hrun.mono fun _ => sparesTool_runCall hname
  apply ((ensures_wrote htool (.inl hdrawn.unused)).and (ensures_aside honly (Aside.refl s))).mono
  rintro result s' ⟨hwrote, haside⟩
  have hkept : asker.Kept none s' := by
    apply ((hdrawn.kept.begin hdrawn.issued).aside haside).finish hwrote
    intro id row hrow hrun
    rw [haside.approvals] at hrow
    exact absurd hrun (hdrawn.rowless id row hrow)
  exact ⟨hkept, haside, fun hsame => absurd hsame hname⟩

/-- Filing an approval under a run id that no other approval has; the agent that asks files what its run waits for. -/
theorem ensures_filing (h : asker.Kept none s) (draft : ApprovalDraft) (hissued : Issued s.1 draft.runId)
    (hrowless : ∀ id row, s.1.stores.approvals.row id = some row → row.runId ≠ draft.runId)
    (hwaits : ∀ agent, s.1.stores.agents.row draft.agentId = some agent → agent.name = asker.agentName →
      draft.action = asker.tool.name ∧ asker.calledWith draft.runId s.2 = [] ∧
        ∃ payload book, asker.AtInterrupt s.1 draft.runId draft.payload payload book) :
    (logProtocol env).Ensures (fun _ s' => asker.Kept none s') (await (.insertApproval draft)) s := by
  apply Protocol.ensures_call.mpr
  refine ⟨trivial, ?_⟩
  intro reply s' hreply
  obtain ⟨hworld, hlog⟩ := answers_logged hreply
  have hspec := (World.answer_spec hworld).2
  have hsame (hstores : s'.1.stores = s.1.stores) : asker.Kept none s' := by
    apply h.aside
    refine ⟨⟨by rw [hstores], fun _ _ => by rw [hstores], [_], hlog, fun _ _ => rfl⟩, by rw [hstores], ?_⟩
    intro id agent hagent
    rw [hstores] at hagent
    exact ⟨agent, hagent, rfl⟩
  cases hgiven : env.given s.1.tick (.insertApproval draft) with
  | error error =>
    rw [hgiven] at hspec
    exact hsame (congrArg Prod.fst hspec).symm
  | ok value =>
    rw [hgiven] at hspec
    simp only [Stores.respond] at hspec
    split at hspec
    · obtain ⟨hstores, rfl⟩ := Prod.mk.inj hspec
      have happrovals (id : ℕ) : s'.1.stores.approvals.row id =
          if id = s.1.stores.approvals.next then some (draft.row s.1.stores.approvals.next) else s.1.stores.approvals.row id := by
        rw [← hstores]
        exact Table.row_insert _ _ (draft.row_id _) _
      have hagents : s'.1.stores.agents = s.1.stores.agents := by rw [← hstores]
      have huuids : s'.1.stores.uuids = s.1.stores.uuids := by rw [← hstores]
      have hcheckpoints : s'.1.stores.checkpoints = s.1.stores.checkpoints := by rw [← hstores]
      have hapart : asker.Apart none s s' :=
        ⟨Nat.le_of_eq huuids.symm, fun _ _ => by rw [hcheckpoints], [_], hlog, fun _ _ => rfl⟩
      apply h.apart hapart
      · intro id row hrow
        rw [happrovals] at hrow
        split at hrow
        · rw [← Option.some.inj hrow]
          exact hissued.mono hapart.uuids
        · exact (h.issued id row hrow).mono hapart.uuids
      · intro id id' row row' hrow hrow' hrun
        rw [happrovals] at hrow hrow'
        split at hrow <;> split at hrow'
        · rw [‹id = _›, ‹id' = _›]
        · rw [← Option.some.inj hrow] at hrun
          exact absurd hrun.symm (hrowless id' row' hrow')
        · rw [← Option.some.inj hrow'] at hrun
          exact absurd hrun (hrowless id row hrow)
        · exact h.unique id id' row row' hrow hrow' hrun
      · intro id row agent hrow hpending hagent hname hbusy
        rw [hagents] at hagent
        rw [happrovals] at hrow
        split at hrow
        · obtain rfl := Option.some.inj hrow
          obtain ⟨haction, hunused, payload, book, hwaiting⟩ := hwaits agent hagent hname
          refine ⟨⟨draft.row s.1.stores.approvals.next, rfl, draft.agentId, ?_⟩, ?_, payload, book, ?_⟩
          · rw [hlog]
            apply List.mem_append_right
            rw [List.mem_singleton, ← haction]
            rfl
          · rw [hlog, calledWith_append]
            exact (congrArg (· ++ []) hunused)
          · refine { hwaiting with saved := ?_ }
            rw [hcheckpoints]
            exact hwaiting.saved
        · exact (h.waiting id row agent hrow hpending hagent hname hbusy).apart hapart hbusy
    · exact hsame (congrArg Prod.fst hspec).symm

/-- The end of a run files what it stopped at. -/
theorem ensures_filesRun {outcomes : Outcomes} (hended : ∀ runId values, (outcomes.ended runId values).Only fun _ => False)
    {agentId : ℕ} {result : AgentRun} {before : World × List CallEvent} (hissued : Issued s.1 runId)
    (hrowless : ∀ id row, s.1.stores.approvals.row id = some row → row.runId ≠ runId)
    (hnamed : ∀ agent, s.1.stores.agents.row agentId = some agent → agent.name = agentName)
    (hran : asker.Ran agentName runId before (.ok result) s) :
    (logProtocol env).Ensures (fun _ s' => asker.Kept none s') (finishRun outcomes agentId runId result) s := by
  rw [finishRun]
  split
  · exact hran.kept
  · obtain ⟨values, interrupt⟩ := result
    cases interrupt with
    | none =>
      apply Protocol.ensures_only (hended runId values) _ hran.kept
      exact fun _ _ _ hc => hc.elim
    | some payload =>
      apply Protocol.ensures_bind.mpr
      rw [queueApproval]
      apply Protocol.ensures_ofExcept_bind
      · exact fun _ _ => hran.kept
      · intro action haction
        apply Protocol.ensures_ofExcept_bind
        · exact fun _ _ => hran.kept
        · intro args hargs
          have hfiles : (logProtocol env).Ensures (fun _ s' => asker.Kept none s')
              (await (.insertApproval ⟨agentId, runId, action, args⟩)) s := by
            apply ensures_filing hran.kept ⟨agentId, runId, action, args⟩ hissued hrowless
            intro agent hagent hname
            obtain ⟨hunused, htool, shown, book, hshown, hwaits⟩ :=
              hran.waits ((hnamed agent hagent).symm.trans hname) values payload rfl
            rw [htool] at haction
            rw [hshown] at hargs
            obtain rfl : asker.tool.name = action := Except.ok.inj haction
            obtain rfl : shown = args := Except.ok.inj hargs
            exact ⟨rfl, hunused, payload, book, hwaits⟩
          apply hfiles.mono
          intro inserted s' hkept
          cases inserted with
          | error error => exact hkept
          | ok row => exact hkept

/-- A request that starts a run keeps what is kept. -/
theorem ensures_startsRun {outcomes : Outcomes} (hended : ∀ runId values, (outcomes.ended runId values).Only fun _ => False)
    {run : String → Coroutine AgentRun} (hrun : ∀ runId s, asker.Drawn runId s →
      (logProtocol env).Ensures (asker.Ran agentName runId s) (run runId) s) (h : asker.Kept none s) :
    (logProtocol env).Ensures (fun _ s' => asker.Kept none s') (startRun agentName outcomes run) s := by
  apply Protocol.ensures_call_bind trivial
  intro found s₁ hfound
  have hkept₁ := h.answer (show asker.Spares none (.findAgent agentName) from trivial) hfound
  obtain ⟨-, hstores, hnamed⟩ := World.answer_findAgent (answers_logged hfound).1
  match found with
  | .error error => exact hkept₁
  | .ok none => exact hkept₁
  | .ok (some agent) =>
    have hname : s.1.stores.agentNamed agentName = some agent := (hnamed _ rfl).symm
    have hrow : s₁.1.stores.agents.row agent.id = some agent := by
      rw [hstores]
      exact s.1.stores.agents.row_key (List.mem_of_find?_eq_some hname)
    have hagentName : agent.name = agentName := by simpa using List.find?_some hname
    apply Protocol.ensures_call_bind trivial
    intro built s₂ hbuilt
    have hbuildSpares : asker.Spares none .buildClient := trivial
    have hkept₂ := hkept₁.answer hbuildSpares hbuilt
    have haside₂ : asker.Aside none s₁ s₂ := Aside.answer hbuildSpares hbuilt
    cases built with
    | error error => exact hkept₂
    | ok built =>
      apply Protocol.ensures_call_bind trivial
      intro made s₃ hmade
      obtain ⟨runId, rfl, hdrawn⟩ := hkept₂.draw hmade
      have haside₃ : asker.Aside none s₁ s₃ :=
        haside₂.trans (Aside.answer (show asker.Spares none .uuid4 from trivial) hmade)
      apply Protocol.ensures_bind.mpr
      apply (hrun runId s₃ hdrawn).mono
      intro ran s₄ hran
      cases ran with
      | error error => exact hran.kept
      | ok result =>
        apply ensures_filesRun hended (hdrawn.issued.mono hran.aside.uuids) _ _ hran
        · intro id row hrowed
          rw [hran.aside.approvals] at hrowed
          exact hdrawn.rowless id row hrowed
        · intro later hlater
          obtain ⟨middle, hmiddle, hsame⟩ := hran.aside.agents _ later hlater
          obtain ⟨first, hfirst, hsame'⟩ := haside₃.agents _ middle hmiddle
          rw [hrow] at hfirst
          rw [← hsame, ← hsame', ← Option.some.inj hfirst, hagentName]

/-- The automation's e-mail is filed by the recipes, which do not ask. -/
theorem ensures_filesEmail (hkeeps : asker.Keeps fleet) (body : EmailSendIn) (h : asker.Kept none s) :
    (logProtocol env).Ensures (fun _ s' => asker.Kept none s') (emailSendRequest fleet body) s := by
  rw [emailSendRequest]
  split
  · exact h
  · apply Protocol.ensures_call_bind trivial
    intro found s₁ hfound
    have hkept₁ := h.answer (show asker.Spares none (.findAgent recipeAgentName) from trivial) hfound
    obtain ⟨-, hstores, hnamed⟩ := World.answer_findAgent (answers_logged hfound).1
    rcases found with error | (_ | agent)
    · exact hkept₁
    · exact hkept₁
    · have hname : s.1.stores.agentNamed recipeAgentName = some agent := (hnamed _ rfl).symm
      have hrow : s₁.1.stores.agents.row agent.id = some agent := by
        rw [hstores]
        exact s.1.stores.agents.row_key (List.mem_of_find?_eq_some hname)
      have hagentName : agent.name = recipeAgentName := by simpa using List.find?_some hname
      apply Protocol.ensures_call_bind trivial
      intro made s₂ hmade
      obtain ⟨runId, rfl, hdrawn⟩ := hkept₁.draw hmade
      have haside₂ : asker.Aside none s₁ s₂ := Aside.answer (show asker.Spares none .uuid4 from trivial) hmade
      apply Protocol.ensures_bind.mpr
      have hfiles : (logProtocol env).Ensures (fun _ s' => asker.Kept none s')
          (await (.insertApproval ⟨agent.id, runId, "email.send", body.payload⟩)) s₂ := by
        apply ensures_filing hdrawn.kept ⟨agent.id, runId, "email.send", body.payload⟩ hdrawn.issued hdrawn.rowless
        intro later hlater hasks
        obtain ⟨first, hfirst, hsame⟩ := haside₂.agents _ later hlater
        rw [hrow] at hfirst
        obtain rfl := Option.some.inj hfirst
        exact absurd (hasks.symm.trans (hsame.symm.trans hagentName)) hkeeps.apart
      apply hfiles.mono
      intro inserted s₃ hkept₃
      cases inserted with
      | error error => exact hkept₃
      | ok row =>
        apply Protocol.ensures_bind.mpr
        apply Protocol.ensures_call_bind trivial
        intro read s₄ hread
        have hkept₄ := hkept₃.answer (show asker.Spares none (.getApproval row.id) from trivial) hread
        rcases read with error | (_ | row)
        · exact hkept₄
        · exact hkept₄
        · exact hkept₄

/-- A request that files approvals keeps what is kept. -/
theorem ensures_files (hkeeps : asker.Keeps fleet) (filing : Filing) (h : asker.Kept none s) :
    (logProtocol env).Ensures (fun _ s' => asker.Kept none s') (filing.request fleet) s := by
  by_cases hname : filing.agentName = asker.agentName
  · obtain ⟨outcomes, input, hended, hrequest⟩ := hkeeps.started filing hname
    rw [hrequest]
    exact Protocol.ensures_discard.mpr (ensures_startsRun hended (fun _ _ => ensures_ownRun hkeeps input) h)
  · cases filing with
    | devAgent ticketKey =>
      refine Protocol.ensures_discard.mpr (ensures_startsRun ?_ (fun runId _ => ensures_otherRun hname
        (only_ainvoke (DevAgent.only_body fleet.py _ none) _)) h)
      exact fun _ _ => trivial
    | invoiceAgent imageBase64 =>
      refine Protocol.ensures_discard.mpr (ensures_startsRun ?_ (fun runId _ => ensures_otherRun hname
        (only_ainvoke (InvoiceAgent.only_body fleet.py fleet.exceedsTolerance _ none []) _)) h)
      exact fun _ _ => trivial
    | hrAgent imageBase64 criteria =>
      refine Protocol.ensures_discard.mpr (ensures_startsRun ?_ (fun runId _ => ensures_otherRun hname
        (only_ainvoke (HrAgent.only_body fleet.py fleet.hr _ none) _)) h)
      exact fun _ _ => trivial
    | dealerOnboarding applicationId documents =>
      refine Protocol.ensures_discard.mpr (ensures_startsRun ?_ (fun runId _ => ensures_otherRun hname
        (only_ainvoke (DealerOnboarding.only_body fleet.py fleet.dealer _ none) _)) h)
      exact fun _ _ => (Prog.only_ofExcept _).bind fun _ => trivial
    | insightsPublisher =>
      refine Protocol.ensures_discard.mpr (ensures_startsRun ?_ (fun runId _ => ensures_otherRun hname
        (only_ainvoke (InsightsPublisher.only_body fleet.py fleet.insights _ none) _)) h)
      exact fun _ _ => trivial
    | email body => exact Protocol.ensures_discard.mpr (ensures_filesEmail hkeeps body h)

end Starting

/-! ## Deciding approvals -/

section Deciding

variable {s s' : World × List CallEvent} {env : Env} {agentName : String} {row : ApprovalRow} {approved : Bool}

/-- The row that a request reads of a pending approval is stored. -/
theorem ensures_pendingRow (h : asker.Kept none s) (id : ℕ) : (logProtocol env).Ensures
    (fun found s' => asker.Kept none s' ∧ ∀ row, found = .ok row →
      s'.1.stores.approvals.row row.id = some row ∧ row.status = "pending") (pendingApproval id) s := by
  apply Protocol.ensures_call_bind trivial
  intro read s₁ hread
  have hkept := h.answer (show asker.Spares none (.getApproval id) from trivial) hread
  obtain ⟨hstores, hrow⟩ := World.answer_getApproval (answers_logged hread).1
  match read with
  | .error error => exact ⟨hkept, fun row hfound => by cases hfound⟩
  | .ok none => exact ⟨hkept, fun row hfound => by cases hfound⟩
  | .ok (some row) =>
    show Protocol.Ensures _ _ (if row.status ≠ "pending" then _ else _) _
    have hstored : s.1.stores.approvals.row id = some row := (hrow _ rfl).symm
    have hid : row.id = id := s.1.stores.approvals.keyed id row hstored
    split
    · exact ⟨hkept, fun other hfound => by cases hfound⟩
    · rename_i hpending
      refine ⟨hkept, fun other hfound => ?_⟩
      obtain rfl : row = other := Except.ok.inj hfound
      rw [hstores, hid]
      exact ⟨hstored, not_not.mp hpending⟩

/-- The name of the agent that a request finds is the one of its row. -/
theorem ensures_resumableName (h : asker.Kept none s) (hrow : s.1.stores.approvals.row row.id = some row) :
    (logProtocol env).Ensures (fun named s' => asker.Kept none s' ∧ s'.1.stores.approvals.row row.id = some row ∧
      ∀ name, named = .ok name → ∃ agent, s'.1.stores.agents.row row.agentId = some agent ∧ agent.name = name)
      (resumableAgent fleet row) s := by
  apply Protocol.ensures_call_bind trivial
  intro read s₁ hread
  have hkept := h.answer (show asker.Spares none (.getAgent row.agentId) from trivial) hread
  obtain ⟨-, hstores, hagent⟩ := World.answer_getAgent (answers_logged hread).1
  have hrow₁ : s₁.1.stores.approvals.row row.id = some row := by
    rw [hstores]
    exact hrow
  match read with
  | .error error => exact ⟨hkept, hrow₁, fun name hnamed => by cases hnamed⟩
  | .ok none => exact ⟨hkept, hrow₁, fun name hnamed => by cases hnamed⟩
  | .ok (some agent) =>
    show Protocol.Ensures _ _ (if agent.name ∈ resumableAgents then _ else _) _
    split
    · refine ⟨hkept, hrow₁, fun name hnamed => ⟨agent, ?_, Except.ok.inj hnamed⟩⟩
      rw [hstores]
      exact (hagent _ rfl).symm
    · exact ⟨hkept, hrow₁, fun name hnamed => by cases hnamed⟩

/-- A decision is committed: the row waits no more, and the run of the agent that asks does. -/
structure Committed (asker : Asker ν ρ) (approved : Bool) (agentName : String) (row : ApprovalRow)
    (s : World × List CallEvent) : Prop where
  kept : asker.Kept none s
  decided : ∃ after, s.1.stores.approvals.row row.id = some after ∧ after.runId = row.runId ∧ after.status ≠ "pending"
  waits : agentName = asker.agentName → asker.calledWith row.runId s.2 = [] ∧
    (∃ payload book, asker.AtInterrupt s.1 row.runId row.payload payload book) ∧
    (approved = true → asker.ApprovedIn row.runId row.payload s.2)

/-- What was approved stays approved. -/
theorem ApprovedIn.append {runId : String} {args : Dict} {log : List CallEvent} (h : asker.ApprovedIn runId args log)
    (more : List CallEvent) : asker.ApprovedIn runId args (log ++ more) := by
  obtain ⟨before, after, row, editedPayload, sub, rfl, hfiled⟩ := h
  exact ⟨before, after ++ more, row, editedPayload, sub, by simp, hfiled⟩

/-- A committed decision stays committed while others are at work. -/
theorem Committed.aside (h : asker.Committed approved agentName row s) (haside : asker.Aside none s s') :
    asker.Committed approved agentName row s' := by
  obtain ⟨more, hmore, hcalls⟩ := haside.log
  refine ⟨h.kept.aside haside, ?_, fun hname => ?_⟩
  · rw [haside.approvals]
    exact h.decided
  · obtain ⟨hunused, ⟨payload, book, hwaits⟩, happroved⟩ := h.waits hname
    refine ⟨?_, ⟨payload, book, { hwaits with saved := ?_ }⟩, fun happroves => ?_⟩
    · rw [hmore, calledWith_append, hunused, hcalls _ (by simp)]
      rfl
    · rw [haside.checkpoints _ (by simp)]
      exact hwaits.saved
    · rw [hmore]
      exact (happroved happroves).append more

/-- Committing a decision. -/
theorem ensures_commit (approved : Bool) (h : asker.Kept none s) (hrow : s.1.stores.approvals.row row.id = some row)
    (hpending : row.status = "pending") (hagent : ∃ agent, s.1.stores.agents.row row.agentId = some agent ∧
      agent.name = agentName) (editedPayload : Option Dict) (sub : String) :
    (logProtocol env).Ensures (fun committed s' => (∃ error, committed = .error error) ∧ asker.Kept none s' ∨
        asker.Committed approved agentName row s')
      (await (.commitDecision row.id editedPayload (decidedStatus approved) sub)) s := by
  apply Protocol.ensures_call.mpr
  refine ⟨trivial, ?_⟩
  intro reply s' hreply
  obtain ⟨hworld, hlog⟩ := answers_logged hreply
  have hapart_of (huuids : s'.1.stores.uuids = s.1.stores.uuids)
      (hcheckpoints : s'.1.stores.checkpoints = s.1.stores.checkpoints) : asker.Apart none s s' :=
    ⟨Nat.le_of_eq huuids.symm, fun _ _ => by rw [hcheckpoints], [_], hlog, fun _ _ => rfl⟩
  rcases World.answer_commitDecision hworld with ⟨herror, hstores⟩ | ⟨rfl, held, time, hheld, hstores, hdecided⟩
  · left
    refine ⟨herror, h.aside ⟨hapart_of (by rw [hstores]) (by rw [hstores]), by rw [hstores], ?_⟩⟩
    intro id agent hfound
    rw [hstores] at hfound
    exact ⟨agent, hfound, rfl⟩
  · right
    obtain rfl : row = held := Option.some.inj (hrow.symm.trans hheld)
    have hapart := hapart_of (by rw [hstores]) (by rw [hstores])
    have hagents : s'.1.stores.agents = s.1.stores.agents := by rw [hstores]
    have hrows (id : ℕ) : s'.1.stores.approvals.row id = if id = row.id
        then some (row.decided editedPayload (decidedStatus approved) sub time) else s.1.stores.approvals.row id := by
      rw [hstores]
      simp only [Table.row_update, hrow, Option.map_some]
    -- Every row is still of the run that it was of, and only the decided one is not what it was.
    have hbefore (id : ℕ) (after : ApprovalRow) (hafter : s'.1.stores.approvals.row id = some after) :
        ∃ before, s.1.stores.approvals.row id = some before ∧ before.runId = after.runId ∧
          (after.status = "pending" → before = after) := by
      rw [hrows] at hafter
      split at hafter
      · rename_i hid
        rw [← Option.some.inj hafter, hid]
        exact ⟨row, hrow, rfl, fun hstatus => absurd hstatus (decidedStatus_ne approved)⟩
      · exact ⟨after, hafter, rfl, fun _ => rfl⟩
    have hkept : asker.Kept none s' := by
      apply h.apart hapart
      · intro id after hafter
        obtain ⟨before, hstored, hrun, -⟩ := hbefore id after hafter
        rw [← hrun]
        exact (h.issued id before hstored).mono hapart.uuids
      · intro id id' after after' hafter hafter' hrun
        obtain ⟨before, hstored, hrun₁, -⟩ := hbefore id after hafter
        obtain ⟨before', hstored', hrun₂, -⟩ := hbefore id' after' hafter'
        exact h.unique id id' before before' hstored hstored' (hrun₁.trans (hrun.trans hrun₂.symm))
      · intro id after agent hafter hstatus hfound hname hbusy
        obtain ⟨before, hstored, -, hsame⟩ := hbefore id after hafter
        obtain rfl := hsame hstatus
        rw [hagents] at hfound
        exact (h.waiting id before agent hstored hstatus hfound hname hbusy).apart hapart hbusy
    refine ⟨hkept, ⟨_, hdecided, rfl, decidedStatus_ne approved⟩, fun hname => ?_⟩
    obtain ⟨agent, hfound, hagentName⟩ := hagent
    have hfiled := h.waiting row.id row agent hrow hpending hfound (hagentName.trans hname) (by simp)
    have hlater := hfiled.apart hapart (by simp)
    refine ⟨hlater.unused, hlater.waits, fun happroves => ?_⟩
    obtain ⟨inserted, hid, hin⟩ := hfiled.filed
    refine ⟨s.2, [], inserted, editedPayload, sub, ?_, hin⟩
    rw [hlog, happroves, hid]

/-- The handler of the agent that asks. -/
theorem ensures_ownHandler (hkeeps : asker.Keeps fleet) (h : asker.Committed approved asker.agentName row s) :
    (logProtocol env).Ensures (fun _ s' => asker.Kept none s')
      (resumeGraph row.runId approved asker.graph asker.names asker.agentName) s := by
  apply Protocol.ensures_call_bind trivial
  intro built s₁ hbuilt
  have hcommitted := h.aside (Aside.answer (show asker.Spares none .buildClient from trivial) hbuilt)
  cases built with
  | error error => exact hcommitted.kept
  | ok built =>
    obtain ⟨hunused, ⟨payload, book, hwaits⟩, happroved⟩ := hcommitted.waits rfl
    obtain ⟨after, hafter, hrun, hstatus⟩ := hcommitted.decided
    have honly : (aresume (asker.graph (asker.actor row.runId)) (asker.saver row.runId) (resumeValue approved)).Only
        (asker.Spares (some row.runId)) := (only_aresume (hkeeps.body row.runId) _).mono fun _ => spares_runCall
    have hissued : Issued s₁.1 row.runId := hrun ▸ hcommitted.kept.issued _ after hafter
    have hresumed : (logProtocol env).Ensures (fun _ s' => asker.Kept none s')
        (aresume (asker.graph (asker.actor row.runId)) (asker.saver row.runId) (resumeValue approved)) s₁ := by
      apply ((ensures_resumed hkeeps (resumeValue approved) hwaits hunused).and (ensures_aside honly (Aside.refl s₁))).mono
      rintro result s₂ ⟨hcalled, haside⟩
      apply ((hcommitted.kept.begin hissued).aside haside).finish
      · rcases hcalled with hnone | ⟨hone, happroval⟩
        · exact .inl hnone
        · obtain ⟨more, hmore, -⟩ := haside.log
          rw [hmore, calledWith_append, hunused, List.nil_append] at hone
          have happroves : approved = true := by
            cases approved
            · exact absurd happroval (by decide)
            · rfl
          exact .inr ⟨s₁.2, more, row.payload, hmore, hunused, hone, happroved happroves⟩
      · intro id other hother hsame
        rw [haside.approvals] at hother
        have hid := hcommitted.kept.unique id row.id other after hother hafter (hsame.trans hrun.symm)
        rw [hid, hafter] at hother
        rw [← Option.some.inj hother]
        exact hstatus
    apply Protocol.ensures_bind.mpr
    apply hresumed.mono
    intro result s₂ hkept
    cases result with
    | error error => exact hkept
    | ok run => exact hkept

/-- The calls of another agent's handler leave the run and the tool alone. -/
theorem spares_resumeCall {runId : String} {c : Call} (h : ResumeCall ⟨agentName, runId⟩ c) :
    asker.Spares (some runId) c ∧ (agentName ≠ asker.agentName → asker.SparesTool c) := by
  cases c with
  | putCheckpoint thread run => exact ⟨congrArg some h, fun _ => trivial⟩
  | tool caller tool args =>
    obtain rfl : caller = ⟨agentName, runId⟩ := h
    exact ⟨fun _ _ => rfl, fun hname _ => hname⟩
  | _ => first | exact ⟨trivial, fun _ => trivial⟩ | exact h.elim

/-- The handler of another agent. -/
theorem ensures_otherHandler (hname : agentName ≠ asker.agentName) (h : asker.Committed approved agentName row s)
    {handler : Coroutine Unit} (hhandler : handler.Only (ResumeCall ⟨agentName, row.runId⟩)) :
    (logProtocol env).Ensures (fun _ s' => asker.Kept none s') handler s := by
  obtain ⟨after, hafter, hrun, hstatus⟩ := h.decided
  have honly : handler.Only (asker.Spares (some row.runId)) := hhandler.mono fun _ hc => (spares_resumeCall hc).1
  have htool : handler.Only asker.SparesTool := hhandler.mono fun _ hc => (spares_resumeCall hc).2 hname
  have hissued : Issued s.1 row.runId := hrun ▸ h.kept.issued _ after hafter
  apply ((ensures_wrote htool (h.kept.wrote row.runId (by simp))).and (ensures_aside honly (Aside.refl s))).mono
  rintro result s₁ ⟨hwrote, haside⟩
  apply ((h.kept.begin hissued).aside haside).finish hwrote
  intro id other hother hsame
  rw [haside.approvals] at hother
  have hid := h.kept.unique id row.id other after hother hafter (hsame.trans hrun.symm)
  rw [hid, hafter] at hother
  rw [← Option.some.inj hother]
  exact hstatus

/-- Carrying out a committed decision keeps what is kept. -/
theorem ensures_carriesOut (hkeeps : asker.Keeps fleet) (h : asker.Committed approved agentName row s) :
    (logProtocol env).Ensures (fun _ s' => asker.Kept none s') (carryOut fleet agentName row.runId approved) s := by
  rw [carryOut]
  cases hhandler : resumerOf fleet row.runId approved agentName with
  | none => exact h.kept
  | some handler =>
    apply Protocol.ensures_call_bind trivial
    intro started s₁ hstarted
    have hcommitted := h.aside (Aside.answer
      (show asker.Spares none (.resumeStarted agentName row.runId approved) from trivial) hstarted)
    cases started with
    | error error => exact hcommitted.kept
    | ok started =>
      by_cases hname : agentName = asker.agentName
      · subst hname
        rw [hkeeps.resumed row.runId approved handler hhandler]
        exact ensures_ownHandler hkeeps hcommitted
      · exact ensures_otherHandler hname hcommitted (only_resumerOf fleet row.runId approved hhandler)

/-- A decision keeps what is kept. -/
theorem ensures_decides (hkeeps : asker.Keeps fleet) (h : asker.Kept none s) (approvalId : ℕ) (body : DecisionIn)
    (sub : String) : (logProtocol env).Ensures (fun _ s' => asker.Kept none s')
      (decideApproval fleet approvalId body sub) s := by
  rw [decideApproval]
  split
  · exact h
  · apply Protocol.ensures_bind.mpr
    apply (ensures_pendingRow h approvalId).mono
    rintro found s₁ ⟨hkept₁, hfound⟩
    cases found with
    | error error => exact hkept₁
    | ok row =>
      obtain ⟨hrow, hpending⟩ := hfound row rfl
      apply Protocol.ensures_bind.mpr
      apply (ensures_resumableName hkept₁ hrow).mono
      rintro named s₂ ⟨hkept₂, hrow₂, hnamed⟩
      cases named with
      | error error => exact hkept₂
      | ok agentName =>
        apply Protocol.ensures_bind.mpr
        apply (ensures_commit body.approves hkept₂ hrow₂ hpending (hnamed agentName rfl) body.editedPayload sub).mono
        rintro committed s₃ hcommitted
        cases committed with
        | error error =>
          rcases hcommitted with ⟨-, hkept₃⟩ | hcommitted
          · exact hkept₃
          · exact hcommitted.kept
        | ok committed =>
          rcases hcommitted with ⟨⟨error, herror⟩, -⟩ | hcommitted
          · cases herror
          · apply Protocol.ensures_bind.mpr
            apply Protocol.ensures_call_bind trivial
            intro read s₄ hread
            have hcommitted₄ := hcommitted.aside (Aside.answer
              (show asker.Spares none (.getApproval row.id) from trivial) hread)
            rcases read with error | (_ | refreshed)
            · exact hcommitted₄.kept
            · exact hcommitted₄.kept
            · have hrun : refreshed.runId = row.runId := by
                obtain ⟨after, hafter, hsame, -⟩ := hcommitted.decided
                have hread := (World.answer_getApproval (answers_logged hread).1).2 _ rfl
                rw [hafter] at hread
                rw [Option.some.inj hread, hsame]
              apply Protocol.ensures_bind.mpr
              show Protocol.Ensures _ _ (carryOut fleet agentName refreshed.runId body.approves) s₄
              rw [hrun]
              apply (ensures_carriesOut hkeeps hcommitted₄).mono
              intro result s₅ hkept₅
              cases result with
              | error error => exact hkept₅
              | ok value => exact hkept₅

end Deciding

end Asker

/-! ## Other requests -/

/-- Calls that file and decide nothing, start no handler, name no agent, save no checkpoint and write nothing outside. -/
def Aloof : Call → Prop
  | .insertApproval _ | .commitDecision _ _ _ _ | .resumeStarted _ _ _ | .insertAgent _ | .updateAgent _ _ | .deleteAgent _
  | .putCheckpoint _ _ => False
  | .tool _ tool _ => tool.riskClass ≠ "write:external"
  | _ => True

/-- Such calls spare an agent that asks. -/
theorem Aloof.spares {ν ρ : Type} {asker : Asker ν ρ} (hexternal : asker.tool.riskClass = "write:external") {c : Call}
    (h : Aloof c) : asker.Spares none c := by
  cases c with
  | tool caller tool args =>
    rintro rfl
    exact absurd hexternal h
  | putCheckpoint thread run => exact h.elim
  | resumeStarted agentName runId approved => exact h.elim
  | _ => exact h

/-- A node that writes nothing outside keeps away. -/
theorem aloof_nodeCall {actor : Actor} {tools : List ToolSpec} {model : Bool}
    (htools : ∀ tool ∈ tools, tool.riskClass ≠ "write:external") {c : Call} (h : NodeCall actor tools model c) : Aloof c := by
  cases c with
  | tool caller tool args => exact htools tool h.2
  | _ => trivial

section Others

variable (fleet : Fleet)

/-- A run that lives as long as its request keeps away when its nodes do. -/
theorem aloof_memoryRun {ν : Type} {graph : AgentGraph ν} {names : NodeNames ν} {actor : Actor} {tools : ν → List ToolSpec}
    {model : ν → Bool} (hbody : ∀ node resume values,
      (graph.body node resume values).Only (NodeCall actor (tools node) (model node)))
    (htools : ∀ node, ∀ tool ∈ tools node, tool.riskClass ≠ "write:external") (input : Dict) :
    (ainvoke graph (memorySaver names actor) input).Only Aloof := by
  apply StateGraph.only_invoke
  · exact fun node resume values => (hbody node resume values).mono fun _ => aloof_nodeCall (htools node)
  · exact fun node => Prog.only_call trivial
  · trivial
  · exact fun _ => trivial

/-- Checking a listing. -/
theorem aloof_startListingQuality (body : ListingIn) : (startListingQuality fleet body).Only Aloof := by
  have htools : ∀ node, ∀ tool ∈ ListingQuality.nodeTools body.shadow node, tool.riskClass ≠ "write:external" := by
    cases body.shadow <;> intro node <;> cases node <;> decide
  apply (Prog.only_call trivial).bind
  intro _
  apply (Prog.only_call trivial).bind
  intro runId
  apply (aloof_memoryRun (ListingQuality.only_body fleet.listing _ none body.shadow) htools _).bind
  intro result
  show Prog.Only Aloof (if _ then _ else _)
  split
  · trivial
  · exact (Prog.only_ofExcept _).bind fun _ => (Prog.only_ofExcept _).bind fun _ => Prog.only_pure _

/-- Reviewing a contract. -/
theorem aloof_startLegalReview (contractText : String) : (startLegalReview fleet contractText).Only Aloof := by
  apply (Prog.only_call trivial).bind
  intro found
  cases found with
  | none => trivial
  | some agent =>
    apply (Prog.only_call trivial).bind
    intro collection
    split
    · trivial
    · apply (Prog.only_call trivial).bind
      intro _
      apply (Prog.only_call trivial).bind
      intro runId
      apply (aloof_memoryRun (LegalReview.only_body fleet.legal _ none) (fun _ _ htool => by cases htool) _).bind
      intro result
      show Prog.Only Aloof (if _ then _ else _)
      split
      · trivial
      · exact (Prog.only_ofExcept _).bind fun _ => Prog.only_pure _

/-- Replying on any of the paths. -/
theorem aloof_replyOf (agent : AgentRow) (question traceId : String) : (replyOf fleet agent question traceId).Only Aloof := by
  apply (Prog.only_call trivial).bind
  intro _
  show Prog.Only Aloof (if _ then _ else _)
  split
  · exact (fleet.analyticsReply_only _ agent question).mono fun _ => aloof_nodeCall (by decide)
  · split
    · exact (Prog.only_call trivial).bind fun _ => trivial
    · exact (fleet.ragReply_only _ agent question).mono fun _ => aloof_nodeCall (by decide)

/-- Checking what an agent may read. -/
theorem aloof_assertAgentMayRead (agent : AgentRow) : (assertAgentMayReadItsCollections fleet.py agent).Only Aloof := by
  have hrefuse (level : ℕ) (collections : List Json) : (refuseAbove fleet.py agent level collections).Only Aloof := by
    induction collections with
    | nil => trivial
    | cons collection rest ih =>
      apply (Prog.only_ofExcept _).bind
      intro sensitivity
      apply (Prog.only_ofExcept _).bind
      intro required
      show Prog.Only Aloof (if _ then _ else _)
      split
      · exact (Prog.only_ofExcept _).bind fun _ => trivial
      · exact ih
  rw [assertAgentMayReadItsCollections]
  split
  · trivial
  · exact (Prog.only_ofExcept _).bind fun level => (Prog.only_call trivial).bind fun _ =>
      (Prog.only_ofExcept _).bind fun collections => hrefuse level collections

/-- Asking an agent from an automation. -/
theorem aloof_agentRun (agentName question : String) : (agentRun fleet agentName question).Only Aloof := by
  apply (Prog.only_call trivial).bind
  intro found
  cases found with
  | none => trivial
  | some agent =>
    show Prog.Only Aloof (if _ then _ else _)
    split
    · trivial
    · exact (aloof_assertAgentMayRead fleet agent).bind fun _ => (Prog.only_call trivial).bind fun _ =>
        (Prog.only_call trivial).bind fun traceId => (aloof_replyOf fleet agent question traceId).bind fun _ => trivial

/-- Looking up the pause of an agent. -/
theorem aloof_isAgentPaused (killswitch : KillSwitch) (agentName : String) :
    (killswitch.isAgentPaused agentName).Only Aloof := by
  have hlookup (time : Time) : (killswitch.lookupPaused agentName time).Only Aloof :=
    (Prog.only_call trivial).bind fun _ => (Prog.only_call trivial).bind fun _ => trivial
  apply (Prog.only_call trivial).bind
  intro cached
  match cached with
  | (time, none) => exact hlookup time
  | (time, some (paused, since)) =>
    show Prog.Only _ (if time - since < pauseCacheTtl then _ else _)
    split
    · trivial
    · exact hlookup time

/-- Finding an agent. -/
theorem aloof_agentOr404 (id : ℕ) : (agentOr404 id).Only Aloof := by
  apply (Prog.only_call trivial).bind
  intro found
  cases found <;> trivial

/-- Finding the agent of a conversation. -/
theorem aloof_conversationAgent (conversationId : ℕ) (sub : String) : (conversationAgent conversationId sub).Only Aloof := by
  apply (Prog.only_call trivial).bind
  intro conversation
  split
  · trivial
  · apply (Prog.only_call trivial).bind
    intro user
    apply (Prog.only_ofExcept _).bind
    intro userId
    apply (Prog.only_ofExcept _).bind
    intro ownerId
    show Prog.Only Aloof (if _ then _ else _)
    split
    · trivial
    · exact (Prog.only_ofExcept _).bind fun agentId => aloof_agentOr404 agentId

/-- Streaming a reply. -/
theorem aloof_streamReply (conversationId : ℕ) (agent : AgentRow) (content : String) :
    (streamReply fleet conversationId agent content).Only Aloof := by
  apply (Prog.only_call trivial).bind
  intro traceId
  apply (Prog.only_call trivial).bind
  intro _
  apply (aloof_replyOf fleet agent content traceId).attempt.bind
  intro replied
  cases replied with
  | ok text => exact (Prog.only_call trivial).bind fun _ => trivial
  | error error =>
    show Prog.Only Aloof (if _ then _ else _)
    split
    · exact (Prog.only_call trivial).bind fun _ => trivial
    · trivial

/-- A chat message. -/
theorem aloof_sendMessage (killswitch : KillSwitch) (conversationId : ℕ) (content sub : String) :
    (sendMessage fleet killswitch conversationId content sub).Only Aloof := by
  apply (aloof_conversationAgent conversationId sub).bind
  intro agent
  have hpaused : (agentIsPaused killswitch agent).Only Aloof := by
    rw [agentIsPaused]
    split
    · trivial
    · exact aloof_isAgentPaused killswitch agent.name
  apply hpaused.bind
  intro paused
  show Prog.Only Aloof (if paused then _ else _)
  split
  · trivial
  · exact (aloof_assertAgentMayRead fleet agent).bind fun _ => (Prog.only_call trivial).bind fun _ =>
      aloof_streamReply fleet conversationId agent content

/-- Pausing an agent. -/
theorem aloof_pauseAgent (agentId : ℕ) : (pauseAgent agentId).Only Aloof :=
  (aloof_agentOr404 agentId).bind fun _ => (Prog.only_call trivial).bind fun _ => Prog.only_call trivial

/-- Resuming an agent. -/
theorem aloof_resumeAgent (agentId : ℕ) : (resumeAgent agentId).Only Aloof :=
  (aloof_agentOr404 agentId).bind fun _ => (Prog.only_call trivial).bind fun _ => Prog.only_call trivial

end Others

/-! ## All requests -/

/-- A request to the API. -/
inductive Request where
  | file (filing : Filing)
  | decide (approvalId : ℕ) (body : DecisionIn) (sub : String)
  | checkListing (body : ListingIn)
  | reviewContract (contractText : String)
  | runAgent (agentName question : String)
  | sendMessage (killswitch : KillSwitch) (conversationId : ℕ) (content sub : String)
  | pauseAgent (agentId : ℕ)
  | resumeAgent (agentId : ℕ)
  | setGlobalReadOnly (enabled : Bool)

/-- The handler of a request. -/
def Request.task (fleet : Fleet) : Request → Coroutine Unit
  | .file filing => filing.request fleet
  | .decide approvalId body sub => discard (decideApproval fleet approvalId body sub)
  | .checkListing body => discard (startListingQuality fleet body)
  | .reviewContract contractText => discard (startLegalReview fleet contractText)
  | .runAgent agentName question => discard (agentRun fleet agentName question)
  | .sendMessage killswitch conversationId content sub => Api.sendMessage fleet killswitch conversationId content sub
  | .pauseAgent agentId => Api.pauseAgent agentId
  | .resumeAgent agentId => Api.resumeAgent agentId
  | .setGlobalReadOnly enabled => Api.setGlobalReadOnly enabled

/-- The world and the log after requests, one after another. -/
def serveAll (fleet : Fleet) (env : Env) (s : World × List CallEvent) (requests : List Request) : World × List CallEvent :=
  requests.foldl (fun s request => ((request.task fleet).run (logged (World.answer env)) s).1) s

/-- The world at first: some agents, and nothing else. -/
def World.withAgents (agents : Table AgentRow AgentRow.id) : World := ⟨0, { Stores.initial with agents := agents }⟩

section Serving

variable {ν ρ : Type} {asker : Asker ν ρ} {fleet : Fleet} {env : Env} {s : World × List CallEvent}

/-- A request that keeps away keeps what is kept. -/
theorem Asker.ensures_aloof (hkeeps : asker.Keeps fleet) {α : Type} {p : Coroutine α} (hp : p.Only Aloof)
    (h : asker.Kept none s) : (logProtocol env).Ensures (fun _ s' => asker.Kept none s') p s :=
  (Asker.ensures_aside (hp.mono fun _ => Aloof.spares hkeeps.external) (Asker.Aside.refl s)).mono
    fun _ _ haside => h.aside haside

/-- Every request keeps what is kept. -/
theorem Asker.ensures_request (hkeeps : asker.Keeps fleet) (request : Request) (h : asker.Kept none s) :
    (logProtocol env).Ensures (fun _ s' => asker.Kept none s') (request.task fleet) s := by
  cases request with
  | file filing => exact Asker.ensures_files hkeeps filing h
  | decide approvalId body sub =>
    exact Protocol.ensures_discard.mpr (Asker.ensures_decides hkeeps h approvalId body sub)
  | checkListing body =>
    exact Protocol.ensures_discard.mpr (ensures_aloof hkeeps (aloof_startListingQuality fleet body) h)
  | reviewContract contractText =>
    exact Protocol.ensures_discard.mpr (ensures_aloof hkeeps (aloof_startLegalReview fleet contractText) h)
  | runAgent agentName question =>
    exact Protocol.ensures_discard.mpr (ensures_aloof hkeeps (aloof_agentRun fleet agentName question) h)
  | sendMessage killswitch conversationId content sub =>
    exact ensures_aloof hkeeps (aloof_sendMessage fleet killswitch conversationId content sub) h
  | pauseAgent agentId => exact ensures_aloof hkeeps (aloof_pauseAgent agentId) h
  | resumeAgent agentId => exact ensures_aloof hkeeps (aloof_resumeAgent agentId) h
  | setGlobalReadOnly enabled => exact ensures_aloof hkeeps (Prog.only_call trivial) h

/-- Requests keep what is kept. -/
theorem Asker.kept_serveAll (hkeeps : asker.Keeps fleet) (requests : List Request) (h : asker.Kept none s) :
    asker.Kept none (serveAll fleet env s requests) := by
  induction requests generalizing s with
  | nil => exact h
  | cons request rest ih => exact ih (logged_of_ensures (Asker.ensures_request hkeeps request h))

/-- At first there is nothing to keep. -/
theorem Asker.kept_withAgents (asker : Asker ν ρ) (agents : Table AgentRow AgentRow.id) :
    asker.Kept none (World.withAgents agents, []) where
  running runId hrun := by cases hrun
  issued id row hrow := by cases hrow
  unique id id' row row' hrow := by cases hrow
  fresh runId _ := ⟨rfl, rfl⟩
  waiting id row agent hrow := by cases hrow
  wrote runId _ := .inl rfl

end Serving

/-! ## The two agents that ask -/

/-- The dev agent asks before it opens a pull request. -/
def devAsker (fleet : Fleet) : Asker DevAgent.Node DevAgent.Course where
  agentName := DevAgent.agentName
  tool := githubOpenPr
  names := DevAgent.nodeNames
  graph actor := DevAgent.graph fleet.py actor none
  tools := DevAgent.nodeTools
  model := DevAgent.callsModel
  tracker := DevAgent.courseTracker fleet.py
  contract := DevAgent.contract fleet.py
  shown := DevAgent.Course.shown
  decision := DevAgent.Course.decision
  asked := DevAgent.Course.asked

/-- The invoice agent asks before it makes a draft entry. -/
def invoiceAsker (fleet : Fleet) : Asker InvoiceAgent.Node InvoiceAgent.Course where
  agentName := InvoiceAgent.agentName
  tool := erpCreateDraftEntry
  names := InvoiceAgent.nodeNames
  graph actor := InvoiceAgent.graph fleet.py fleet.exceedsTolerance actor none []
  tools := InvoiceAgent.nodeTools
  model := InvoiceAgent.callsModel
  tracker := InvoiceAgent.courseTracker fleet.py
  contract := InvoiceAgent.contract fleet.py fleet.exceedsTolerance []
  shown := InvoiceAgent.Course.shown
  decision := InvoiceAgent.Course.decision
  asked := InvoiceAgent.Course.asked

section Askers

variable (fleet : Fleet)

/-- The dev agent keeps its promises. -/
theorem devAsker_keeps : (devAsker fleet).Keeps fleet where
  met runId := DevAgent.graph_met fleet.py _ none
  body runId := DevAgent.only_body fleet.py _ none
  records := DevAgent.courseTracker_records fleet.py
  external := rfl
  apart := by simp [devAsker, DevAgent.agentName, recipeAgentName]
  fresh := ⟨rfl, rfl⟩
  noted r event := by
    obtain ⟨c, reply⟩ := event
    cases c with
    | tool caller tool args =>
      by_cases hopen : tool = githubOpenPr
      · cases reply <;>
          simp [devAsker, callsTool, DevAgent.courseTracker, DevAgent.Course.note, hopen, jiraGetIssue, githubCreateBranch,
            githubOpenPr]
      · cases reply <;>
          simp only [devAsker, callsTool, DevAgent.courseTracker, DevAgent.Course.note, hopen, decide_false, Bool.or_false,
            if_false]
        all_goals
          repeat' split
          all_goals rfl
    | llm caller method messages kwargs => cases reply <;> exact (Bool.or_false _).symm
    | _ => exact (Bool.or_false _).symm
  showing _ _ := rfl
  deciding r given := (DevAgent.decided_work r given).2.2.2.1
  shows r payload h := by
    obtain ⟨plan, branch, -, rfl⟩ := h
    exact ⟨rfl, DevAgent.prArgs plan branch, rfl⟩
  allows r caller args h := by
    obtain ⟨plan, branch, -, rfl, ⟨decision, hshown, hdecision, happroval⟩, hasked⟩ := h.2.2.1 rfl
    exact ⟨hasked, _, decision, hshown, rfl, hdecision, happroval⟩
  started filing hname := by
    cases filing with
    | devAgent ticketKey => exact ⟨usualOutcomes fleet, _, fun _ _ => trivial, rfl⟩
    | _ => exact absurd hname (by simp only [devAsker, Filing.agentName]; decide)
  resumed runId approved resumer hresumer := by
    rcases resumer_cases fleet runId approved hresumer with ⟨-, rfl⟩ | ⟨hname, -⟩ | ⟨hname, -⟩ | ⟨hname, -⟩ | ⟨hname, -⟩
    · rfl
    all_goals exact absurd hname (by simp only [devAsker]; decide)

/-- The invoice agent keeps its promises. -/
theorem invoiceAsker_keeps : (invoiceAsker fleet).Keeps fleet where
  met runId := InvoiceAgent.graph_met fleet.py fleet.exceedsTolerance [] _ none
  body runId := InvoiceAgent.only_body fleet.py fleet.exceedsTolerance _ none []
  records := InvoiceAgent.courseTracker_records fleet.py
  external := rfl
  apart := by simp [invoiceAsker, InvoiceAgent.agentName, recipeAgentName]
  fresh := ⟨rfl, rfl⟩
  noted r event := by
    obtain ⟨c, reply⟩ := event
    cases c with
    | tool caller tool args =>
      by_cases henter : tool = erpCreateDraftEntry
      · simp [invoiceAsker, callsTool, InvoiceAgent.courseTracker, InvoiceAgent.Course.note, henter]
      · simp only [invoiceAsker, callsTool, InvoiceAgent.courseTracker, InvoiceAgent.Course.note, henter, decide_false,
          Bool.or_false, if_false]
        split <;> rfl
    | llm caller method messages kwargs => cases reply <;> exact (Bool.or_false _).symm
    | _ => exact (Bool.or_false _).symm
  showing _ _ := rfl
  deciding r given := (InvoiceAgent.decided_work r given).2.2
  shows r payload h := by
    obtain ⟨fields, validation, rfl, -⟩ := h
    exact ⟨rfl, fields.asDict, rfl⟩
  allows r caller args h := by
    obtain ⟨fields, validation, rfl, -, ⟨decision, hshown, hdecision, happroval⟩, hasked⟩ := h rfl
    exact ⟨hasked, _, decision, hshown, rfl, hdecision, happroval⟩
  started filing hname := by
    cases filing with
    | invoiceAgent imageBase64 => exact ⟨usualOutcomes fleet, _, fun _ _ => trivial, rfl⟩
    | _ => exact absurd hname (by simp only [invoiceAsker, Filing.agentName]; decide)
  resumed runId approved resumer hresumer := by
    rcases resumer_cases fleet runId approved hresumer with ⟨hname, -⟩ | ⟨-, rfl⟩ | ⟨hname, -⟩ | ⟨hname, -⟩ | ⟨hname, -⟩
    · exact absurd hname (by simp only [invoiceAsker]; decide)
    · rfl
    all_goals exact absurd hname (by simp only [invoiceAsker]; decide)

end Askers

/-- Whatever requests come one after another (runs of any agent, e-mails, decisions, chats, pauses and the read-only flag),
whatever the model, the tools and the stores reply, and whichever calls fail: a run of the dev agent opens at most one pull
request and a run of the invoice agent makes at most one draft entry, only after exactly these arguments were filed as an
approval of the run, and after that approval was approved. -/
theorem served_writes_approved (fleet : Fleet) (env : Env) (agents : Table AgentRow AgentRow.id) (requests : List Request)
    (runId : String) :
    (devAsker fleet).WroteAsApproved runId (serveAll fleet env (World.withAgents agents, []) requests).2 ∧
      (invoiceAsker fleet).WroteAsApproved runId (serveAll fleet env (World.withAgents agents, []) requests).2 := by
  constructor
  · exact (Asker.kept_serveAll (devAsker_keeps fleet) requests ((devAsker fleet).kept_withAgents agents)).wrote runId (by simp)
  · exact (Asker.kept_serveAll (invoiceAsker_keeps fleet) requests ((invoiceAsker fleet).kept_withAgents agents)).wrote runId
      (by simp)

end FleetWorkflow.Approvals
