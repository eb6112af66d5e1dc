import FleetWorkflow.Agents.DevAgent
import FleetWorkflow.Agents.Sessions

/-!
# Changes of the dev agent

Sessions of the dev agent on one thread. Whatever the tickets and the replies of the model are, whatever is decided in
which order, and whichever calls fail: a branch is created and written to only for a labelled ticket and a plan that
passed the guardrails, a pull request is the one that was shown and approved, and a notice follows a pull request.
-/

namespace FleetWorkflow.Agents.DevAgent

open Python Async Core Flow

/-- What is known of a run: the ticket that it fetched, the plan that it was given, the branch that it created, whether it
asked for a pull request and which one it got, the interrupt that it showed and the decision on it. -/
structure Course where
  ticket : Option Json
  plan : Option DevAgentPlan
  branch : Option Json
  asked : Bool
  opened : Option Json
  shown : Option Json
  decision : Option Json

section Courses

variable (py : Builtins)

/-- What a call makes of a course. -/
def Course.note (course : Course) : CallEvent → Course
  | ⟨.tool _ tool args, .ok value⟩ =>
    if tool = jiraGetIssue then { course with ticket := some value }
    else if tool = githubCreateBranch then { course with branch := Json.get? args "branch_name" }
    else if tool = githubOpenPr then { course with asked := true, opened := some value }
    else course
  | ⟨.tool _ tool _, .error _⟩ => if tool = githubOpenPr then { course with asked := true } else course
  | ⟨.llm _ _ _ _, .ok response⟩ => { course with plan := (parsePlan py response.content).toOption }
  | _ => course

/-- A decision is on an interrupt that waits for one. -/
def courseTracker : Tracker Course where
  fresh := ⟨none, none, none, false, none, none, none⟩
  note := Course.note py
  shown course payload := { course with shown := some payload, decision := none }
  decided course decision :=
    if course.shown.isSome && course.decision.isNone then { course with decision := some decision } else course

/-- The arguments of the pull request of a plan and its branch. -/
def prArgs (plan : DevAgentPlan) (branch : String) : Dict :=
  [("branch_name", .str branch), ("title", .str plan.prTitle), ("body", .str plan.prBody)]

/-- The run fetched a labelled ticket. -/
structure Labelled (course : Course) (ticket : Json) : Prop where
  fetched : course.ticket = some ticket
  labelled : assertTicketLabeled py ticket = .ok ()

/-- The run was given a plan that passed the guardrails. -/
structure Guarded (course : Course) (plan : DevAgentPlan) : Prop where
  labelled : ∃ ticket, Labelled py course ticket
  planned : course.plan = some plan
  paths : assertNoProtectedPaths py plan.targetPaths = .ok ()
  size : assertDiffSizeOk plan.diffLineEstimate = .ok ()

/-- The run created the branch of such a plan. -/
structure Branched (course : Course) (plan : DevAgentPlan) (branch : String) : Prop where
  guarded : Guarded py course plan
  created : course.branch = some (.str branch)
  named : ∃ token : String, branch = "agent/" ++ plan.branchSuffix ++ "-" ++ token

/-- The interrupt of a pull request was shown and approved. -/
def ApprovedPr (course : Course) (args : Dict) : Prop :=
  ∃ decision, course.shown = some (openPrPayload args) ∧ course.decision = some decision ∧ isApproval decision

/-- A branch may be created for a plan, from the base. -/
def MayBranch (course : Course) (args : Dict) : Prop :=
  ∃ (plan : DevAgentPlan) (token : String), Guarded py course plan ∧
    args = [("branch_name", .str ("agent/" ++ plan.branchSuffix ++ "-" ++ token)), ("from_ref", .str baseRef)]

/-- The draft note may be committed, to the branch that the run created. -/
def MayCommit (course : Course) (args : Dict) : Prop :=
  ∃ plan branch content message, Branched py course plan branch ∧
    args = [("branch_name", .str branch), ("path", .str "AGENT_DRAFT_NOTES.md"), ("content", .str content),
      ("message", .str message)]

/-- A pull request may be opened: of the plan and its branch, shown and approved, and the first that the run asks for. -/
def MayOpen (course : Course) (args : Dict) : Prop :=
  ∃ plan branch, Branched py course plan branch ∧ args = prArgs plan branch ∧ ApprovedPr course args ∧ course.asked = false

/-- A notice may be posted to the channel, after the approved pull request. -/
def MayNotify (course : Course) (args : Dict) : Prop :=
  ∃ plan branch text, Branched py course plan branch ∧ ApprovedPr course (prArgs plan branch) ∧ course.opened.isSome ∧
    args = [("channel", .str slackChannel), ("text", .str text)]

/-! ## What each node relies on -/

/-- The state holds the ticket that was fetched. -/
def HasTicket (values : Dict) (course : Course) (ticket : Json) : Prop :=
  Json.get? values "ticket" = some ticket ∧ course.ticket = some ticket

/-- The state holds the plan and the branch. -/
structure HasBranch (values : Dict) (course : Course) (plan : DevAgentPlan) (branch : String) : Prop where
  planned : Json.get? values "plan" = some plan.asDict
  named : Json.get? values "branch_name" = some (.str branch)
  branched : Branched py course plan branch

/-- A blocked node gives a reason. -/
def Blocked (outcome : NodeOutcome) : Prop :=
  ∃ reason : String, reason ≠ "" ∧ outcome = .wrote [("blocked_reason", .str reason)]

/-- What each node relies on. -/
def relies (resume : Option Json) (node : Node) (values : Dict) (course : Course) : Prop :=
  match node with
  | .killswitchGate | .fetchTicket => course.asked = false
  | .checkGuardrails => (∃ ticket, HasTicket values course ticket) ∧ course.asked = false
  | .plan => (∃ ticket, Labelled py course ticket) ∧ course.asked = false
  | .createBranch => (∃ plan, Json.get? values "plan" = some plan.asDict ∧ Guarded py course plan) ∧ course.asked = false
  | .hitl => ∃ plan branch, HasBranch py values course plan branch ∧ course.asked = false ∧ ∀ decision,
      resume = some decision → course.shown = some (openPrPayload (prArgs plan branch)) ∧ course.decision = some decision
  | .openPr => ∃ plan branch, HasBranch py values course plan branch ∧ course.asked = false ∧
      ApprovedPr course (prArgs plan branch)
  | .slackNotify => ∃ plan branch, Branched py course plan branch ∧ ApprovedPr course (prArgs plan branch) ∧
      course.opened.isSome
  | .citationEnd => True

/-- What a checkpoint keeps: one at the interrupt that it was shown and is not decided. -/
def keeps (node : Node) (values : Dict) (course : Course) : Prop :=
  match node with
  | .hitl => ∃ plan branch, HasBranch py values course plan branch ∧ course.asked = false ∧
      course.shown = some (openPrPayload (prArgs plan branch)) ∧ course.decision = none
  | node => relies py none node values course

/-- How far a node is from the end. -/
def courseRank : Node → ℕ
  | .killswitchGate => 8
  | .fetchTicket => 7
  | .checkGuardrails => 6
  | .plan => 5
  | .createBranch => 4
  | .hitl => 3
  | .openPr => 2
  | .slackNotify => 1
  | .citationEnd => 0

/-- What the graph promises. -/
def contract : Contract Node Course where
  allowed course c :=
    match c with
    | .tool _ tool args => (tool = githubCreateBranch → MayBranch py course args) ∧
        (tool = githubCommitFile → MayCommit py course args) ∧ (tool = githubOpenPr → MayOpen py course args) ∧
          (tool = slackPost → MayNotify py course args)
    | _ => True
  shows course payload := ∃ plan branch, Branched py course plan branch ∧ payload = openPrPayload (prArgs plan branch)
  asks node := node = .hitl
  relies := relies py
  keeps := keeps py
  rank := courseRank

/-- Each change that a history makes is one that its run may make, and a pull request was shown and approved. -/
def ChangesAsApproved (history : List Deed) : Prop :=
  ∀ earlier later caller tool args reply, history = earlier ++ .called ⟨.tool caller tool args, reply⟩ :: later →
    (tool = githubCreateBranch → MayBranch py (tracked (courseTracker py) earlier).live args) ∧
    (tool = githubCommitFile → MayCommit py (tracked (courseTracker py) earlier).live args) ∧
    (tool = githubOpenPr → MayOpen py (tracked (courseTracker py) earlier).live args ∧
      ApprovedWhenShown earlier (openPrPayload args)) ∧
    (tool = slackPost → MayNotify py (tracked (courseTracker py) earlier).live args)

end Courses

/-! ## Nodes -/

section Nodes

variable {py : Builtins} {actor : Actor} {killswitch : Option KillSwitch} {values : Dict} {course : Course}
  {resume : Option Json} {plan : DevAgentPlan} {branch : String}

/-- Quiet calls are allowed. -/
theorem allowed_quiet (course' : Course) (c : Call) (hc : Quiet c) : (contract py).allowed course' c := by
  cases c <;> trivial

/-- Calls to other tools are allowed. -/
theorem allowed_read (caller : Actor) {tool : ToolSpec} (args : Dict)
    (htool : tool ∉ [githubCreateBranch, githubCommitFile, githubOpenPr, slackPost]) :
    (contract py).allowed course (.tool caller tool args) := by
  refine ⟨?_, ?_, ?_, ?_⟩
  all_goals
    rintro rfl
    exact absurd (by decide) htool

/-- Quiet calls make nothing known. -/
theorem note_quiet (course' : Course) (c : Call) (reply : Except Exc (Reply c)) (hc : Quiet c) :
    (courseTracker py).note course' ⟨c, reply⟩ = course' := by
  cases c <;> first | rfl | exact hc.elim

/-- The ticket of a run stays labelled. -/
theorem Labelled.congr {course' : Course} {ticket : Json} (h : Labelled py course ticket)
    (hticket : course'.ticket = course.ticket) : Labelled py course' ticket :=
  ⟨hticket.trans h.fetched, h.labelled⟩

/-- The plan of a run stays guarded. -/
theorem Guarded.congr {course' : Course} (h : Guarded py course plan) (hticket : course'.ticket = course.ticket)
    (hplan : course'.plan = course.plan) : Guarded py course' plan := by
  obtain ⟨ticket, hlabelled⟩ := h.labelled
  exact ⟨⟨ticket, hlabelled.congr hticket⟩, hplan.trans h.planned, h.paths, h.size⟩

/-- The branch of a run stays its branch. -/
theorem Branched.congr {course' : Course} (h : Branched py course plan branch) (hticket : course'.ticket = course.ticket)
    (hplan : course'.plan = course.plan) (hbranch : course'.branch = course.branch) :
    Branched py course' plan branch :=
  ⟨h.guarded.congr hticket hplan, hbranch.trans h.created, h.named⟩

/-- The arguments of the pull request are those of the plan and its branch. -/
theorem openPrArgs_of_hasBranch (h : HasBranch py values course plan branch) :
    openPrArgs values = .ok (prArgs plan branch) := by
  rw [openPrArgs, Json.field, h.named, Json.field, h.planned]
  rfl

/-- The fetch brings the ticket of the run. -/
theorem ensures_fetchTicket : (runProtocol (courseTracker py) (contract py)).Ensures
    (fun result course' => ∀ outcome, result = .ok outcome → ∃ ticket, outcome = .wrote [("ticket", ticket)] ∧
      course' = { course with ticket := some ticket }) (fetchTicket actor values) course := by
  apply Protocol.ensures_ofExcept_bind
  · exact fun error _ outcome houtcome => by cases houtcome
  · intro key _
    apply Protocol.ensures_call_bind
    · exact allowed_read actor _ (by decide)
    · intro reply course' hcourse
      cases reply with
      | error error => exact fun outcome houtcome => by cases houtcome
      | ok ticket =>
        intro outcome houtcome
        exact ⟨ticket, (Except.ok.inj houtcome).symm, hcourse⟩

/-- A text with more before it. -/
theorem append_ne_empty {text : String} (h : text ≠ "") (rest : String) : text ++ rest ≠ "" := by
  intro hempty
  apply h
  rw [← String.toList_inj] at hempty ⊢
  rw [String.toList_append] at hempty
  exact (List.append_eq_nil_iff.mp hempty).1

/-- A ticket that lacks the label is reported with a text. -/
theorem message_of_unlabeled {ticket : Json} {error : Exc} (h : assertTicketLabeled py ticket = .error error)
    (hkind : error.kind = .ticketNotLabeled) : error.message ≠ "" := by
  cases ticket with
  | obj fields =>
    cases hcontains : ((Json.get? fields "labels").getD (.arr [])).contains "agent-ok" with
    | error failure =>
      have hfailure : failure = error := by
        simpa [assertTicketLabeled, Json.getOr, bind, Except.bind, hcontains] using h
      rw [← hfailure] at hkind
      cases hlabels : (Json.get? fields "labels").getD (.arr []) with
      | null | bool | int | float =>
        rw [hlabels] at hcontains
        cases hcontains
        cases hkind
      | _ =>
        rw [hlabels] at hcontains
        cases hcontains
    | ok present =>
      cases present with
      | true => simp [assertTicketLabeled, Json.getOr, bind, Except.bind, hcontains, pure, Except.pure] at h
      | false =>
        have herror : (⟨.ticketNotLabeled, "ticket " ++ py.repr ((Json.get? fields "key").getD (.str "?")) ++
            " is missing the required 'agent-ok' label"⟩ : Exc) = error := by
          simpa [assertTicketLabeled, Json.getOr, bind, Except.bind, hcontains] using h
        rw [← herror]
        exact append_ne_empty (append_ne_empty (by decide) _) _
  | _ =>
    cases h
    cases hkind

/-- A protected path is reported with a text. -/
theorem message_of_protected {paths : List String} {error : Exc} (h : assertNoProtectedPaths py paths = .error error) :
    error.message ≠ "" := by
  rw [assertNoProtectedPaths] at h
  split at h
  · rw [← Except.error.inj h]
    exact append_ne_empty (by decide) _
  · cases h

/-- A diff that is too large is reported with a text. -/
theorem message_of_tooLarge {lineCount : ℤ} {error : Exc} (h : assertDiffSizeOk lineCount = .error error) :
    error.message ≠ "" := by
  rw [assertDiffSizeOk] at h
  split at h
  · rw [← Except.error.inj h]
    exact append_ne_empty (append_ne_empty (append_ne_empty (append_ne_empty (by decide) _) _) _) _
  · cases h

/-- A guardrail blocks on its own exceptions, and lets others through. -/
theorem ensures_handle_blockedBy {check : Coroutine NodeOutcome} {kinds : List ExcKind} {describe : String → String}
    {post : Except Exc NodeOutcome → Course → Prop}
    (h : (runProtocol (courseTracker py) (contract py)).Ensures (fun result course' => post result course' ∧
      ∀ error, result = .error error → error.kind ∈ kinds →
        post (.ok (.wrote [("blocked_reason", .str (describe error.message))])) course') check course) :
    (runProtocol (courseTracker py) (contract py)).Ensures post (check.handle (blockedBy kinds describe)) course := by
  apply Protocol.ensures_handle.mpr
  apply h.mono
  intro result course' hresult
  cases result with
  | ok outcome => exact hresult.1
  | error error =>
    simp only [blockedBy]
    by_cases hkind : error.kind ∈ kinds
    · rw [if_pos hkind]
      exact hresult.2 error rfl hkind
    · rw [if_neg hkind]
      exact hresult.1

/-- The guardrail lets labelled tickets pass, and gives a reason for others. -/
theorem ensures_checkGuardrails {ticket : Json} (h : HasTicket values course ticket) :
    (runProtocol (courseTracker py) (contract py)).Ensures (fun result course' => course' = course ∧ ∀ outcome,
      result = .ok outcome → (outcome = .wrote [] ∧ assertTicketLabeled py ticket = .ok ()) ∨ Blocked outcome)
      (checkGuardrails py values) course := by
  have hfield : Json.field values "ticket" = .ok ticket := by rw [Json.field, h.1]
  rw [checkGuardrails, hfield]
  simp only [Prog.ofExcept_ok, Prog.done_bind]
  apply ensures_handle_blockedBy
  apply Protocol.ensures_ofExcept_bind
  · intro error herror
    refine ⟨⟨rfl, fun outcome houtcome => by cases houtcome⟩, ?_⟩
    intro raised hraised hkind
    obtain rfl := Except.error.inj hraised
    refine ⟨rfl, fun outcome houtcome => .inr ⟨error.message, ?_, (Except.ok.inj houtcome).symm⟩⟩
    exact message_of_unlabeled herror (List.mem_singleton.mp hkind)
  · intro _ hlabelled
    refine ⟨⟨rfl, fun outcome houtcome => .inl ⟨(Except.ok.inj houtcome).symm, hlabelled⟩⟩, ?_⟩
    intro raised hraised
    cases hraised

/-- The plan that is made is the one that the run is given. -/
theorem ensures_ticketPlan (ticket : Json) : (runProtocol (courseTracker py) (contract py)).Ensures
    (fun result course' => (∃ known, course' = { course with plan := known }) ∧
      ∀ planned, result = .ok planned → course'.plan = some planned) (planTicket py actor ticket) course := by
  have hsame : ∃ known, course = { course with plan := known } := ⟨course.plan, rfl⟩
  apply Protocol.ensures_ofExcept_bind
  · exact fun error _ => ⟨hsame, fun planned hplanned => by cases hplanned⟩
  · intro key _
    apply Protocol.ensures_ofExcept_bind
    · exact fun error _ => ⟨hsame, fun planned hplanned => by cases hplanned⟩
    · intro summary _
      apply Protocol.ensures_call_bind trivial
      intro reply course' hcourse
      cases reply with
      | error error =>
        rw [hcourse]
        exact ⟨hsame, fun planned hplanned => by cases hplanned⟩
      | ok response =>
        apply Protocol.ensures_ofExcept.mpr
        rw [hcourse]
        refine ⟨⟨_, rfl⟩, ?_⟩
        intro planned hplanned
        show (parsePlan py response.content).toOption = some planned
        rw [hplanned]
        rfl

/-- A plan that goes on passed the guardrails; for others there is a reason. -/
theorem ensures_planNode (hlabelled : ∃ ticket, Labelled py course ticket) :
    (runProtocol (courseTracker py) (contract py)).Ensures (fun result course' => course'.asked = course.asked ∧
      ∀ outcome, result = .ok outcome → (∃ planned, outcome = .wrote [("plan", DevAgentPlan.asDict planned)] ∧
        Guarded py course' planned) ∨ Blocked outcome) (DevAgent.plan py actor values) course := by
  apply Protocol.ensures_ofExcept_bind
  · exact fun error _ => ⟨rfl, fun outcome houtcome => by cases houtcome⟩
  · intro ticket _
    apply Protocol.ensures_bind.mpr
    apply Protocol.ensures_attempt.mpr
    apply (ensures_ticketPlan ticket).mono
    intro result course' hresult
    obtain ⟨⟨known, rfl⟩, hplan⟩ := hresult
    match result with
    | .error error =>
      simp only [Protocol.after, blockedBy]
      by_cases hkind : error.kind ∈ [ExcKind.parseError]
      · rw [if_pos hkind]
        refine ⟨rfl, fun outcome houtcome => .inr ⟨_, ?_, (Except.ok.inj houtcome).symm⟩⟩
        exact append_ne_empty (by decide) _
      · rw [if_neg hkind]
        exact ⟨rfl, fun outcome houtcome => by cases houtcome⟩
    | .ok planned =>
      have hblocked {error : Exc} (herror : error.message ≠ "") (raised : Exc)
          (hraised : (Except.error error : Except Exc NodeOutcome) = .error raised) :
          Blocked (.wrote [("blocked_reason", .str (id raised.message))]) := by
        obtain rfl := Except.error.inj hraised
        exact ⟨_, herror, rfl⟩
      apply ensures_handle_blockedBy
      apply Protocol.ensures_ofExcept_bind
      · intro error herror
        refine ⟨⟨rfl, fun outcome houtcome => by cases houtcome⟩, fun raised hraised _ => ⟨rfl, ?_⟩⟩
        intro outcome houtcome
        exact .inr (Except.ok.inj houtcome ▸ hblocked (message_of_protected herror) raised hraised)
      · intro _ hpaths
        apply Protocol.ensures_ofExcept_bind
        · intro error herror
          refine ⟨⟨rfl, fun outcome houtcome => by cases houtcome⟩, fun raised hraised _ => ⟨rfl, ?_⟩⟩
          intro outcome houtcome
          exact .inr (Except.ok.inj houtcome ▸ hblocked (message_of_tooLarge herror) raised hraised)
        · intro _ hsize
          obtain ⟨ticket, hticket⟩ := hlabelled
          have hguarded : Guarded py { course with plan := known } planned :=
            ⟨⟨ticket, hticket.congr rfl⟩, hplan planned rfl, hpaths, hsize⟩
          refine ⟨⟨rfl, fun outcome houtcome => .inl ⟨planned, (Except.ok.inj houtcome).symm, hguarded⟩⟩, ?_⟩
          intro raised hraised
          cases hraised

/-- A reason that was written blocks. -/
theorem flag_blocked {reason : String} (h : reason ≠ "") :
    Json.flag (Json.merge values [("blocked_reason", .str reason)]) "blocked_reason" = true := by
  rw [Json.merge_cons, Json.merge_nil, Json.flag_insert_self, Json.truthy]
  simpa using h

/-- A branch is created for the plan, and its first commit is written to it. -/
theorem ensures_createBranch (hplanned : Json.get? values "plan" = some plan.asDict) (h : Guarded py course plan)
    (hasked : course.asked = false) : (runProtocol (courseTracker py) (contract py)).Ensures
      (fun result course' => ∀ outcome, result = .ok outcome → ∃ branch : String,
        outcome = .wrote [("branch_name", .str branch)] ∧ Branched py course' plan branch ∧ course'.asked = false)
      (createBranch py actor values) course := by
  apply Protocol.ensures_call_bind trivial
  intro token course₁ hcourse
  obtain rfl : course₁ = course := hcourse
  cases token with
  | error error => exact fun outcome houtcome => by cases houtcome
  | ok token =>
    have hfield : Json.field values "plan" = .ok plan.asDict := by rw [Json.field, hplanned]
    have hsuffix : plan.asDict.item "branch_suffix" = .ok (.str plan.branchSuffix) := rfl
    simp only [Protocol.after, hfield, hsuffix, Prog.ofExcept, Prog.done_bind]
    show Protocol.Ensures _ _ (createBranchTool py actor ("agent/" ++ plan.branchSuffix ++ "-" ++ token) baseRef >>= _) _
    rw [createBranchTool]
    split
    · apply Protocol.ensures_call_bind
      · refine ⟨fun _ => ⟨plan, token, h, rfl⟩, ?_, ?_, ?_⟩
        all_goals exact fun hother => absurd hother (by decide)
      · intro created course₂ hcreated
        cases created with
        | error error => exact fun outcome houtcome => by cases houtcome
        | ok created =>
          obtain rfl : course₂ = { course₁ with branch := some (.str ("agent/" ++ plan.branchSuffix ++ "-" ++ token)) } :=
            hcreated
          have hbranched : Branched py { course₁ with branch := some (.str ("agent/" ++ plan.branchSuffix ++ "-" ++ token)) }
              plan ("agent/" ++ plan.branchSuffix ++ "-" ++ token) := ⟨h.congr rfl rfl, rfl, token, rfl⟩
          apply Protocol.ensures_ofExcept_bind
          · exact fun error _ outcome houtcome => by cases houtcome
          · intro note _
            apply Protocol.ensures_ofExcept_bind
            · exact fun error _ outcome houtcome => by cases houtcome
            · intro key _
              rw [commitFileTool]
              split
              · apply Protocol.ensures_call_bind
                · refine ⟨?_, fun _ => ⟨plan, _, note, _, hbranched, rfl⟩, ?_, ?_⟩
                  all_goals exact fun hother => absurd hother (by decide)
                · intro committed course₃ hcommitted
                  cases committed with
                  | error error => exact fun outcome houtcome => by cases houtcome
                  | ok committed =>
                    obtain rfl : course₃ = _ := hcommitted
                    exact fun outcome houtcome => ⟨_, (Except.ok.inj houtcome).symm, hbranched, hasked⟩
              · exact fun outcome houtcome => by cases houtcome
    · exact fun outcome houtcome => by cases houtcome

/-- The interrupt shows the pull request; a decision on it is taken as it is. -/
theorem hitl_eq (h : HasBranch py values course plan branch) :
    hitl py resume values = interrupt (openPrPayload (prArgs plan branch)) resume rejectUnlessApproved := by
  rw [hitl, assertRequiresApproval_external py rfl, openPrArgs_of_hasBranch h]
  rfl

/-- A resumed interrupt goes on to the pull request only with an approval. -/
theorem ensures_hitl {decision : Json} (h : relies py (some decision) .hitl values course) :
    (runProtocol (courseTracker py) (contract py)).Ensures ((contract py).Leaves (graph py actor killswitch) .hitl values)
      (hitl py (some decision) values) course := by
  obtain ⟨plan, branch, hbranch, hasked, hdecided⟩ := h
  obtain ⟨hshown, hdecision⟩ := hdecided decision rfl
  rw [hitl_eq hbranch, interrupt]
  apply Protocol.ensures_ofExcept_bind
  · exact fun error _ => trivial
  · intro writes hwrites next hroute
    have hnext : (if Json.flag (Json.merge values writes) "rejected" then Node.citationEnd else .openPr) = next :=
      Option.some.inj (Except.ok.inj hroute)
    rw [← hnext]
    rcases rejectUnlessApproved_inv hwrites with rfl | ⟨rfl, happroval⟩
    · rw [Json.merge_cons, Json.merge_nil, Json.flag_insert_self]
      exact ⟨trivial, .inr trivial⟩
    · rw [Json.merge_nil]
      split
      · exact ⟨trivial, .inr trivial⟩
      · have hopen : relies py none .openPr values course :=
          ⟨plan, branch, hbranch, hasked, decision, hshown, hdecision, happroval⟩
        exact ⟨hopen, .inr hopen⟩

/-- The pull request is the one that was shown and approved. -/
theorem ensures_openPr (h : relies py none .openPr values course) :
    (runProtocol (courseTracker py) (contract py)).Ensures (fun result course' => ∀ outcome, result = .ok outcome →
      ∃ writes, outcome = .wrote writes ∧ relies py none .slackNotify (Json.merge values writes) course')
      (openPr actor values) course := by
  obtain ⟨plan, branch, hbranch, hasked, decision, hshown, hdecision, happroval⟩ := h
  rw [openPr, openPrArgs_of_hasBranch hbranch]
  apply Protocol.ensures_call_bind
  · refine ⟨?_, ?_, fun _ => ⟨plan, branch, hbranch.branched, rfl, ⟨decision, hshown, hdecision, happroval⟩, hasked⟩, ?_⟩
    all_goals exact fun hother => absurd hother (by decide)
  · intro reply course' hcourse
    cases reply with
    | error error => exact fun outcome houtcome => by cases houtcome
    | ok result =>
      obtain rfl : course' = { course with asked := true, opened := some result } := hcourse
      intro outcome houtcome
      exact ⟨_, (Except.ok.inj houtcome).symm, plan, branch, hbranch.branched.congr rfl rfl rfl,
        ⟨decision, hshown, hdecision, happroval⟩, rfl⟩

/-- The notice follows the pull request. -/
theorem ensures_slackNotify (h : relies py none .slackNotify values course) :
    (runProtocol (courseTracker py) (contract py)).Ensures
      (fun result _ => ∀ outcome, result = .ok outcome → ∃ writes, outcome = .wrote writes)
      (slackNotify py actor values) course := by
  obtain ⟨plan, branch, hbranched, happroved, hopened⟩ := h
  apply Protocol.ensures_ofExcept_bind
  · exact fun error _ outcome houtcome => by cases houtcome
  · intro prUrl _
    apply Protocol.ensures_ofExcept_bind
    · exact fun error _ outcome houtcome => by cases houtcome
    · intro title _
      apply Protocol.ensures_ofExcept_bind
      · exact fun error _ outcome houtcome => by cases houtcome
      · intro key _
        apply Protocol.ensures_bind.mpr
        rw [slackPostTool, if_pos (List.mem_singleton.mpr rfl)]
        apply Protocol.ensures_attempt.mpr
        apply Protocol.ensures_call.mpr
        constructor
        · refine ⟨?_, ?_, ?_, fun _ => ⟨plan, branch, _, hbranched, happroved, hopened, rfl⟩⟩
          all_goals exact fun hother => absurd hother (by decide)
        · intro reply course' _
          cases reply with
          | ok posted => exact fun outcome houtcome => ⟨_, (Except.ok.inj houtcome).symm⟩
          | error error => exact fun outcome houtcome => ⟨_, (Except.ok.inj houtcome).symm⟩

/-- Every node leaves what the next one relies on. -/
theorem ensures_courseNode (node : Node) (hacts : (contract py).asks node = true → resume ≠ none)
    (h : relies py resume node values course) : (runProtocol (courseTracker py) (contract py)).Ensures
      ((contract py).Leaves (graph py actor killswitch) node values)
      ((graph py actor killswitch).body node resume values) course := by
  cases node with
  | killswitchGate =>
    apply (ensures_gate allowed_quiet note_quiet killswitch agentName).mono
    intro result course' hresult
    cases result with
    | error error => trivial
    | ok outcome =>
      have hwrote : ∃ writes, outcome = .wrote writes := by
        rcases hresult.2 outcome rfl with hwrote | hwrote
        · exact ⟨_, hwrote⟩
        · exact ⟨_, hwrote⟩
      obtain ⟨writes, rfl⟩ := hwrote
      intro next hroute
      have hnext : (if Json.flag (Json.merge values writes) "paused" then none else some Node.fetchTicket) = some next :=
        Except.ok.inj hroute
      have hasked : course'.asked = false := by
        rw [hresult.1]
        exact h
      split at hnext
      · cases hnext
      · cases hnext
        exact ⟨hasked, .inr hasked⟩
  | fetchTicket =>
    apply ensures_fetchTicket.mono
    intro result course' hresult
    cases result with
    | error error => trivial
    | ok outcome =>
      obtain ⟨ticket, rfl, rfl⟩ := hresult outcome rfl
      intro next hroute
      cases hroute
      have hcheck : relies py none .checkGuardrails (Json.merge values [("ticket", ticket)])
          { course with ticket := some ticket } := by
        refine ⟨⟨ticket, ?_, rfl⟩, h⟩
        rw [Json.merge_cons, Json.merge_nil, Json.get?_insert, if_pos rfl]
      exact ⟨hcheck, .inr hcheck⟩
  | checkGuardrails =>
    obtain ⟨⟨ticket, hticket⟩, hasked⟩ := h
    apply (ensures_checkGuardrails hticket).mono
    intro result course' hresult
    obtain ⟨rfl, hresult⟩ := hresult
    cases result with
    | error error => trivial
    | ok outcome =>
      rcases hresult outcome rfl with ⟨rfl, hlabelled⟩ | ⟨reason, hreason, rfl⟩
      · intro next hroute
        have hnext : (if Json.flag values "blocked_reason" then Node.citationEnd else .plan) = next :=
          Option.some.inj (Except.ok.inj hroute)
        rw [← hnext]
        split
        · exact ⟨trivial, .inr trivial⟩
        · have hplan : relies py none .plan values course' := ⟨⟨ticket, hticket.2, hlabelled⟩, hasked⟩
          exact ⟨hplan, .inr hplan⟩
      · intro next hroute
        have hnext : (if Json.flag (Json.merge values [("blocked_reason", .str reason)]) "blocked_reason"
            then Node.citationEnd else .plan) = next := Option.some.inj (Except.ok.inj hroute)
        rw [← hnext, flag_blocked hreason, if_pos rfl]
        exact ⟨trivial, .inr trivial⟩
  | plan =>
    obtain ⟨hlabelled, hasked⟩ := h
    apply (ensures_planNode hlabelled).mono
    intro result course' hresult
    cases result with
    | error error => trivial
    | ok outcome =>
      rcases hresult.2 outcome rfl with ⟨planned, rfl, hguarded⟩ | ⟨reason, hreason, rfl⟩
      · intro next hroute
        have hnext : (if Json.flag (Json.merge values [("plan", planned.asDict)]) "blocked_reason" then Node.citationEnd
            else .createBranch) = next := Option.some.inj (Except.ok.inj hroute)
        rw [← hnext]
        split
        · exact ⟨trivial, .inr trivial⟩
        · have hcreate : relies py none .createBranch (Json.merge values [("plan", planned.asDict)]) course' := by
            refine ⟨⟨planned, ?_, hguarded⟩, hresult.1.trans hasked⟩
            rw [Json.merge_cons, Json.merge_nil, Json.get?_insert, if_pos rfl]
          exact ⟨hcreate, .inr hcreate⟩
      · intro next hroute
        have hnext : (if Json.flag (Json.merge values [("blocked_reason", .str reason)]) "blocked_reason"
            then Node.citationEnd else .createBranch) = next := Option.some.inj (Except.ok.inj hroute)
        rw [← hnext, flag_blocked hreason, if_pos rfl]
        exact ⟨trivial, .inr trivial⟩
  | createBranch =>
    obtain ⟨⟨planned, hplan, hguarded⟩, hasked⟩ := h
    apply (ensures_createBranch hplan hguarded hasked).mono
    intro result course' hresult
    cases result with
    | error error => trivial
    | ok outcome =>
      obtain ⟨branch, rfl, hbranched, hasked'⟩ := hresult outcome rfl
      intro next hroute
      cases hroute
      have hkept : Json.get? (Json.merge values [("branch_name", .str branch)]) "plan" = some planned.asDict := by
        rw [Json.merge_cons, Json.merge_nil, Json.get?_insert, if_neg (by decide)]
        exact hplan
      have hnamed : Json.get? (Json.merge values [("branch_name", .str branch)]) "branch_name" = some (.str branch) := by
        rw [Json.merge_cons, Json.merge_nil, Json.get?_insert, if_pos rfl]
      exact ⟨⟨planned, branch, ⟨hkept, hnamed, hbranched⟩, hasked', fun decision hresume => by cases hresume⟩, .inl rfl⟩
  | hitl =>
    cases resume with
    | none => exact absurd rfl (hacts rfl)
    | some decision => exact ensures_hitl h
  | openPr =>
    apply (ensures_openPr h).mono
    intro result course' hresult
    cases result with
    | error error => trivial
    | ok outcome =>
      obtain ⟨writes, rfl, hnotify⟩ := hresult outcome rfl
      intro next hroute
      cases hroute
      exact ⟨hnotify, .inr hnotify⟩
  | slackNotify =>
    apply (ensures_slackNotify h).mono
    intro result course' hresult
    cases result with
    | error error => trivial
    | ok outcome =>
      obtain ⟨writes, rfl⟩ := hresult outcome rfl
      intro next hroute
      cases hroute
      exact ⟨trivial, .inr trivial⟩
  | citationEnd =>
    intro next hroute
    cases hroute

end Nodes

/-- The course of a run includes the last interrupt and the first decision on it. -/
theorem courseTracker_records (py : Builtins) : (courseTracker py).Records Course.shown Course.decision where
  fresh := rfl
  note course event := by
    obtain ⟨c, reply⟩ := event
    cases c with
    | tool caller tool args =>
      cases reply <;> simp only [courseTracker, Course.note] <;> (repeat' split) <;> exact ⟨rfl, rfl⟩
    | llm caller method messages kwargs => cases reply <;> exact ⟨rfl, rfl⟩
    | _ => exact ⟨rfl, rfl⟩
  showing _ _ := ⟨rfl, rfl⟩
  deciding course decision := by
    simp only [courseTracker]
    split <;> exact ⟨rfl, rfl⟩

/-! ## Sessions -/

section Sessions

variable {py : Builtins} {actor : Actor} {killswitch : Option KillSwitch}

/-- A decision says nothing about the work of a run. -/
theorem decided_work (course : Course) (decision : Json) :
    ((courseTracker py).decided course decision).ticket = course.ticket ∧
      ((courseTracker py).decided course decision).plan = course.plan ∧
      ((courseTracker py).decided course decision).branch = course.branch ∧
      ((courseTracker py).decided course decision).asked = course.asked ∧
      ((courseTracker py).decided course decision).opened = course.opened := by
  simp only [courseTracker]
  split <;> exact ⟨rfl, rfl, rfl, rfl, rfl⟩

/-- A decision on a kept checkpoint is the one that its node relies on. -/
theorem relies_decided {node : Node} {values : Dict} {course : Course} (decision : Json) (h : keeps py node values course) :
    relies py (some decision) node values ((courseTracker py).decided course decision) := by
  obtain ⟨hticket, hplan, hbranch, hasked, hopened⟩ := @decided_work py course decision
  have hdecided {args : Dict} (happroved : ApprovedPr course args) :
      (courseTracker py).decided course decision = course := by
    obtain ⟨held, -, hheld, -⟩ := happroved
    simp [courseTracker, hheld]
  cases node with
  | killswitchGate | fetchTicket => exact hasked.trans h
  | checkGuardrails =>
    obtain ⟨⟨ticket, hvalue, hfetched⟩, hopen⟩ := h
    exact ⟨⟨ticket, hvalue, hticket.trans hfetched⟩, hasked.trans hopen⟩
  | plan =>
    obtain ⟨⟨ticket, hlabelled⟩, hopen⟩ := h
    exact ⟨⟨ticket, hlabelled.congr hticket⟩, hasked.trans hopen⟩
  | createBranch =>
    obtain ⟨⟨planned, hvalue, hguarded⟩, hopen⟩ := h
    exact ⟨⟨planned, hvalue, hguarded.congr hticket hplan⟩, hasked.trans hopen⟩
  | hitl =>
    obtain ⟨planned, branch, hvalues, hopen, hshown, hwaits⟩ := h
    refine ⟨planned, branch, ⟨hvalues.planned, hvalues.named, hvalues.branched.congr hticket hplan hbranch⟩,
      hasked.trans hopen, ?_⟩
    intro given hgiven
    rw [← Option.some.inj hgiven]
    simp [courseTracker, hshown, hwaits]
  | openPr =>
    obtain ⟨planned, branch, hvalues, hopen, happroved⟩ := h
    rw [hdecided happroved]
    exact ⟨planned, branch, hvalues, hopen, happroved⟩
  | slackNotify =>
    obtain ⟨planned, branch, hbranched, happroved, hdone⟩ := h
    rw [hdecided happroved]
    exact ⟨planned, branch, hbranched, happroved, hdone⟩
  | citationEnd => trivial

/-- The interrupt of a plan and its branch. -/
theorem asks_interrupt {values : Dict} {course : Course} (h : relies py none .hitl values course) :
    ∃ payload, hitl py none values = .done (.interrupted payload) ∧ (contract py).shows course payload ∧
      keeps py .hitl values ((courseTracker py).shown course payload) := by
  obtain ⟨plan, branch, hbranch, hasked, -⟩ := h
  refine ⟨openPrPayload (prArgs plan branch), ?_, ⟨plan, branch, hbranch.branched, rfl⟩, ?_⟩
  · rw [hitl_eq hbranch]
    rfl
  · exact ⟨plan, branch, ⟨hbranch.planned, hbranch.named, hbranch.branched.congr rfl rfl rfl⟩, hasked, rfl, rfl⟩

variable (py actor killswitch)

/-- The graph meets its contract. -/
theorem graph_met : (contract py).Met (courseTracker py) (graph py actor killswitch) where
  store course c hc := by
    cases c <;> trivial
  inward node resume values := by
    apply (only_body py actor killswitch node resume values).mono
    intro c hc hstore
    cases c <;> first | exact hc | exact hstore
  entry := rfl
  enters _ := ⟨rfl, rfl⟩
  resumes _ _ _ decision h := relies_decided decision h
  asking node values course hasks h := by
    cases node with
    | hitl => exact asks_interrupt h
    | _ => cases hasks
  acting node resume values course hacts h := ensures_courseNode node hacts h
  descends node values next hroute := by
    show courseRank next < courseRank node
    cases node with
    | killswitchGate =>
      have hnext : (if Json.flag values "paused" then none else some Node.fetchTicket) = some next :=
        Except.ok.inj hroute
      split at hnext <;> cases hnext
      decide
    | fetchTicket | createBranch | openPr | slackNotify =>
      cases hroute
      decide
    | checkGuardrails | plan | hitl =>
      rw [← Option.some.inj (Except.ok.inj hroute)]
      split <;> decide
    | citationEnd => cases hroute
  bounded node := by
    show courseRank node < recursionLimit
    cases node <;> decide

end Sessions

end FleetWorkflow.Agents.DevAgent
