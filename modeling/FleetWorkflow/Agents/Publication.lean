import FleetWorkflow.Agents.NumberGrounding
import FleetWorkflow.Agents.Tools
import FleetWorkflow.Agents.Sessions

/-!
# Publication of insights

Sessions of the insights publisher on one thread, with the numeric check. Whatever the model drafts, whatever the rows
are, whatever is decided in which order, and whichever calls fail: an interrupt shows a draft whose numbers match the
rows that its run fetched, and what is published is the draft of the interrupt that was shown, after its approval.
-/

namespace FleetWorkflow.Agents.InsightsPublisher

open Python Async Core Flow

/-- `Draft`. -/
structure Draft where
  report : String
  social : String

/-- The draft as the state holds it. -/
def Draft.json (draft : Draft) : Json := .obj [("report", .str draft.report), ("social", .str draft.social)]

/-- Every number of the draft matches a value of the rows. -/
def Draft.Matches (draft : Draft) (rows : Json) : Prop := NumbersMatch (draft.report ++ "\n" ++ draft.social) rows

/-- What is known of a run: the data rows that it fetched, the interrupt that it showed and the decision on it. -/
structure Course where
  rows : Option Json
  shown : Option Json
  decision : Option Json

/-- Rows come with the query, and a decision is on an interrupt that waits for one. -/
def courseTracker : Tracker Course where
  fresh := ⟨none, none, none⟩
  note course event :=
    match event with
    | ⟨.tool _ tool _, .ok rows⟩ => if tool = pgRoQuery then { course with rows := some rows } else course
    | _ => course
  shown course payload := { course with shown := some payload, decision := none }
  decided course decision :=
    if course.shown.isSome && course.decision.isNone then { course with decision := some decision } else course

/-- A publication may be made: of the draft that was shown, whose numbers match the rows of the run, and approved. -/
def MayPublish (course : Course) (args : Dict) : Prop :=
  ∃ draft rows decision, course = ⟨some rows, some (publishPayload (Draft.json draft) rows), some decision⟩ ∧
    isApproval decision ∧ args = [("report", .str draft.report), ("social", .str draft.social)] ∧ draft.Matches rows

/-- An interrupt may be shown: of a draft whose numbers match the rows of the run. -/
def MayShow (course : Course) (payload : Json) : Prop :=
  ∃ draft rows, payload = publishPayload (Draft.json draft) rows ∧ course.rows = some rows ∧ draft.Matches rows

/-- The state holds the rows that the run fetched. -/
def HasRows (values : Dict) (course : Course) (rows : Json) : Prop :=
  Json.get? values "data_rows" = some rows ∧ course.rows = some rows

/-- The state holds a draft and the rows. -/
structure HasDraft (values : Dict) (course : Course) (draft : Draft) (rows : Json) : Prop where
  draft : Json.get? values "draft" = some draft.json
  rows : HasRows values course rows

/-- What each node relies on. -/
def relies (resume : Option Json) (node : Node) (values : Dict) (course : Course) : Prop :=
  match node with
  | .retrieveBrand | .draft => ∃ rows, HasRows values course rows
  | .grounding => ∃ draft rows, HasDraft values course draft rows
  | .hitl => ∃ draft rows, HasDraft values course draft rows ∧ draft.Matches rows ∧ ∀ decision, resume = some decision →
      course.shown = some (publishPayload draft.json rows) ∧ course.decision = some decision
  | .publish => ∃ draft rows decision, HasDraft values course draft rows ∧ draft.Matches rows ∧
      course.shown = some (publishPayload draft.json rows) ∧ course.decision = some decision ∧ isApproval decision
  | _ => True

/-- What a checkpoint keeps: one at the interrupt that it was shown and is not decided. -/
def keeps (node : Node) (values : Dict) (course : Course) : Prop :=
  match node with
  | .hitl => ∃ draft rows, HasDraft values course draft rows ∧ draft.Matches rows ∧
      course.shown = some (publishPayload draft.json rows) ∧ course.decision = none
  | node => relies none node values course

/-- What the graph promises. -/
def contract : Contract Node Course where
  allowed course c :=
    match c with
    | .tool _ tool args => tool = cmsPublish → MayPublish course args
    | _ => True
  shows := MayShow
  asks node := node = .hitl
  relies := relies
  keeps := keeps
  rank
    | .killswitchGate => 7
    | .pullData => 6
    | .retrieveBrand => 5
    | .draft => 4
    | .grounding => 3
    | .hitl => 2
    | .publish => 1
    | .finish => 0

/-! ## States -/

section States

variable {values : Dict} {course : Course} {draft : Draft} {rows : Json}

/-- Writes to other keys leave the rows. -/
theorem HasRows.insert (h : HasRows values course rows) (key : String) (value : Json) (hkey : "data_rows" ≠ key) :
    HasRows (Json.insert values key value) course rows := by
  refine ⟨?_, h.2⟩
  rw [Json.get?_insert, if_neg hkey]
  exact h.1

/-- Writes to other keys leave the draft and the rows. -/
theorem HasDraft.insert (h : HasDraft values course draft rows) (key : String) (value : Json)
    (hdraft : "draft" ≠ key) (hrows : "data_rows" ≠ key) : HasDraft (Json.insert values key value) course draft rows := by
  refine ⟨?_, h.rows.insert key value hrows⟩
  rw [Json.get?_insert, if_neg hdraft]
  exact h.draft

end States

/-! ## Nodes -/

section Nodes

variable {py : Builtins} {messages : Json → Json → Except Exc (List Json)} {numeral : Float → PyFloat} {actor : Actor}
  {killswitch : Option KillSwitch} {values : Dict} {course : Course} {resume : Option Json}

/-- Quiet calls are allowed. -/
theorem allowed_quiet (course' : Course) (c : Call) (hc : Quiet c) : contract.allowed course' c := by
  cases c <;> trivial

/-- Quiet calls bring no rows. -/
theorem note_quiet (course' : Course) (c : Call) (reply : Except Exc (Reply c)) (hc : Quiet c) :
    courseTracker.note course' ⟨c, reply⟩ = course' := by
  cases c <;> first | rfl | exact hc.elim

/-- The query brings the rows of the run. -/
theorem ensures_pullData : (runProtocol courseTracker contract).Ensures
    (fun result course' => ∀ outcome, result = .ok outcome →
      ∃ rows, outcome = .wrote [("data_rows", rows)] ∧ course'.rows = some rows) (pullData actor) course := by
  apply Protocol.ensures_call_bind
  · intro htool
    exact absurd htool (by decide)
  · intro reply course' hcourse
    cases reply with
    | error error => exact fun outcome houtcome => by cases houtcome
    | ok rows =>
      intro outcome houtcome
      refine ⟨rows, (Except.ok.inj houtcome).symm, ?_⟩
      rw [hcourse]
      rfl

/-- A draft is written, or the reason why there is none. -/
theorem ensures_draft : (runProtocol courseTracker contract).Ensures
    (fun result course' => course' = course ∧ ∀ outcome, result = .ok outcome →
      (∃ draft : Draft, outcome = .wrote [("draft", draft.json)]) ∨
        ∃ reason : String, reason ≠ "" ∧ outcome = .wrote [("blocked_reason", .str reason)])
    (draft (numericDrafting py messages numeral) actor values) course := by
  apply Protocol.ensures_ofExcept_bind
  · exact fun error _ => ⟨rfl, fun outcome houtcome => by cases houtcome⟩
  · intro dataRows _
    have hreport : (runProtocol courseTracker contract).Ensures (fun _ course' => course' = course)
        (draftReport (numericDrafting py messages numeral) actor dataRows
          ((Json.get? values "brand_voice").getD (.str ""))) course := by
      apply Protocol.ensures_ofExcept_bind
      · exact fun error _ => rfl
      · intro prompt _
        apply Protocol.ensures_call_bind trivial
        intro reply course' hcourse
        cases reply with
        | error error => exact hcourse
        | ok response => exact Protocol.ensures_ofExcept.mpr hcourse
    apply Protocol.ensures_bind.mpr
    apply Protocol.ensures_attempt.mpr
    apply hreport.mono
    intro result course' hcourse
    match result with
    | .ok (report, social) =>
      refine ⟨hcourse, fun outcome houtcome => .inl ⟨⟨report, social⟩, ?_⟩⟩
      exact (Except.ok.inj houtcome).symm
    | .error error =>
      show Protocol.Ensures _ _ (if error.kind = .parseError then _ else _) _
      split
      · refine ⟨hcourse, fun outcome houtcome => .inr ⟨"draft failed: " ++ error.message, ?_, ?_⟩⟩
        · intro hempty
          exact absurd (congrArg String.toList hempty) (by simp)
        · exact (Except.ok.inj houtcome).symm
      · exact ⟨hcourse, fun outcome houtcome => by cases houtcome⟩

/-- The check lets a draft pass only when its numbers match. -/
theorem ensures_grounding {draft : Draft} {rows : Json} (h : HasDraft values course draft rows) :
    (runProtocol courseTracker contract).Ensures
      (fun result course' => course' = course ∧ ∀ outcome, result = .ok outcome →
        (outcome = .wrote [("grounded", .bool true), ("unmatched_numbers", .arr [])] ∧ draft.Matches rows) ∨
          ∃ numbers reason, outcome =
            .wrote [("grounded", .bool false), ("unmatched_numbers", numbers), ("blocked_reason", reason)])
      (grounding py (numericDrafting py messages numeral) values) course := by
  have hdraft : Json.field values "draft" = .ok draft.json := by rw [Json.field, h.draft]
  have hrows : Json.field values "data_rows" = .ok rows := by rw [Json.field, h.rows.1]
  have hreport : draft.json.item "report" = .ok (.str draft.report) := rfl
  have hsocial : draft.json.item "social" = .ok (.str draft.social) := rfl
  rw [grounding, hdraft]
  simp only [Prog.ofExcept, Prog.done_bind, hreport, hsocial, hrows]
  cases hunmatched : (numericDrafting py messages numeral).unmatchedNumbers
      (py.str (.str draft.report) ++ "\n" ++ py.str (.str draft.social)) rows with
  | error error => exact ⟨rfl, fun outcome houtcome => by cases houtcome⟩
  | ok unmatched =>
    have hmatches := numbersMatch_of_unmatched hunmatched
    simp only [Prog.done_bind]
    split
    · rename_i hempty
      exact ⟨rfl, fun outcome houtcome => .inl ⟨(Except.ok.inj houtcome).symm, hmatches.mp hempty⟩⟩
    · exact ⟨rfl, fun outcome houtcome => .inr ⟨_, _, (Except.ok.inj houtcome).symm⟩⟩

/-- The interrupt shows the draft and the rows; a decision on it is taken as it is. -/
theorem hitl_eq {draft : Draft} {rows : Json} (h : HasDraft values course draft rows) :
    hitl py resume values = interrupt (publishPayload draft.json rows) resume rejectUnlessApproved := by
  have hdraft : Json.field values "draft" = .ok draft.json := by rw [Json.field, h.draft]
  have hrows : Json.field values "data_rows" = .ok rows := by rw [Json.field, h.rows.1]
  rw [hitl, assertRequiresApproval_external py rfl, hdraft, hrows]
  rfl

/-- A resumed interrupt goes on to the publication only with an approval. -/
theorem ensures_hitl {decision : Json} (h : relies (some decision) .hitl values course) :
    (runProtocol courseTracker contract).Ensures
      (contract.Leaves (graph py (numericDrafting py messages numeral) actor killswitch) .hitl values)
      (hitl py (some decision) values) course := by
  obtain ⟨draft, rows, hdraft, hmatches, hdecided⟩ := h
  obtain ⟨hshown, hdecision⟩ := hdecided decision rfl
  rw [hitl_eq hdraft, interrupt]
  apply Protocol.ensures_ofExcept_bind
  · exact fun error _ => trivial
  · intro writes hwrites next hroute
    have hnext : (if Json.flag (Json.merge values writes) "rejected" then Node.finish else .publish) = next :=
      Option.some.inj (Except.ok.inj hroute)
    rw [← hnext]
    rcases rejectUnlessApproved_inv hwrites with rfl | ⟨rfl, happroval⟩
    · rw [Json.merge_cons, Json.merge_nil, Json.flag_insert_self]
      exact ⟨trivial, .inr trivial⟩
    · rw [Json.merge_nil]
      split
      · exact ⟨trivial, .inr trivial⟩
      · have hpublish : relies none .publish values course :=
          ⟨draft, rows, decision, hdraft, hmatches, hshown, hdecision, happroval⟩
        exact ⟨hpublish, .inr hpublish⟩

/-- The publication is of the draft that was shown and approved. -/
theorem ensures_publish (h : relies none .publish values course) :
    (runProtocol courseTracker contract).Ensures
      (fun result _ => ∀ outcome, result = .ok outcome → ∃ writes, outcome = .wrote writes)
      (publish actor values) course := by
  obtain ⟨draft, rows, decision, hdraft, hmatches, hshown, hdecision, happroval⟩ := h
  have hfield : Json.field values "draft" = .ok draft.json := by rw [Json.field, hdraft.draft]
  have hreport : draft.json.item "report" = .ok (.str draft.report) := rfl
  have hsocial : draft.json.item "social" = .ok (.str draft.social) := rfl
  have hcourse : course = ⟨some rows, some (publishPayload draft.json rows), some decision⟩ := by
    have hrows := hdraft.rows.2
    cases course
    simp_all
  rw [publish, hfield]
  simp only [Prog.ofExcept, Prog.done_bind, hreport, hsocial]
  apply Protocol.ensures_call_bind
  · exact fun _ => ⟨draft, rows, decision, hcourse, happroval, rfl, hmatches⟩
  · intro reply course' _
    cases reply with
    | error error => exact fun outcome houtcome => by cases houtcome
    | ok result => exact fun outcome houtcome => ⟨_, (Except.ok.inj houtcome).symm⟩

/-- Every node leaves what the next one relies on. -/
theorem ensures_node (node : Node) (hacts : contract.asks node = true → resume ≠ none)
    (h : relies resume node values course) : (runProtocol courseTracker contract).Ensures
      (contract.Leaves (graph py (numericDrafting py messages numeral) actor killswitch) node values)
      ((graph py (numericDrafting py messages numeral) actor killswitch).body node resume values) course := by
  cases node with
  | killswitchGate =>
    apply (ensures_gate allowed_quiet note_quiet killswitch agentName).mono
    intro result course' hresult
    cases result with
    | error error => trivial
    | ok outcome =>
      have hwrote : ∃ writes, outcome = .wrote writes := by
        rcases hresult.2 outcome rfl with hwrote | hwrote
        · exact ⟨_, hwrote⟩
        · exact ⟨_, hwrote⟩
      obtain ⟨writes, rfl⟩ := hwrote
      intro next hroute
      have hnext : (if Json.flag (Json.merge values writes) "paused" then none else some Node.pullData) = some next :=
        Except.ok.inj hroute
      split at hnext
      · cases hnext
      · cases hnext
        exact ⟨trivial, .inr trivial⟩
  | pullData =>
    apply ensures_pullData.mono
    intro result course' hresult
    cases result with
    | error error => trivial
    | ok outcome =>
      obtain ⟨rows, rfl, hrows⟩ := hresult outcome rfl
      intro next hroute
      cases hroute
      have hbrand : relies none .retrieveBrand (Json.merge values [("data_rows", rows)]) course' := by
        refine ⟨rows, ?_, hrows⟩
        rw [Json.merge_cons, Json.merge_nil, Json.get?_insert, if_pos rfl]
      exact ⟨hbrand, .inr hbrand⟩
  | retrieveBrand =>
    obtain ⟨rows, hrows⟩ := h
    intro next hroute
    cases hroute
    have hdraft : relies none .draft (Json.merge values [("brand_voice", .str guidance)]) course :=
      ⟨rows, hrows.insert "brand_voice" _ (by decide)⟩
    exact ⟨hdraft, .inr hdraft⟩
  | draft =>
    obtain ⟨rows, hrows⟩ := h
    apply ensures_draft.mono
    intro result course' hresult
    obtain ⟨rfl, hresult⟩ := hresult
    cases result with
    | error error => trivial
    | ok outcome =>
      rcases hresult outcome rfl with ⟨draft, rfl⟩ | ⟨reason, hreason, rfl⟩
      · intro next hroute
        have hnext : (if Json.flag (Json.merge values [("draft", draft.json)]) "blocked_reason" then Node.finish
            else .grounding) = next := Option.some.inj (Except.ok.inj hroute)
        rw [← hnext]
        split
        · exact ⟨trivial, .inr trivial⟩
        · have hgrounding : relies none .grounding (Json.merge values [("draft", draft.json)]) course' := by
            refine ⟨draft, rows, ?_, hrows.insert "draft" draft.json (by decide)⟩
            rw [Json.merge_cons, Json.merge_nil, Json.get?_insert, if_pos rfl]
          exact ⟨hgrounding, .inr hgrounding⟩
      · intro next hroute
        have hnext : (if Json.flag (Json.merge values [("blocked_reason", .str reason)]) "blocked_reason"
            then Node.finish else .grounding) = next := Option.some.inj (Except.ok.inj hroute)
        rw [Json.merge_cons, Json.merge_nil, Json.flag_insert_self] at hnext
        rw [← hnext, Json.truthy, if_pos (by simpa using hreason)]
        exact ⟨trivial, .inr trivial⟩
  | grounding =>
    obtain ⟨draft, rows, hdraft⟩ := h
    apply (ensures_grounding hdraft).mono
    intro result course' hresult
    obtain ⟨rfl, hresult⟩ := hresult
    cases result with
    | error error => trivial
    | ok outcome =>
      rcases hresult outcome rfl with ⟨rfl, hmatches⟩ | ⟨numbers, reason, rfl⟩
      · intro next hroute
        have hnext : (if Json.flag (Json.merge values [("grounded", .bool true), ("unmatched_numbers", .arr [])]) "grounded"
            then Node.hitl else .finish) = next := Option.some.inj (Except.ok.inj hroute)
        rw [Json.merge_cons, Json.merge_cons, Json.merge_nil,
          Json.flag_insert _ "unmatched_numbers" "grounded" _ (by decide), Json.flag_insert_self] at hnext
        rw [← hnext]
        have hkept := (hdraft.insert "grounded" (.bool true) (by decide) (by decide)).insert "unmatched_numbers" (.arr [])
          (by decide) (by decide)
        exact ⟨⟨draft, rows, hkept, hmatches, fun decision hresume => by cases hresume⟩, .inl rfl⟩
      · intro next hroute
        have hnext : (if Json.flag (Json.merge values [("grounded", .bool false), ("unmatched_numbers", numbers),
            ("blocked_reason", reason)]) "grounded" then Node.hitl else .finish) = next :=
          Option.some.inj (Except.ok.inj hroute)
        rw [Json.merge_cons, Json.merge_cons, Json.merge_cons, Json.merge_nil,
          Json.flag_insert _ "blocked_reason" "grounded" _ (by decide),
          Json.flag_insert _ "unmatched_numbers" "grounded" _ (by decide), Json.flag_insert_self] at hnext
        rw [← hnext]
        exact ⟨trivial, .inr trivial⟩
  | hitl =>
    cases resume with
    | none => exact absurd rfl (hacts rfl)
    | some decision => exact ensures_hitl h
  | publish =>
    apply (ensures_publish h).mono
    intro result course' hresult
    cases result with
    | error error => trivial
    | ok outcome =>
      obtain ⟨writes, rfl⟩ := hresult outcome rfl
      intro next hroute
      cases hroute
      exact ⟨trivial, .inr trivial⟩
  | finish =>
    intro next hroute
    cases hroute

end Nodes

/-- The course of a run includes the last interrupt and the first decision on it. -/
theorem courseTracker_records : courseTracker.Records Course.shown Course.decision where
  fresh := rfl
  note course event := by
    simp only [courseTracker]
    split
    · split <;> exact ⟨rfl, rfl⟩
    · exact ⟨rfl, rfl⟩
  showing _ _ := ⟨rfl, rfl⟩
  deciding course decision := by
    simp only [courseTracker]
    split <;> exact ⟨rfl, rfl⟩

/-! ## Sessions -/

section Sessions

variable {py : Builtins} {messages : Json → Json → Except Exc (List Json)} {numeral : Float → PyFloat} {actor : Actor}
  {killswitch : Option KillSwitch}

/-- A decision on a kept checkpoint is the one that its node relies on. -/
theorem relies_decided {node : Node} {values : Dict} {course : Course} (decision : Json) (h : keeps node values course) :
    relies (some decision) node values (courseTracker.decided course decision) := by
  have hrows : (courseTracker.decided course decision).rows = course.rows := by
    simp only [courseTracker]
    split <;> rfl
  have hdecided : ∀ held, course.decision = some held → courseTracker.decided course decision = course := by
    intro held hheld
    simp [courseTracker, hheld]
  cases node with
  | killswitchGate | pullData | finish => trivial
  | retrieveBrand | draft =>
    obtain ⟨rows, hvalue, hfetched⟩ := h
    exact ⟨rows, hvalue, hrows.trans hfetched⟩
  | grounding =>
    obtain ⟨draft, rows, hdraft⟩ := h
    exact ⟨draft, rows, hdraft.draft, hdraft.rows.1, hrows.trans hdraft.rows.2⟩
  | hitl =>
    obtain ⟨draft, rows, hdraft, hmatches, hshown, hwaits⟩ := h
    refine ⟨draft, rows, ⟨hdraft.draft, hdraft.rows.1, hrows.trans hdraft.rows.2⟩, hmatches, ?_⟩
    intro given hgiven
    rw [← Option.some.inj hgiven]
    simp [courseTracker, hshown, hwaits]
  | publish =>
    obtain ⟨draft, rows, held, hdraft, hmatches, hshown, hheld, happroval⟩ := h
    rw [hdecided held hheld]
    exact ⟨draft, rows, held, hdraft, hmatches, hshown, hheld, happroval⟩

/-- The interrupt of a draft whose numbers match. -/
theorem asks_interrupt {values : Dict} {course : Course} (h : relies none .hitl values course) :
    ∃ payload, hitl py none values = .done (.interrupted payload) ∧ MayShow course payload ∧
      keeps .hitl values (courseTracker.shown course payload) := by
  obtain ⟨draft, rows, hdraft, hmatches, -⟩ := h
  refine ⟨publishPayload draft.json rows, ?_, ⟨draft, rows, rfl, hdraft.rows.2, hmatches⟩, ?_⟩
  · rw [hitl_eq hdraft]
    rfl
  · exact ⟨draft, rows, ⟨hdraft.draft, hdraft.rows⟩, hmatches, rfl, rfl⟩

variable (py messages numeral actor killswitch)

/-- The graph meets its contract. -/
theorem graph_met :
    contract.Met courseTracker (graph py (numericDrafting py messages numeral) actor killswitch) where
  store course c hc := by
    cases c <;> trivial
  inward node resume values := by
    apply (only_body py _ actor killswitch node resume values).mono
    intro c hc hstore
    cases c <;> first | exact hc | exact hstore
  entry := rfl
  enters _ := ⟨trivial, trivial⟩
  resumes _ _ _ decision h := relies_decided decision h
  asking node values course hasks h := by
    cases node with
    | hitl => exact asks_interrupt h
    | _ => cases hasks
  acting node resume values course hacts h := ensures_node node hacts h
  descends node values next hroute := by
    cases node with
    | killswitchGate =>
      have hnext : (if Json.flag values "paused" then none else some Node.pullData) = some next :=
        Except.ok.inj hroute
      split at hnext <;> cases hnext
      decide
    | pullData | retrieveBrand | publish =>
      cases hroute
      decide
    | draft | grounding | hitl =>
      rw [← Option.some.inj (Except.ok.inj hroute)]
      split <;> decide
    | finish => cases hroute
  bounded node := by
    cases node <;> decide

/-- On a thread of the insights publisher, whatever is invoked and resumed in whatever order, whatever the model drafts,
whatever the rows are, and whichever calls fail: what is published are the texts of a draft whose numbers all match the
rows that the run fetched, which was shown at the last interrupt and approved after it; and no interrupt shows a draft
with another number. -/
theorem sessions_publish_approved (replies : Replies) (sessions : List Session) (earlier later : List Deed) :
    (∀ caller args reply, (Logbook.holdAll (graph py (numericDrafting py messages numeral) actor killswitch)
        (threadSaver nodeNames actor) replies ⟨0, none, []⟩ sessions).history =
          earlier ++ .called ⟨.tool caller cmsPublish args, reply⟩ :: later →
      ∃ draft rows, args = [("report", .str (Draft.report draft)), ("social", .str draft.social)] ∧
        draft.Matches rows ∧ (tracked courseTracker earlier).live.rows = some rows ∧
        ApprovedWhenShown earlier (publishPayload draft.json rows)) ∧
    ∀ values payload, (Logbook.holdAll (graph py (numericDrafting py messages numeral) actor killswitch)
        (threadSaver nodeNames actor) replies ⟨0, none, []⟩ sessions).history =
          earlier ++ .stopped (.ok ⟨values, some payload⟩) :: later →
      MayShow (tracked courseTracker earlier).live payload := by
  have hfollows := holdAll_follows (graph_met py messages numeral actor killswitch) nodeNames actor replies sessions
  constructor
  · intro caller args reply hhistory
    obtain ⟨draft, rows, decision, hcourse, happroval, hargs, hmatches⟩ := hfollows _ _ _ hhistory rfl
    have happroved := (courseTracker_records.witnessed earlier).1.approved (by rw [hcourse]) (by rw [hcourse]) happroval
    exact ⟨draft, rows, hargs, hmatches, by rw [hcourse], happroved⟩
  · intro values payload hhistory
    exact hfollows _ _ _ hhistory

end Sessions

end FleetWorkflow.Agents.InsightsPublisher
