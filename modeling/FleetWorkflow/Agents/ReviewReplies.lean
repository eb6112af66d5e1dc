import FleetWorkflow.Agents.LegalReview
import FleetWorkflow.Agents.ReviewAccounts
import FleetWorkflow.Agents.Tools
import FleetWorkflow.Async.Runs
import FleetWorkflow.Python.Json

/-!
# Replies that carry findings

The review node with its parser: what it writes for every reply of the model. A reply whose findings are not the items of a
list, or of the list under its key, is read as a review without findings.
-/

namespace FleetWorkflow.Agents.LegalReview

open Python Async Core Flow

/-! ## Objects of a reply -/

mutual

/-- The objects of a value, at any depth and in order. -/
def objectsIn : Json → List Dict
  | .arr items => objectsInItems items
  | .obj fields => fields :: objectsInFields fields
  | _ => []

/-- The objects of the items of a list. -/
def objectsInItems : List Json → List Dict
  | [] => []
  | item :: rest => objectsIn item ++ objectsInItems rest

/-- The objects of the members of an object. -/
def objectsInFields : List (String × Json) → List Dict
  | [] => []
  | (_, value) :: rest => objectsIn value ++ objectsInFields rest

end

/-- The value that has to be a list: the members of an object under their key, or the value itself. -/
def listedValue : Json → Json
  | .obj fields => (Json.get? fields "findings").getD (.arr [])
  | value => value

/-- The objects that are items of the list. -/
def listedObjects (items : List Json) : List Dict := items.filterMap objectOf

/-- The items that are objects are objects of the list. -/
theorem listedObjects_sublist (items : List Json) : (listedObjects items).Sublist (objectsInItems items) := by
  induction items with
  | nil => exact List.Sublist.refl []
  | cons item rest ih =>
    cases item with
    | obj fields =>
      have hitem : objectOf (.obj fields) = some fields := rfl
      rw [listedObjects, List.filterMap_cons_some hitem, objectsInItems, objectsIn, List.cons_append]
      exact (ih.trans (List.sublist_append_right _ _)).cons_cons fields
    | _ =>
      rw [listedObjects, List.filterMap_cons_none rfl, objectsInItems]
      exact ih.trans (List.sublist_append_right _ _)

/-- The objects of a member are objects of the object. -/
theorem objectsIn_sublist {fields : Dict} {key : String} {value : Json} (h : Json.get? fields key = some value) :
    (objectsIn value).Sublist (objectsInFields fields) := by
  induction fields with
  | nil => cases h
  | cons field rest ih =>
    rw [objectsInFields]
    by_cases hkey : field.1 = key
    · have hvalue : field.2 = value := by simpa [Json.get?, hkey] using h
      rw [hvalue]
      exact List.sublist_append_left _ _
    · have hrest : Json.get? rest key = some value := by simpa [Json.get?, hkey] using h
      exact (ih hrest).trans (List.sublist_append_right _ _)

/-- The listed objects are objects of the reply. -/
theorem listedObjects_sublist_objectsIn {value : Json} {items : List Json} (h : listedValue value = .arr items) :
    (listedObjects items).Sublist (objectsIn value) := by
  cases value with
  | obj fields =>
    rw [objectsIn]
    cases hfindings : Json.get? fields "findings" with
    | none =>
      rw [listedValue, hfindings, Option.getD_none, Json.arr.injEq] at h
      rw [← h]
      exact List.nil_sublist _
    | some findings =>
      rw [listedValue, hfindings, Option.getD_some] at h
      have hmember := objectsIn_sublist hfindings
      rw [h, objectsIn] at hmember
      exact ((listedObjects_sublist items).trans hmember).cons fields
  | arr others =>
    cases h
    exact listedObjects_sublist items
  | _ => cases h

/-! ## The review of a reply -/

section Reviews

variable (py : Builtins) (messages : Json → List Json → List Json) (playbookRefs : List Json) (contract content : String)

/-- The end of `review_contract`: parse the reply and build the review. -/
def reviewReply : Except Exc Review := parseFindings py content >>= buildReview py playbookRefs (some contract)

/-- The lists that the node keeps in the state. -/
def Review.asLists (review : Review) : List Json × List Json :=
  (review.findings.map Finding.asDict, review.uncited.map Uncited.asDict)

/-- How replies are read; the text of the call is left open. -/
def readsFindings : Reviewing where
  messages contractText excerpts := .ok (messages contractText excerpts)
  buildReview content playbookRefs contractText :=
    match contractText with
    | .str contract => (reviewReply py playbookRefs contract content).map Review.asLists
    | _ => .error ⟨.attributeError, "object has no attribute 'translate'"⟩

/-- What the node writes for what the review comes to. -/
def writtenFor : Except Exc Review → Except Exc NodeOutcome
  | .ok review => .ok (.wrote [("findings", .arr review.asLists.1), ("uncited", .arr review.asLists.2)])
  | .error error =>
    if error.kind = .parseError then
      .ok (.wrote [("blocked_reason", .str ("clause review failed: " ++ error.message))])
    else .error error

/-- A contract was submitted, and these references were retrieved. -/
structure Submitted (state : Dict) : Prop where
  contract : Json.field state "contract_text" = .ok (.str contract)
  excerpts : ∃ excerpts contents, (Json.field state "excerpts" >>= Json.iterate) = .ok excerpts ∧
    (excerpts.mapM fun excerpt => excerpt.item "content") = .ok contents ∧
      (excerpts.mapM fun excerpt => excerpt.item "chunk_ref") = .ok playbookRefs

/-- The state has a reason why the run is blocked, and the rest of the run keeps it. -/
def EndsBlocked (actor : Actor) (state : Dict) (outcome : Except Exc NodeOutcome) : Prop :=
  ∃ reason, outcome = .ok (.wrote [("blocked_reason", .str reason)]) ∧
    Json.flag (Json.merge state [("blocked_reason", .str reason)]) "blocked_reason" = true ∧
    ∀ killswitch, (graph (readsFindings py messages) actor killswitch).route .review
        (Json.merge state [("blocked_reason", .str reason)]) = .ok (some .finish) ∧
      endNode (Json.merge state [("blocked_reason", .str reason)]) = .wrote []

/-- The node reports what is in a reply: for every object of the reply that has a clause and is not marked as conforming
there is an entry, in order, so that a reply with such an object does not end as a clean review. -/
def Reports (outcome : Except Exc NodeOutcome) : Prop :=
  ∃ value, ∃ review : Review, ∃ entries, Json.loads (stripCodeFence content) = .ok value ∧
    outcome = .ok (.wrote [("findings", .arr (review.findings.map Finding.asDict)),
      ("uncited", .arr (review.uncited.map Uncited.asDict))]) ∧
    List.Forall₂ (Answers py playbookRefs contract) ((objectsIn value).filter (IsReportable py)) entries ∧
    review.findings = entries.filterMap Sum.getLeft? ∧ review.uncited = entries.filterMap Sum.getRight? ∧
    ((objectsIn value).filter (IsReportable py) ≠ [] → review.findings ≠ [] ∨ review.uncited ≠ [])

/-- A reply is never a silently clean review: whenever the node gets it, for whatever state with the contract and the
references, the run ends blocked or what is in the reply is reported. -/
def NeverSilent : Prop :=
  ∀ actor state events outcome, Submitted playbookRefs contract state →
    (review (readsFindings py messages) actor state).Runs events outcome → (∀ event ∈ events, RepliedWith content event) →
      EndsBlocked py messages actor state outcome ∨ Reports py playbookRefs contract content outcome

/-- All that is reportable in a value is listed, and can be read. -/
def IsListed (value : Json) : Prop :=
  ∀ items, listedValue value = .arr items →
    (objectsIn value).filter (IsReportable py) = (listedObjects items).filter (IsReportable py) ∧
      ∀ raw ∈ listedObjects items, IsLegible py playbookRefs (some contract) raw

variable {py messages playbookRefs contract content}

/-! ## Runs of the node -/

/-- The call of the review. -/
def reviewCall (actor : Actor) (prompt : List Json) : Call :=
  .llm actor "reasoning" prompt [("sensitivity", .str "confidential"), ("temperature", .float (.decimal false 0 0))]

/-- How the review of a contract is read. -/
theorem buildReview_readsFindings : (readsFindings py messages).buildReview content playbookRefs (.str contract) =
    (reviewReply py playbookRefs contract content).map Review.asLists := by
  simp only [readsFindings]

/-- The review makes one call and reads its reply. -/
theorem runs_reviewContract {actor : Actor} {contents : List Json} {events : List (Event Call Reply Exc)}
    {result : Except Exc (List Json × List Json)} :
    (reviewContract (readsFindings py messages) actor (.str contract) contents playbookRefs).Runs events result ↔
      ∃ reply : Except Exc LlmResponse, events = [⟨reviewCall actor (messages (.str contract) contents), reply⟩] ∧
        result = (reply.bind fun response => reviewReply py playbookRefs contract response.content).map Review.asLists := by
  have hprogram : reviewContract (readsFindings py messages) actor (.str contract) contents playbookRefs =
      (Prog.call (reviewCall actor (messages (.str contract) contents)) >>= fun response =>
        Prog.ofExcept ((readsFindings py messages).buildReview response.content playbookRefs (.str contract))) := rfl
  simp only [buildReview_readsFindings] at hprogram
  rw [hprogram, Prog.runs_bind_ofExcept]
  constructor
  · rintro ⟨reply, hcall, rfl⟩
    exact ⟨reply, Prog.runs_call.mp hcall, Flow.bind_map _ _ _⟩
  · rintro ⟨reply, hcall, rfl⟩
    exact ⟨reply, Prog.runs_call.mpr hcall, (Flow.bind_map _ _ _).symm⟩

/-- The end of the node. -/
def conclude : Except Exc (List Json × List Json) → Coroutine NodeOutcome
  | .ok (findings, uncited) => return .wrote [("findings", .arr findings), ("uncited", .arr uncited)]
  | .error error =>
    if error.kind = .parseError then
      return .wrote [("blocked_reason", .str ("clause review failed: " ++ error.message))]
    else .raise error

/-- What the end of the node writes. -/
theorem runs_conclude {reviewed : Except Exc Review} {events : List (Event Call Reply Exc)}
    {outcome : Except Exc NodeOutcome} :
    (conclude (reviewed.map Review.asLists)).Runs events outcome ↔ events = [] ∧ outcome = writtenFor reviewed := by
  cases reviewed with
  | ok review => exact Prog.runs_done
  | error error =>
    show (if error.kind = .parseError then _ else _ : Coroutine NodeOutcome).Runs events outcome ↔ _
    rw [writtenFor]
    split
    · exact Prog.runs_done
    · exact Prog.runs_raise

/-- What the node writes, from what its review comes to. -/
theorem runs_review {actor : Actor} {state : Dict} (hstate : Submitted playbookRefs contract state) :
    ∃ prompt, ∀ events outcome, (review (readsFindings py messages) actor state).Runs events outcome ↔
      ∃ reply : Except Exc LlmResponse, events = [⟨reviewCall actor prompt, reply⟩] ∧
        outcome = writtenFor (reply.bind fun response => reviewReply py playbookRefs contract response.content) := by
  obtain ⟨excerpts, contents, hexcerpts, hcontents, hrefs⟩ := hstate.excerpts
  have hprogram : review (readsFindings py messages) actor state =
      ((reviewContract (readsFindings py messages) actor (.str contract) contents playbookRefs).attempt >>= conclude) := by
    simp only [review, hexcerpts, hstate.contract, hcontents, hrefs, Prog.ofExcept_ok, Prog.done_bind]
    rfl
  refine ⟨messages (.str contract) contents, fun events outcome => ?_⟩
  rw [hprogram, Prog.runs_bind]
  constructor
  · rintro (⟨error, hattempt, -⟩ | ⟨before, after, reviewed, rfl, hattempt, hafter⟩)
    · obtain ⟨_, -, hnever⟩ := Prog.runs_attempt.mp hattempt
      cases hnever
    · obtain ⟨_, hcontract, heq⟩ := Prog.runs_attempt.mp hattempt
      obtain ⟨reply, rfl, hreply⟩ := runs_reviewContract.mp hcontract
      rw [Except.ok.inj heq, hreply] at hafter
      obtain ⟨rfl, hwritten⟩ := runs_conclude.mp hafter
      exact ⟨reply, List.append_nil _, hwritten⟩
  · rintro ⟨reply, rfl, rfl⟩
    refine .inr ⟨_, [], _, (List.append_nil _).symm, Prog.runs_attempt.mpr ⟨_, runs_reviewContract.mpr ⟨reply, rfl, rfl⟩, rfl⟩,
      runs_conclude.mpr ⟨rfl, rfl⟩⟩

/-- The node writes what the review of the reply comes to. -/
theorem outcome_of_replied {actor : Actor} {state : Dict} {events : List (Event Call Reply Exc)}
    {outcome : Except Exc NodeOutcome} (hstate : Submitted playbookRefs contract state)
    (hrun : (review (readsFindings py messages) actor state).Runs events outcome)
    (hreplied : ∀ event ∈ events, RepliedWith content event) :
    outcome = writtenFor (reviewReply py playbookRefs contract content) := by
  obtain ⟨prompt, hruns⟩ := @runs_review py messages playbookRefs contract actor state hstate
  obtain ⟨reply, rfl, rfl⟩ := (hruns events outcome).mp hrun
  have hreply := hreplied _ (List.mem_singleton.mpr rfl)
  cases reply with
  | error error => exact hreply.elim
  | ok response =>
    have hcontent : response.content = content := hreply
    rw [Flow.ok_bind, hcontent]

/-- The node can get any reply. -/
theorem exists_replied (actor : Actor) {state : Dict} (hstate : Submitted playbookRefs contract state) :
    ∃ events, (review (readsFindings py messages) actor state).Runs events
      (writtenFor (reviewReply py playbookRefs contract content)) ∧ ∀ event ∈ events, RepliedWith content event := by
  obtain ⟨prompt, hruns⟩ := @runs_review py messages playbookRefs contract actor state hstate
  refine ⟨_, (hruns _ _).mpr ⟨.ok ⟨content, .null⟩, rfl, congrArg writtenFor (Flow.ok_bind _ _).symm⟩,
    fun event hevent => ?_⟩
  rw [List.mem_singleton.mp hevent]
  rfl

/-- There is a state with a contract and references. -/
theorem exists_submitted (playbookRefs : List Json) (contract : String) : ∃ state, Submitted playbookRefs contract state := by
  let excerpts := playbookRefs.map fun ref => Json.obj [("content", .str ""), ("chunk_ref", ref)]
  refine ⟨[("contract_text", .str contract), ("excerpts", .arr excerpts)], rfl, excerpts, playbookRefs.map fun _ => .str "",
    rfl, ?_, ?_⟩
  · induction playbookRefs with
    | nil => rfl
    | cons ref rest ih => exact List.mapM_cons.trans (bind_eq_ok.mpr ⟨_, rfl, bind_eq_ok.mpr ⟨_, ih, rfl⟩⟩)
  · induction playbookRefs with
    | nil => rfl
    | cons ref rest ih => exact List.mapM_cons.trans (bind_eq_ok.mpr ⟨_, rfl, bind_eq_ok.mpr ⟨_, ih, rfl⟩⟩)

/-! ## What a reply comes to -/

/-- The text of a value is refused for one reason. -/
theorem raisesOnly_textOf (value : Json) : RaisesOnly intDigitsError (textOf py value) := by
  rw [textOf]
  split
  · exact raisesOnly_error
  · exact raisesOnly_ok

/-- The text of a field is refused for one reason. -/
theorem raisesOnly_strippedText (raw : Dict) (key : String) : RaisesOnly intDigitsError (strippedText py raw key) :=
  (raisesOnly_textOf _).map _

/-- A raw finding is refused for one reason. -/
theorem raisesOnly_examine (haystack : Option String) (raw : Dict) :
    RaisesOnly intDigitsError (examine py playbookRefs haystack raw) := by
  have hrisk (value : Json) : RaisesOnly intDigitsError (normalizeRisk py value) := by
    cases value with
    | null => exact raisesOnly_ok
    | _ =>
      simp only [normalizeRisk]
      exact (raisesOnly_textOf _).map _
  have hnumber (text : String) : RaisesOnly intDigitsError (numberIn text) := by
    rw [numberIn]
    split
    · exact raisesOnly_ok
    · split
      · exact raisesOnly_error
      · exact raisesOnly_ok
  have hposition (value : Json) : RaisesOnly intDigitsError (citationPosition py value) := by
    cases value with
    | null => exact raisesOnly_ok
    | bool b => exact raisesOnly_ok
    | int n => exact raisesOnly_ok
    | _ =>
      simp only [citationPosition]
      exact (raisesOnly_textOf _).bind hnumber
  have hreport (clause excerpt : String) (risk : Option String) (ref : Option Json) (quoted : Bool) :
      RaisesOnly intDigitsError (report py raw clause excerpt risk ref quoted) := by
    unfold report
    split
    · exact raisesOnly_ok
    · exact raisesOnly_ok
    · exact raisesOnly_ok
    · exact (raisesOnly_strippedText _ _).map _
  apply (raisesOnly_strippedText _ _).bind fun clause => (hrisk _).bind fun risk => (hposition _).bind fun position =>
    (raisesOnly_strippedText _ _).bind fun excerpt => ?_
  split
  · exact raisesOnly_ok
  · apply RaisesOnly.bind ((raisesOnly_strippedText _ _).map _)
    intro conforming
    split
    · exact raisesOnly_ok
    · exact (hreport _ _ _ _ _).bind fun _ => raisesOnly_ok

/-- A review is refused for one reason. -/
theorem raisesOnly_buildReview (rawFindings : List Dict) :
    RaisesOnly intDigitsError (buildReview py playbookRefs (some contract) rawFindings) :=
  RaisesOnly.foldlM (fun _ raw => (raisesOnly_examine _ raw).map _) _ _

/-- A reply that is no list of findings is refused as it should be. -/
theorem parseFindings_of_ok {value : Json} (h : Json.loads (stripCodeFence content) = .ok value) :
    parseFindings py content = match listedValue value with
      | .arr items => .ok (listedObjects items)
      | other => .error ⟨.parseError, "expected a list of findings, got " ++ py.repr other⟩ := by
  simp only [parseFindings, loadsOr, h]
  rfl

/-- A reply that is no JSON is refused as it should be. -/
theorem parseFindings_of_decode (h : Json.loads (stripCodeFence content) = .error .decode) :
    ∃ message, parseFindings py content = .error ⟨.parseError, message⟩ := by
  simp only [parseFindings, loadsOr, h]
  exact ⟨_, rfl⟩

/-- A reply with an integer that is too long is not refused as it should be. -/
theorem parseFindings_of_intDigits (h : Json.loads (stripCodeFence content) = .error .intDigits) :
    parseFindings py content = .error intDigitsError := by
  simp only [parseFindings, loadsOr, h]
  rfl

/-- A refused reply blocks the run. -/
theorem endsBlocked_of_parseError {actor : Actor} {state : Dict} {message : String}
    (h : reviewReply py playbookRefs contract content = .error ⟨.parseError, message⟩) :
    EndsBlocked py messages actor state (writtenFor (reviewReply py playbookRefs contract content)) := by
  have hflag : Json.flag (Json.merge state [("blocked_reason", .str ("clause review failed: " ++ message))])
      "blocked_reason" = true := by
    rw [Json.merge_cons, Json.merge_nil, Json.flag_insert_self, Json.truthy, decide_eq_true_eq]
    intro hempty
    have hlength := congrArg String.length hempty
    rw [String.length_append] at hlength
    have hstart : "clause review failed: ".length = 22 := by decide
    have hnone : "".length = 0 := by decide
    omega
  refine ⟨"clause review failed: " ++ message, by rw [h]; rfl, hflag, fun killswitch => ⟨rfl, ?_⟩⟩
  rw [endNode, hflag, Bool.not_true, Bool.and_false, if_neg Bool.false_ne_true]

/-- Every entry is in one of the lists. -/
theorem length_entries (entries : List Entry) :
    (entries.filterMap Sum.getLeft?).length + (entries.filterMap Sum.getRight?).length = entries.length := by
  induction entries with
  | nil => rfl
  | cons entry rest ih =>
    cases entry with
    | inl finding => simp [List.filterMap_cons]; omega
    | inr uncited => simp [List.filterMap_cons]; omega

/-- What a review of listed findings writes reports them all. -/
theorem reports_of_listed {value : Json} {items : List Json} (hvalue : Json.loads (stripCodeFence content) = .ok value)
    (hitems : listedValue value = .arr items)
    (hlisted : (objectsIn value).filter (IsReportable py) = (listedObjects items).filter (IsReportable py))
    (hlegible : ∀ raw ∈ listedObjects items, IsLegible py playbookRefs (some contract) raw) :
    Reports py playbookRefs contract content (writtenFor (reviewReply py playbookRefs contract content)) := by
  let review : Review := ⟨(entriesOf py playbookRefs (some contract) (listedObjects items)).filterMap Sum.getLeft?,
    (entriesOf py playbookRefs (some contract) (listedObjects items)).filterMap Sum.getRight?⟩
  have hreview : reviewReply py playbookRefs contract content = .ok review := by
    rw [reviewReply, parseFindings_of_ok hvalue, hitems]
    exact buildReview_eq_ok.mpr ⟨hlegible, ⟨rfl, rfl⟩⟩
  refine ⟨value, review, entriesOf py playbookRefs (some contract) (listedObjects items), hvalue, ?_, ?_, rfl, rfl, ?_⟩
  · rw [hreview]
    rfl
  · rw [hlisted, entriesOf, List.forall₂_map_right_iff, List.forall₂_same]
    exact fun raw _ => answers_entryOf py playbookRefs contract raw
  · intro hne
    by_contra hnone
    simp only [not_or, not_not, review] at hnone
    have hlength := length_entries (entriesOf py playbookRefs (some contract) (listedObjects items))
    rw [hnone.1, hnone.2, entriesOf, List.length_map, ← hlisted] at hlength
    exact hne (List.length_eq_zero_iff.mp hlength.symm)

/-- What is reported, or blocks the run, is listed. -/
theorem isListed_of_reports {actor : Actor} {state : Dict} {value : Json}
    (hvalue : Json.loads (stripCodeFence content) = .ok value)
    (h : EndsBlocked py messages actor state (writtenFor (reviewReply py playbookRefs contract content)) ∨
      Reports py playbookRefs contract content (writtenFor (reviewReply py playbookRefs contract content))) :
    IsListed py playbookRefs contract value := by
  intro items hitems
  have hreply : reviewReply py playbookRefs contract content =
      buildReview py playbookRefs (some contract) (listedObjects items) := by
    rw [reviewReply, parseFindings_of_ok hvalue, hitems]
    rfl
  rw [hreply] at h
  cases hreview : buildReview py playbookRefs (some contract) (listedObjects items) with
  | error error =>
    rw [hreview, raisesOnly_buildReview _ error hreview] at h
    rcases h with ⟨reason, hnever, -⟩ | ⟨_, _, _, -, hnever, -⟩
    · cases hnever
    · cases hnever
  | ok review =>
    obtain ⟨hlegible, hextends⟩ := buildReview_eq_ok.mp hreview
    refine ⟨?_, hlegible⟩
    rw [hreview] at h
    rcases h with ⟨reason, hnever, -⟩ | ⟨value', review', entries, hvalue', hwritten, hentries, hfindings, huncited, -⟩
    · simp [writtenFor] at hnever
    · rw [hvalue] at hvalue'
      rw [← Except.ok.inj hvalue'] at hentries
      simp only [writtenFor, Review.asLists, Except.ok.injEq, NodeResult.wrote.injEq, List.cons.injEq, Prod.mk.injEq,
        true_and, Json.arr.injEq, and_true] at hwritten
      -- Both reviews have as many entries, so that no object of the reply is left out.
      have hlengths := And.intro (congrArg List.length hwritten.1) (congrArg List.length hwritten.2)
      rw [List.length_map, List.length_map, List.length_map, List.length_map, hextends.findings, hextends.uncited, hfindings,
        huncited, List.nil_append, List.nil_append] at hlengths
      have hall := length_entries entries
      have hlisted := length_entries (entriesOf py playbookRefs (some contract) (listedObjects items))
      rw [entriesOf, List.length_map] at hlisted
      rw [entriesOf] at hlengths
      have hsublist := (listedObjects_sublist_objectsIn hitems).filter (IsReportable py)
      apply (hsublist.eq_of_length _).symm
      rw [hentries.length_eq]
      omega

/-- A reply never becomes a silently clean review exactly when it has no integer of more than 4300 digits and, if it is a list
or an object whose findings are one or are missing, all that it reports is listed there and can be read. -/
theorem neverSilent_iff_listed : NeverSilent py messages playbookRefs contract content ↔
    Json.loads (stripCodeFence content) ≠ .error .intDigits ∧
      ∀ value, Json.loads (stripCodeFence content) = .ok value → IsListed py playbookRefs contract value := by
  constructor
  · intro h
    obtain ⟨state, hstate⟩ := exists_submitted playbookRefs contract
    obtain ⟨events, hrun, hreplied⟩ := @exists_replied py messages playbookRefs contract content ⟨"", ""⟩ state hstate
    have hcase := h _ _ _ _ hstate hrun hreplied
    constructor
    · intro hdigits
      have hreply : reviewReply py playbookRefs contract content = .error intDigitsError := by
        rw [reviewReply, parseFindings_of_intDigits hdigits]
        rfl
      rw [hreply] at hcase
      rcases hcase with ⟨reason, hnever, -⟩ | ⟨_, _, _, -, hnever, -⟩
      · cases hnever
      · cases hnever
    · exact fun value hvalue => isListed_of_reports hvalue hcase
  · rintro ⟨hdigits, hlisted⟩ actor state events outcome hstate hrun hreplied
    rw [outcome_of_replied hstate hrun hreplied]
    cases hloads : Json.loads (stripCodeFence content) with
    | error error =>
      cases error with
      | intDigits => exact absurd hloads hdigits
      | decode =>
        obtain ⟨message, hmessage⟩ := @parseFindings_of_decode py content hloads
        exact .inl (endsBlocked_of_parseError (by rw [reviewReply, hmessage]; rfl))
    | ok value =>
      have hparse := @parseFindings_of_ok py content value hloads
      cases hitems : listedValue value with
      | arr items =>
        obtain ⟨hall, hlegible⟩ := hlisted value hloads items hitems
        exact .inr (reports_of_listed hloads hitems hall hlegible)
      | _ =>
        rw [hitems] at hparse
        exact .inl (endsBlocked_of_parseError (by rw [reviewReply, hparse]; rfl))

end Reviews

/-- A reply with a finding under another key. -/
def misplacedReply : String := "\x7b\"results\": [\x7b\"clause\": \"Fesih\"\x7d]\x7d"

/-- Its objects. -/
def misplacedValue : Json := .obj [("results", .arr [.obj [("clause", .str "Fesih")]])]

set_option maxRecDepth 20000 in
/-- It is JSON. -/
theorem loads_misplacedReply : Json.loads (stripCodeFence misplacedReply) = .ok misplacedValue := by
  have hread : (match Json.loads (stripCodeFence misplacedReply) with
      | .ok value => decide (value = misplacedValue)
      | .error _ => false) = true := by
    decide +kernel
  split at hread
  · rename_i value hvalue
    rw [hvalue, of_decide_eq_true hread]
  · cases hread

/-- The review that it is read as is clean, though it carries a finding. -/
theorem misplacedReply_silent :
    ¬ NeverSilent asWritten (fun _ _ => []) [.str "chunk-1"] "Fesih: bir ay." misplacedReply := by
  intro h
  obtain ⟨state, hstate⟩ := exists_submitted [.str "chunk-1"] "Fesih: bir ay."
  obtain ⟨events, hrun, hreplied⟩ :=
    @exists_replied asWritten (fun _ _ => []) [.str "chunk-1"] "Fesih: bir ay." misplacedReply ⟨"", ""⟩ state hstate
  have hreply : reviewReply asWritten [.str "chunk-1"] "Fesih: bir ay." misplacedReply = .ok ⟨[], []⟩ := by
    rw [reviewReply, parseFindings_of_ok loads_misplacedReply]
    rfl
  rcases h _ _ _ _ hstate hrun hreplied with ⟨reason, hnever, -⟩ | ⟨value, review, entries, hvalue, hwritten, -, -, -, hclean⟩
  · simp [hreply, writtenFor] at hnever
  · rw [loads_misplacedReply] at hvalue
    simp only [hreply, writtenFor, Review.asLists, List.map_nil, Except.ok.injEq, NodeResult.wrote.injEq, List.cons.injEq,
      Prod.mk.injEq, true_and, Json.arr.injEq, and_true, List.nil_eq, List.map_eq_nil_iff] at hwritten
    rw [← Except.ok.inj hvalue, hwritten.1, hwritten.2] at hclean
    have hcarries : (objectsIn misplacedValue).filter (IsReportable asWritten) ≠ [] := by decide +kernel
    exact (hclean hcarries).elim (absurd rfl) (absurd rfl)

end FleetWorkflow.Agents.LegalReview
