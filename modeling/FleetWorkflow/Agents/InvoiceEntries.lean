import FleetWorkflow.Agents.InvoiceAgent
import FleetWorkflow.Agents.Sessions

/-!
# Entries of the invoice agent

Sessions of the invoice agent on one thread. Whatever the images, the replies of the model and the orders are, whatever is
decided in which order, and whichever calls fail: an interrupt shows the fields that the run extracted beside their
validation against the rows that it fetched, and an entry is made of the fields that were shown, after their approval, and
once.
-/

namespace FleetWorkflow.Agents.InvoiceAgent

open Python Async Core Flow

/-- What is known of a run: the fields that it extracted, the rows that it fetched, whether it asked for an entry, the
interrupt that it showed and the decision on it. -/
structure Course where
  fields : Option InvoiceFields
  rows : Option Json
  asked : Bool
  shown : Option Json
  decision : Option Json

section Courses

variable (py : Builtins) (exceedsTolerance : PyFloat → PyFloat → Bool) (seen : List String)

/-- What a call makes of a course. -/
def Course.note (course : Course) : CallEvent → Course
  | ⟨.tool _ tool _, reply⟩ =>
    if tool = erpCreateDraftEntry then { course with asked := true }
    else if tool = pgRoQuery then { course with rows := reply.toOption }
    else course
  | ⟨.llm _ _ _ _, .ok response⟩ => { course with fields := (parseFields py response.content).toOption }
  | _ => course

/-- A decision is on an interrupt that waits for one. -/
def courseTracker : Tracker Course where
  fresh := ⟨none, none, false, none, none⟩
  note := Course.note py
  shown course payload := { course with shown := some payload, decision := none }
  decided course decision :=
    if course.shown.isSome && course.decision.isNone then { course with decision := some decision } else course

/-- What the validation says of fields, by the purchase order that was found. -/
def verdict (fields : InvoiceFields) (found : Option PurchaseOrder) : ValidationResult :=
  let duplicate :=
    if fields.poNumber ∈ seen then ["duplicate: PO " ++ py.repr (.str fields.poNumber) ++ " already processed"] else []
  match found with
  | none => ⟨false, duplicate ++ ["purchase order not found: " ++ py.repr (.str fields.poNumber)], none⟩
  | some po =>
    let reasons := duplicate ++ mismatchReasons py exceedsTolerance fields po
    ⟨reasons = [], reasons, some po⟩

/-- A validation is the verdict on the fields by the rows that the run fetched. -/
def Validated (course : Course) (fields : InvoiceFields) (validation : ValidationResult) : Prop :=
  ∃ rows items found, course.rows = some rows ∧ rows.iterate = .ok items ∧
    findPo py fields.poNumber items = .ok found ∧ validation = verdict py exceedsTolerance seen fields found

/-- The run extracted the fields and validated them. -/
structure Examined (course : Course) (fields : InvoiceFields) (validation : ValidationResult) : Prop where
  extracted : course.fields = some fields
  validated : Validated py exceedsTolerance seen course fields validation

/-- The payload of the interrupt of fields and their validation. -/
def entryPayload (fields : InvoiceFields) (validation : ValidationResult) : Json :=
  draftEntryPayload (.obj fields.asDict) validation.asDict

/-- The interrupt of an entry was shown and approved. -/
def ApprovedEntry (course : Course) (fields : InvoiceFields) (validation : ValidationResult) : Prop :=
  ∃ decision, course.shown = some (entryPayload fields validation) ∧ course.decision = some decision ∧ isApproval decision

/-- An entry may be made: of the fields that the run extracted, shown with their validation and approved, and the first
that the run asks for. -/
def MayEnter (course : Course) (args : Dict) : Prop :=
  ∃ fields validation, args = InvoiceFields.asDict fields ∧ Examined py exceedsTolerance seen course fields validation ∧
    ApprovedEntry course fields validation ∧ course.asked = false

/-- An interrupt may be shown: of the fields that the run extracted, beside their validation. -/
def MayShow (course : Course) (payload : Json) : Prop :=
  ∃ fields validation, payload = entryPayload fields validation ∧ Examined py exceedsTolerance seen course fields validation

/-! ## What each node relies on -/

/-- The state holds the fields that the run extracted. -/
def HasFields (values : Dict) (course : Course) (fields : InvoiceFields) : Prop :=
  Json.get? values "fields" = some (.obj fields.asDict) ∧ course.fields = some fields

/-- The state holds the fields and their validation. -/
structure HasVerdict (values : Dict) (course : Course) (fields : InvoiceFields) (validation : ValidationResult) : Prop where
  kept : Json.get? values "fields" = some (.obj fields.asDict)
  judged : Json.get? values "validation" = some validation.asDict
  examined : Examined py exceedsTolerance seen course fields validation

/-- What each node relies on. -/
def relies (resume : Option Json) (node : Node) (values : Dict) (course : Course) : Prop :=
  match node with
  | .killswitchGate | .ocr | .extractFields => course.asked = false
  | .validate => (∃ fields, HasFields values course fields) ∧ course.asked = false
  | .hitl => ∃ fields validation, HasVerdict py exceedsTolerance seen values course fields validation ∧
      course.asked = false ∧ ∀ decision, resume = some decision →
        course.shown = some (entryPayload fields validation) ∧ course.decision = some decision
  | .createDraftEntry => ∃ fields validation, HasVerdict py exceedsTolerance seen values course fields validation ∧
      course.asked = false ∧ ApprovedEntry course fields validation
  | .finish => True

/-- What a checkpoint keeps: one at the interrupt that it was shown and is not decided. -/
def keeps (node : Node) (values : Dict) (course : Course) : Prop :=
  match node with
  | .hitl => ∃ fields validation, HasVerdict py exceedsTolerance seen values course fields validation ∧
      course.asked = false ∧ course.shown = some (entryPayload fields validation) ∧ course.decision = none
  | node => relies py exceedsTolerance seen none node values course

/-- How far a node is from the end. -/
def rank : Node → ℕ
  | .killswitchGate => 6
  | .ocr => 5
  | .extractFields => 4
  | .validate => 3
  | .hitl => 2
  | .createDraftEntry => 1
  | .finish => 0

/-- What the graph promises. -/
def contract : Contract Node Course where
  allowed course c :=
    match c with
    | .tool _ tool args => tool = erpCreateDraftEntry → MayEnter py exceedsTolerance seen course args
    | _ => True
  shows := MayShow py exceedsTolerance seen
  asks node := node = .hitl
  relies := relies py exceedsTolerance seen
  keeps := keeps py exceedsTolerance seen
  rank := rank

/-- Each entry of a history is one that its run may make, and was shown and approved. -/
def EntersAsApproved (history : List Deed) : Prop :=
  ∀ earlier later caller args reply, history = earlier ++ .called ⟨.tool caller erpCreateDraftEntry args, reply⟩ :: later →
    MayEnter py exceedsTolerance seen (tracked (courseTracker py) earlier).live args ∧
      ∃ fields validation, args = InvoiceFields.asDict fields ∧
        ApprovedWhenShown earlier (entryPayload fields validation)

/-- Each interrupt of a history shows what its run extracted, beside the validation of it. -/
def ShowsExamined (history : List Deed) : Prop :=
  ∀ earlier later values payload, history = earlier ++ .stopped (.ok ⟨values, some payload⟩) :: later →
    MayShow py exceedsTolerance seen (tracked (courseTracker py) earlier).live payload

end Courses

/-! ## Nodes -/

section Nodes

variable {py : Builtins} {exceedsTolerance : PyFloat → PyFloat → Bool} {seen : List String} {actor : Actor}
  {killswitch : Option KillSwitch} {values : Dict} {course : Course} {resume : Option Json} {fields : InvoiceFields}
  {validation : ValidationResult}

/-- Quiet calls are allowed. -/
theorem allowed_quiet (course' : Course) (c : Call) (hc : Quiet c) :
    (contract py exceedsTolerance seen).allowed course' c := by
  cases c <;> trivial

/-- Quiet calls make nothing known. -/
theorem note_quiet (course' : Course) (c : Call) (reply : Except Exc (Reply c)) (hc : Quiet c) :
    (courseTracker py).note course' ⟨c, reply⟩ = course' := by
  cases c <;> first | rfl | exact hc.elim

/-- What was examined is examined whatever becomes of the interrupt. -/
theorem Examined.congr {course' : Course} (h : Examined py exceedsTolerance seen course fields validation)
    (hfields : course'.fields = course.fields) (hrows : course'.rows = course.rows) :
    Examined py exceedsTolerance seen course' fields validation := by
  obtain ⟨rows, items, found, hfetched, hitems, hfound, hverdict⟩ := h.validated
  exact ⟨hfields.trans h.extracted, rows, items, found, hrows.trans hfetched, hitems, hfound, hverdict⟩

/-- Reading the text off the image makes nothing known. -/
theorem ensures_ocrNode : (runProtocol (courseTracker py) (contract py exceedsTolerance seen)).Ensures
    (fun result course' => course' = course ∧ ∀ outcome, result = .ok outcome → ∃ text, outcome = .wrote [("ocr_text", text)])
    (ocrNode actor values) course := by
  apply Protocol.ensures_ofExcept_bind
  · exact fun error _ => ⟨rfl, fun outcome houtcome => by cases houtcome⟩
  · intro image _
    apply Protocol.ensures_call_bind
    · exact fun hother => absurd hother (by decide)
    · intro reply course' hcourse
      obtain rfl : course' = course := hcourse
      cases reply with
      | error error => exact ⟨rfl, fun outcome houtcome => by cases houtcome⟩
      | ok result =>
        apply Protocol.ensures_ofExcept_bind
        · exact fun error _ => ⟨rfl, fun outcome houtcome => by cases houtcome⟩
        · exact fun text _ => ⟨rfl, fun outcome houtcome => ⟨text, (Except.ok.inj houtcome).symm⟩⟩

/-- The fields that are extracted are known, or there is a reason why there are none. -/
theorem ensures_extractFields : (runProtocol (courseTracker py) (contract py exceedsTolerance seen)).Ensures
    (fun result course' => course'.asked = course.asked ∧ ∀ outcome, result = .ok outcome →
      (∃ fields, outcome = .wrote [("fields", .obj (InvoiceFields.asDict fields))] ∧ course'.fields = some fields) ∨
        ∃ message : String, outcome = .wrote [("blocked_reason", .str ("field extraction failed: " ++ message))])
    (extractFields py actor values) course := by
  apply Protocol.ensures_ofExcept_bind
  · exact fun error _ => ⟨rfl, fun outcome houtcome => by cases houtcome⟩
  · intro ocrText _
    have hextract : (runProtocol (courseTracker py) (contract py exceedsTolerance seen)).Ensures
        (fun result course' => course'.asked = course.asked ∧ ∀ fields, result = .ok fields → course'.fields = some fields)
        (extractInvoiceFields py actor ocrText) course := by
      apply Protocol.ensures_call_bind trivial
      intro reply course' hcourse
      rw [hcourse]
      cases reply with
      | error error => exact ⟨rfl, fun fields hfields => by cases hfields⟩
      | ok response =>
        apply Protocol.ensures_ofExcept.mpr
        refine ⟨rfl, ?_⟩
        intro fields hfields
        show (parseFields py response.content).toOption = some fields
        rw [hfields]
        rfl
    apply Protocol.ensures_bind.mpr
    apply Protocol.ensures_attempt.mpr
    apply hextract.mono
    intro result course' hresult
    match result with
    | .ok fields =>
      exact ⟨hresult.1, fun outcome houtcome => .inl ⟨fields, (Except.ok.inj houtcome).symm, hresult.2 fields rfl⟩⟩
    | .error error =>
      show Protocol.Ensures _ _ (if error.kind = .parseError then _ else _) _
      split
      · exact ⟨hresult.1, fun outcome houtcome => .inr ⟨error.message, (Except.ok.inj houtcome).symm⟩⟩
      · exact ⟨hresult.1, fun outcome houtcome => by cases houtcome⟩

/-- The fields are read back from the state. -/
theorem stateFields_of_hasFields (h : HasFields values course fields) : stateFields values = .ok fields := by
  rw [stateFields, Json.field, h.1]
  rfl

/-- The validation is the verdict on the fields by the rows that are fetched. -/
theorem ensures_validate (h : HasFields values course fields) :
    (runProtocol (courseTracker py) (contract py exceedsTolerance seen)).Ensures
      (fun result course' => course'.asked = course.asked ∧ ∀ outcome, result = .ok outcome →
        ∃ validation, outcome = .wrote [("validation", ValidationResult.asDict validation)] ∧
          Examined py exceedsTolerance seen course' fields validation)
      (validate py exceedsTolerance actor seen values) course := by
  rw [validate, stateFields_of_hasFields h]
  simp only [Prog.ofExcept_ok, Prog.done_bind]
  apply Protocol.ensures_bind.mpr
  apply Protocol.ensures_bind.mpr
  apply Protocol.ensures_call_bind
  · exact fun hother => absurd hother (by decide)
  · intro reply course' hcourse
    obtain rfl : course' = { course with rows := reply.toOption } := hcourse
    cases reply with
    | error error => exact ⟨rfl, fun outcome houtcome => by cases houtcome⟩
    | ok rows =>
      apply Protocol.ensures_ofExcept_bind
      · exact fun error _ => ⟨rfl, fun outcome houtcome => by cases houtcome⟩
      · intro items hitems
        apply Protocol.ensures_ofExcept.mpr
        cases hfound : findPo py fields.poNumber items with
        | error error => exact ⟨rfl, fun outcome houtcome => by cases houtcome⟩
        | ok found =>
          have hexamined : Examined py exceedsTolerance seen { course with rows := some rows } fields
              (verdict py exceedsTolerance seen fields found) :=
            ⟨h.2, rows, items, found, rfl, hitems, hfound, rfl⟩
          cases found with
          | none => exact ⟨rfl, fun outcome houtcome => ⟨_, (Except.ok.inj houtcome).symm, hexamined⟩⟩
          | some po => exact ⟨rfl, fun outcome houtcome => ⟨_, (Except.ok.inj houtcome).symm, hexamined⟩⟩

/-- The interrupt shows the fields and their validation; a decision on it is taken as it is. -/
theorem hitl_eq (h : HasVerdict py exceedsTolerance seen values course fields validation) :
    hitl py resume values = interrupt (entryPayload fields validation) resume rejectUnlessApproved := by
  have hfields : Json.field values "fields" = .ok (.obj fields.asDict) := by rw [Json.field, h.kept]
  have hvalidation : Json.field values "validation" = .ok validation.asDict := by rw [Json.field, h.judged]
  rw [hitl, assertRequiresApproval_external py rfl, hfields, hvalidation]
  rfl

/-- A resumed interrupt goes on to the entry only with an approval. -/
theorem ensures_hitl {decision : Json} (h : relies py exceedsTolerance seen (some decision) .hitl values course) :
    (runProtocol (courseTracker py) (contract py exceedsTolerance seen)).Ensures
      ((contract py exceedsTolerance seen).Leaves (graph py exceedsTolerance actor killswitch seen) .hitl values)
      (hitl py (some decision) values) course := by
  obtain ⟨fields, validation, hverdict, hasked, hdecided⟩ := h
  obtain ⟨hshown, hdecision⟩ := hdecided decision rfl
  rw [hitl_eq hverdict, interrupt]
  apply Protocol.ensures_ofExcept_bind
  · exact fun error _ => trivial
  · intro writes hwrites next hroute
    have hnext : (if Json.flag (Json.merge values writes) "rejected" then Node.finish else .createDraftEntry) = next :=
      Option.some.inj (Except.ok.inj hroute)
    rw [← hnext]
    rcases rejectUnlessApproved_inv hwrites with rfl | ⟨rfl, happroval⟩
    · rw [Json.merge_cons, Json.merge_nil, Json.flag_insert_self]
      exact ⟨trivial, .inr trivial⟩
    · rw [Json.merge_nil]
      split
      · exact ⟨trivial, .inr trivial⟩
      · have henter : relies py exceedsTolerance seen none .createDraftEntry values course :=
          ⟨fields, validation, hverdict, hasked, decision, hshown, hdecision, happroval⟩
        exact ⟨henter, .inr henter⟩

/-- The entry is the one that was shown and approved. -/
theorem ensures_createDraftEntry (h : relies py exceedsTolerance seen none .createDraftEntry values course) :
    (runProtocol (courseTracker py) (contract py exceedsTolerance seen)).Ensures
      (fun result _ => ∀ outcome, result = .ok outcome → ∃ writes, outcome = .wrote writes)
      (createDraftEntry actor values) course := by
  obtain ⟨fields, validation, hverdict, hasked, happroved⟩ := h
  have hfields : Json.field values "fields" = .ok (.obj fields.asDict) := by rw [Json.field, hverdict.kept]
  have hargs : draftEntryArgs (.obj fields.asDict) = .ok fields.asDict := rfl
  rw [createDraftEntry, hfields]
  simp only [Prog.ofExcept_ok, Prog.done_bind, hargs]
  apply Protocol.ensures_call_bind
  · exact fun _ => ⟨fields, validation, rfl, hverdict.examined, happroved, hasked⟩
  · intro reply course' _
    cases reply with
    | error error => exact fun outcome houtcome => by cases houtcome
    | ok result => exact fun outcome houtcome => ⟨_, (Except.ok.inj houtcome).symm⟩

/-- Every node leaves what the next one relies on. -/
theorem ensures_node (node : Node) (hacts : (contract py exceedsTolerance seen).asks node = true → resume ≠ none)
    (h : relies py exceedsTolerance seen resume node values course) :
    (runProtocol (courseTracker py) (contract py exceedsTolerance seen)).Ensures
      ((contract py exceedsTolerance seen).Leaves (graph py exceedsTolerance actor killswitch seen) node values)
      ((graph py exceedsTolerance actor killswitch seen).body node resume values) course := by
  cases node with
  | killswitchGate =>
    apply (ensures_gate allowed_quiet note_quiet killswitch agentName).mono
    intro result course' hresult
    cases result with
    | error error => trivial
    | ok outcome =>
      have hwrote : ∃ writes, outcome = .wrote writes := by
        rcases hresult.2 outcome rfl with hwrote | hwrote
        · exact ⟨_, hwrote⟩
        · exact ⟨_, hwrote⟩
      obtain ⟨writes, rfl⟩ := hwrote
      intro next hroute
      have hnext : (if Json.flag (Json.merge values writes) "paused" then none else some Node.ocr) = some next :=
        Except.ok.inj hroute
      have hasked : course'.asked = false := by
        rw [hresult.1]
        exact h
      split at hnext
      · cases hnext
      · cases hnext
        exact ⟨hasked, .inr hasked⟩
  | ocr =>
    apply ensures_ocrNode.mono
    intro result course' hresult
    obtain ⟨rfl, hresult⟩ := hresult
    cases result with
    | error error => trivial
    | ok outcome =>
      obtain ⟨text, rfl⟩ := hresult outcome rfl
      intro next hroute
      cases hroute
      exact ⟨h, .inr h⟩
  | extractFields =>
    apply ensures_extractFields.mono
    intro result course' hresult
    cases result with
    | error error => trivial
    | ok outcome =>
      rcases hresult.2 outcome rfl with ⟨fields, rfl, hextracted⟩ | ⟨message, rfl⟩
      · intro next hroute
        have hnext : (if Json.flag (Json.merge values [("fields", .obj fields.asDict)]) "blocked_reason" then Node.finish
            else .validate) = next := Option.some.inj (Except.ok.inj hroute)
        rw [← hnext]
        split
        · exact ⟨trivial, .inr trivial⟩
        · have hvalidate : relies py exceedsTolerance seen none .validate
              (Json.merge values [("fields", .obj fields.asDict)]) course' := by
            refine ⟨⟨fields, ?_, hextracted⟩, hresult.1.trans h⟩
            rw [Json.merge_cons, Json.merge_nil, Json.get?_insert, if_pos rfl]
          exact ⟨hvalidate, .inr hvalidate⟩
      · intro next hroute
        have hnext : (if Json.flag (Json.merge values [("blocked_reason", .str ("field extraction failed: " ++ message))])
            "blocked_reason" then Node.finish else .validate) = next := Option.some.inj (Except.ok.inj hroute)
        rw [Json.merge_cons, Json.merge_nil, Json.flag_insert_self, Json.truthy, if_pos (by simp)] at hnext
        rw [← hnext]
        exact ⟨trivial, .inr trivial⟩
  | validate =>
    obtain ⟨⟨fields, hfields⟩, hasked⟩ := h
    apply (ensures_validate hfields).mono
    intro result course' hresult
    cases result with
    | error error => trivial
    | ok outcome =>
      obtain ⟨validation, rfl, hexamined⟩ := hresult.2 outcome rfl
      intro next hroute
      cases hroute
      have hkept : Json.get? (Json.merge values [("validation", validation.asDict)]) "fields" = some (.obj fields.asDict) := by
        rw [Json.merge_cons, Json.merge_nil, Json.get?_insert, if_neg (by decide)]
        exact hfields.1
      have hverdict : Json.get? (Json.merge values [("validation", validation.asDict)]) "validation" =
          some validation.asDict := by
        rw [Json.merge_cons, Json.merge_nil, Json.get?_insert, if_pos rfl]
      exact ⟨⟨fields, validation, ⟨hkept, hverdict, hexamined⟩, hresult.1.trans hasked,
        fun decision hresume => by cases hresume⟩, .inl rfl⟩
  | hitl =>
    cases resume with
    | none => exact absurd rfl (hacts rfl)
    | some decision => exact ensures_hitl h
  | createDraftEntry =>
    apply (ensures_createDraftEntry h).mono
    intro result course' hresult
    cases result with
    | error error => trivial
    | ok outcome =>
      obtain ⟨writes, rfl⟩ := hresult outcome rfl
      intro next hroute
      cases hroute
      exact ⟨trivial, .inr trivial⟩
  | finish =>
    intro next hroute
    cases hroute

end Nodes

/-- The course of a run includes the last interrupt and the first decision on it. -/
theorem courseTracker_records (py : Builtins) : (courseTracker py).Records Course.shown Course.decision where
  fresh := rfl
  note course event := by
    obtain ⟨c, reply⟩ := event
    cases c with
    | tool caller tool args =>
      simp only [courseTracker, Course.note]
      split
      · exact ⟨rfl, rfl⟩
      · split <;> exact ⟨rfl, rfl⟩
    | llm caller method messages kwargs => cases reply <;> exact ⟨rfl, rfl⟩
    | _ => exact ⟨rfl, rfl⟩
  showing _ _ := ⟨rfl, rfl⟩
  deciding course decision := by
    simp only [courseTracker]
    split <;> exact ⟨rfl, rfl⟩

/-! ## Sessions -/

section Sessions

variable {py : Builtins} {exceedsTolerance : PyFloat → PyFloat → Bool} {seen : List String} {actor : Actor}
  {killswitch : Option KillSwitch}

/-- A decision says nothing about what was examined. -/
theorem decided_work (course : Course) (decision : Json) :
    ((courseTracker py).decided course decision).fields = course.fields ∧
      ((courseTracker py).decided course decision).rows = course.rows ∧
      ((courseTracker py).decided course decision).asked = course.asked := by
  simp only [courseTracker]
  split <;> exact ⟨rfl, rfl, rfl⟩

/-- A decision on a kept checkpoint is the one that its node relies on. -/
theorem relies_decided {node : Node} {values : Dict} {course : Course} (decision : Json)
    (h : keeps py exceedsTolerance seen node values course) :
    relies py exceedsTolerance seen (some decision) node values ((courseTracker py).decided course decision) := by
  obtain ⟨hfields, hrows, hasked⟩ := @decided_work py course decision
  cases node with
  | killswitchGate | ocr | extractFields => exact hasked.trans h
  | validate =>
    obtain ⟨⟨fields, hvalue, hextracted⟩, hopen⟩ := h
    exact ⟨⟨fields, hvalue, hfields.trans hextracted⟩, hasked.trans hopen⟩
  | hitl =>
    obtain ⟨fields, validation, hvalues, hopen, hshown, hwaits⟩ := h
    refine ⟨fields, validation, ⟨hvalues.kept, hvalues.judged, hvalues.examined.congr hfields hrows⟩,
      hasked.trans hopen, ?_⟩
    intro given hgiven
    rw [← Option.some.inj hgiven]
    simp [courseTracker, hshown, hwaits]
  | createDraftEntry =>
    obtain ⟨fields, validation, hvalues, hopen, held, hshown, hheld, happroval⟩ := h
    have hdecided : (courseTracker py).decided course decision = course := by simp [courseTracker, hheld]
    rw [hdecided]
    exact ⟨fields, validation, hvalues, hopen, held, hshown, hheld, happroval⟩
  | finish => trivial

/-- The interrupt of fields and their validation. -/
theorem asks_interrupt {values : Dict} {course : Course} (h : relies py exceedsTolerance seen none .hitl values course) :
    ∃ payload, hitl py none values = .done (.interrupted payload) ∧ MayShow py exceedsTolerance seen course payload ∧
      keeps py exceedsTolerance seen .hitl values ((courseTracker py).shown course payload) := by
  obtain ⟨fields, validation, hverdict, hasked, -⟩ := h
  refine ⟨entryPayload fields validation, ?_, ⟨fields, validation, rfl, hverdict.examined⟩, ?_⟩
  · rw [hitl_eq hverdict]
    rfl
  · exact ⟨fields, validation, ⟨hverdict.kept, hverdict.judged, hverdict.examined.congr rfl rfl⟩, hasked, rfl, rfl⟩

variable (py exceedsTolerance seen actor killswitch)

/-- The graph meets its contract. -/
theorem graph_met :
    (contract py exceedsTolerance seen).Met (courseTracker py) (graph py exceedsTolerance actor killswitch seen) where
  store course c hc := by
    cases c <;> trivial
  inward node resume values := by
    apply (only_body py exceedsTolerance actor killswitch seen node resume values).mono
    intro c hc hstore
    cases c <;> first | exact hc | exact hstore
  entry := rfl
  enters _ := ⟨rfl, rfl⟩
  resumes _ _ _ decision h := relies_decided decision h
  asking node values course hasks h := by
    cases node with
    | hitl => exact asks_interrupt h
    | _ => cases hasks
  acting node resume values course hacts h := ensures_node node hacts h
  descends node values next hroute := by
    show rank next < rank node
    cases node with
    | killswitchGate =>
      have hnext : (if Json.flag values "paused" then none else some Node.ocr) = some next := Except.ok.inj hroute
      split at hnext <;> cases hnext
      decide
    | ocr | validate | createDraftEntry =>
      cases hroute
      decide
    | extractFields | hitl =>
      rw [← Option.some.inj (Except.ok.inj hroute)]
      split <;> decide
    | finish => cases hroute
  bounded node := by
    show rank node < recursionLimit
    cases node <;> decide

end Sessions

end FleetWorkflow.Agents.InvoiceAgent
