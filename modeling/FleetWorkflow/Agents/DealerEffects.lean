import FleetWorkflow.Agents.DealerOnboarding
import FleetWorkflow.Agents.Sessions

/-!
# Effects of dealer onboarding

One run of the dealer onboarding graph on its thread, resumed with any decisions. Whatever the application, the
documents, the texts read off them and the model's reply are, and whichever calls fail: an e-mail is the message that was
shown at the interrupt and approved, it asks for each missing item once, and the application is moved only as the
cross-check says.
-/

namespace FleetWorkflow.Agents.DealerOnboarding

open Python Async Core Flow

/-! ## What is missing -/

/-- What an application has to bring. -/
inductive Item where
  | authorizationCertificate
  | taxRegistration
  | companyName
  | taxNo
deriving DecidableEq

/-- How the applicant is asked for an item. -/
def Item.label : Item → String
  | .authorizationCertificate => "Yetki Belgesi"
  | .taxRegistration => "Vergi Levhası"
  | .companyName => "Belge üzerindeki ticari unvan"
  | .taxNo => "Vergi Kimlik Numarası"

/-- An item is missing: no document of the kind was submitted, or the documents did not yield the field. -/
def Item.Missing (kinds : List Json) (dossier : DealerDossier) : Item → Prop
  | .authorizationCertificate => Json.str "authorization_certificate" ∉ kinds
  | .taxRegistration => Json.str "tax_registration" ∉ kinds
  | .companyName => dossier.companyName = none
  | .taxNo => dossier.taxNo = none

/-- A list has each missing item once, and nothing else. -/
def AsksForMissing (kinds : List Json) (dossier : DealerDossier) (labels : List String) : Prop :=
  ∃ items : List Item, items.Nodup ∧ (∀ item, item ∈ items ↔ item.Missing kinds dossier) ∧ labels = items.map Item.label

section Checks

variable {py : Builtins} {reading : Reading} {application : Json} {kinds : List Json} {dossier : DealerDossier}
  {check : CrossCheck}

/-- A text is found among kinds when it is one of them. -/
theorem any_eqStr (kinds : List Json) (text : String) : kinds.any (·.eqStr text) = true ↔ Json.str text ∈ kinds := by
  rw [List.any_eq_true]
  constructor
  · intro h
    obtain ⟨kind, hkind, htext⟩ := h
    cases kind with
    | str s =>
      have hs : s = text := by simpa [Json.eqStr] using htext
      rw [← hs]
      exact hkind
    | _ => simp [Json.eqStr] at htext
  · intro h
    exact ⟨_, h, by simp [Json.eqStr]⟩

/-- What the cross-check is about. -/
def CheckOf (py : Builtins) (reading : Reading) (application : Json) (kinds : List Json) (dossier : DealerDossier)
    (check : CrossCheck) : Prop :=
  crossCheck py reading application kinds (textOrNull dossier.companyName) (dossier.missingFields.map .str) = .ok check

/-- The missing items, documents first. -/
def missingItems (kinds : List Json) (dossier : DealerDossier) : List Item :=
  (if kinds.any (·.eqStr "authorization_certificate") then [] else [.authorizationCertificate]) ++
  (if kinds.any (·.eqStr "tax_registration") then [] else [.taxRegistration]) ++
  (if dossier.companyName = none then [.companyName] else []) ++
  (if dossier.taxNo = none then [.taxNo] else [])

/-- The missing items are those that are missing. -/
theorem mem_missingItems (item : Item) : item ∈ missingItems kinds dossier ↔ item.Missing kinds dossier := by
  simp only [missingItems, List.mem_append]
  cases item <;> simp only [Item.Missing, ← any_eqStr] <;> split <;> simp_all

/-- No item is listed twice. -/
theorem nodup_missingItems : (missingItems kinds dossier).Nodup := by
  simp only [missingItems]
  split <;> split <;> split <;> split <;> decide

/-- What a cross-check finds. -/
theorem CheckOf.inv (h : CheckOf py reading application kinds dossier check) :
    check.missingDocuments = requiredDocuments.filter (fun kind => !kinds.any (·.eqStr kind)) ∧
      check.missingFields = dossier.missingFields.map .str ∧ ∃ fields, application = .obj fields := by
  obtain ⟨name, hname, h⟩ := bind_eq_ok.mp h
  obtain ⟨mismatch, -, h⟩ := bind_eq_ok.mp h
  rw [← Except.ok.inj h]
  refine ⟨rfl, rfl, ?_⟩
  cases application with
  | obj fields => exact ⟨fields, rfl⟩
  | _ => cases hname

/-- The labels of what a cross-check found missing. -/
theorem CheckOf.labels (h : CheckOf py reading application kinds dossier check) :
    missingItemLabels py (check.missingDocuments.map .str) check.missingFields =
      .ok ((missingItems kinds dossier).map Item.label) := by
  rw [h.inv.1, h.inv.2.1]
  obtain ⟨companyName, taxNo, iban, certificateNo⟩ := dossier
  simp only [missingItems, requiredDocuments, DealerDossier.missingFields, List.filter_cons, List.filter_nil]
  cases kinds.any (·.eqStr "authorization_certificate") <;> cases kinds.any (·.eqStr "tax_registration") <;>
    cases companyName <;> cases taxNo <;> rfl

/-- A dossier is complete when no item is missing. -/
theorem CheckOf.complete_iff (h : CheckOf py reading application kinds dossier check) :
    check.complete = true ↔ missingItems kinds dossier = [] := by
  rw [CrossCheck.complete, h.inv.1, h.inv.2.1]
  obtain ⟨companyName, taxNo, iban, certificateNo⟩ := dossier
  simp only [missingItems, requiredDocuments, DealerDossier.missingFields, List.filter_cons, List.filter_nil]
  cases kinds.any (·.eqStr "authorization_certificate") <;> cases kinds.any (·.eqStr "tax_registration") <;>
    cases companyName <;> cases taxNo <;> simp

/-- The message for an incomplete dossier can be composed, and asks for what is missing. -/
theorem CheckOf.renders (h : CheckOf py reading application kinds dossier check) (hmissing : check.complete = false) :
    ∃ message, renderMissingDocsEmail py application (check.missingDocuments.map .str) check.missingFields = .ok message ∧
      AsksForMissing kinds dossier message.missingItems := by
  obtain ⟨fields, rfl⟩ := h.inv.2.2
  have hitems : ((missingItems kinds dossier).map Item.label).isEmpty = false := by
    rw [List.isEmpty_map, List.isEmpty_eq_false_iff]
    intro hempty
    rw [h.complete_iff.mpr hempty] at hmissing
    cases hmissing
  rw [renderMissingDocsEmail, h.labels]
  simp only [bind, Except.bind, hitems, Bool.false_eq_true, if_false]
  exact ⟨_, rfl, missingItems kinds dossier, nodup_missingItems, mem_missingItems, rfl⟩

/-- The names of a consistent dossier agree. -/
theorem CheckOf.names {name other : String} (h : CheckOf py reading application kinds dossier check)
    (hmismatch : check.nameMismatch = false) (hname : dossier.companyName = some name) (hfilled : name ≠ "")
    (hother : applicationName py application = .ok (some other)) :
    other = "" ∨ reading.normalizeCompanyName name = reading.normalizeCompanyName other := by
  obtain ⟨found, hfound, h⟩ := bind_eq_ok.mp h
  obtain rfl : some other = found := Except.ok.inj (hother.symm.trans hfound)
  obtain ⟨mismatch, hdiffer, h⟩ := bind_eq_ok.mp h
  rw [← Except.ok.inj h] at hmismatch
  obtain rfl : mismatch = false := hmismatch
  rw [hname] at hdiffer
  by_cases hempty : other = ""
  · exact .inl hempty
  · right
    simpa [namesDiffer, textOrNull, Json.truthy, hfilled, hempty] using hdiffer

end Checks

/-! ## What is known of a run -/

/-- What is known of a run: the application that it fetched, the model's reply, whether an e-mail has gone out, the
interrupt that it showed and the decision on it. -/
structure Course where
  application : Option Json
  reply : Option String
  sent : Bool
  shown : Option Json
  decision : Option Json

/-- An application comes with the fetch, a reply with the model call, and a decision is on an interrupt that waits for
one. -/
def courseTracker : Tracker Course where
  fresh := ⟨none, none, false, none, none⟩
  note course event :=
    match event with
    | ⟨.tool _ tool _, .ok value⟩ =>
      if tool = crmGetApplication then { course with application := some value }
      else if tool = emailSend then { course with sent := true }
      else course
    | ⟨.llm _ _ _ _, .ok response⟩ => { course with reply := some response.content }
    | _ => course
  shown course payload := { course with shown := some payload, decision := none }
  decided course decision :=
    if course.shown.isSome && course.decision.isNone then { course with decision := some decision } else course

section Contract

variable (py : Builtins) (reading : Reading) (start : Dict)

/-- The dossier of a run: what its reply is read as, or an empty one when the model was not asked. -/
def Course.HasDossier (course : Course) (dossier : DealerDossier) : Prop :=
  match course.reply with
  | some text => reading.parseDossier text = .ok dossier
  | none => dossier = ⟨none, none, none, none⟩

/-- What a run found about its application: the cross-check of the application that it fetched, the kinds of the
documents that it started with and the dossier. -/
structure Found (course : Course) (application : Json) (kinds : List Json) (dossier : DealerDossier)
    (check : CrossCheck) : Prop where
  fetched : course.application = some application
  submitted : documentKinds start = .ok kinds
  extracted : course.HasDossier reading dossier
  checked : CheckOf py reading application kinds dossier check

/-- The arguments of a message. -/
def MissingDocsEmail.args (message : MissingDocsEmail) : Dict :=
  [("to", .str message.recipient), ("subject", .str message.subject), ("body", .str message.body)]

/-- The interrupt of a message. -/
def MissingDocsEmail.payload (message : MissingDocsEmail) (dossier : DealerDossier) : Json :=
  emailPayload message.args (.arr (message.missingItems.map .str)) dossier.asDict

/-- A message is the one for what a run found: nothing else is wrong, and it asks for what is missing. -/
def Asking (course : Course) (message : MissingDocsEmail) (dossier : DealerDossier) : Prop :=
  ∃ application kinds check, Found py reading start course application kinds dossier check ∧
    check.nameMismatch = false ∧ check.complete = false ∧ AsksForMissing kinds dossier message.missingItems ∧
      renderMissingDocsEmail py application (check.missingDocuments.map .str) check.missingFields = .ok message

/-- An e-mail may be sent: the message that was shown and approved. -/
def MaySend (course : Course) (args : Dict) : Prop :=
  ∃ message dossier decision, Asking py reading start course message dossier ∧ args = message.args ∧
    course.shown = some (message.payload dossier) ∧ course.decision = some decision ∧ isApproval decision

/-- The application may be moved: to a review with a mismatch, to the sales with a complete and consistent dossier, and
to waiting for documents after a message. -/
def MayMove (course : Course) (args : Dict) : Prop :=
  ∃ applicationId status note application kinds dossier check,
    args = [("application_id", applicationId), ("status", .str status), ("note", .str note)] ∧
      Found py reading start course application kinds dossier check ∧
      (status = "manual_review" ∧ check.nameMismatch = true ∨
        status = "ready_for_sales" ∧ check.complete = true ∧ check.nameMismatch = false ∨
        status = "awaiting_documents" ∧ course.sent = true)

/-! ## States -/

/-- The state holds the documents that the run started with. -/
def HasDocuments (values : Dict) : Prop := Json.get? values "documents" = Json.get? start "documents"

/-- The state holds the application that was fetched. -/
structure Fetched (values : Dict) (course : Course) (application : Json) : Prop where
  documents : HasDocuments start values
  held : Json.get? values "application" = some application
  known : course.application = some application

/-- The state holds the dossier that was read. -/
structure Extracted (values : Dict) (course : Course) (application : Json) (dossier : DealerDossier) : Prop where
  fetched : Fetched start values course application
  held : Json.get? values "dossier" = some dossier.asDict
  known : course.HasDossier reading dossier

/-- The state holds the cross-check. -/
structure Checked (values : Dict) (course : Course) (application : Json) (dossier : DealerDossier)
    (check : CrossCheck) : Prop where
  extracted : Extracted reading start values course application dossier
  held : Json.get? values "check" = some check.asDict
  found : ∃ kinds, Found py reading start course application kinds dossier check

/-- The message as the state holds it. -/
def MissingDocsEmail.json (message : MissingDocsEmail) : Json :=
  .obj [("to", .str message.recipient), ("subject", .str message.subject), ("body", .str message.body),
    ("missing_items", .arr (message.missingItems.map .str))]

/-- The state holds the message. -/
structure Composed (values : Dict) (course : Course) (message : MissingDocsEmail) (dossier : DealerDossier) : Prop where
  email : Json.get? values "email" = some message.json
  held : Json.get? values "dossier" = some dossier.asDict
  asking : Asking py reading start course message dossier

/-- What each node relies on. -/
def relies (resume : Option Json) (node : Node) (values : Dict) (course : Course) : Prop :=
  match node with
  | .killswitchGate | .fetchApplication => HasDocuments start values ∧ course.reply = none
  | .ocr | .extract => ∃ application, Fetched start values course application ∧ course.reply = none
  | .crosscheck => ∃ application dossier, Extracted reading start values course application dossier
  | .flag => ∃ application dossier check, Checked py reading start values course application dossier check ∧
      check.nameMismatch = true
  | .handoff => ∃ application dossier check, Checked py reading start values course application dossier check ∧
      check.complete = true ∧ check.nameMismatch = false
  | .composeEmail => ∃ application dossier check, Checked py reading start values course application dossier check ∧
      check.complete = false ∧ check.nameMismatch = false
  | .hitl => ∃ message dossier, Composed py reading start values course message dossier ∧ ∀ decision,
      resume = some decision → course.shown = some (message.payload dossier) ∧ course.decision = some decision
  | .sendEmail => ∃ message dossier decision, Composed py reading start values course message dossier ∧
      course.shown = some (message.payload dossier) ∧ course.decision = some decision ∧ isApproval decision
  | .finish => True

/-- What a checkpoint keeps: one at the interrupt that it was shown and is not decided. -/
def keeps (node : Node) (values : Dict) (course : Course) : Prop :=
  match node with
  | .hitl => ∃ message dossier, Composed py reading start values course message dossier ∧
      course.shown = some (message.payload dossier) ∧ course.decision = none
  | node => relies py reading start none node values course

/-- How far a node is from the end. -/
def rank : Node → ℕ
  | .killswitchGate => 9
  | .fetchApplication => 8
  | .ocr => 7
  | .extract => 6
  | .crosscheck => 5
  | .composeEmail => 4
  | .hitl => 3
  | .sendEmail => 2
  | .flag => 1
  | .handoff => 1
  | .finish => 0

/-- What the graph promises. -/
def contract : Contract Node Course where
  allowed course c :=
    match c with
    | .tool _ tool args => (tool = emailSend → MaySend py reading start course args) ∧
        (tool = crmUpdateStatus → MayMove py reading start course args)
    | _ => True
  shows course payload := ∃ message dossier, Asking py reading start course message dossier ∧
    payload = message.payload dossier
  asks node := node = .hitl
  relies := relies py reading start
  keeps := keeps py reading start
  rank := rank

end Contract

section States

variable {py : Builtins} {reading : Reading} {start values : Dict} {course course' : Course} {application : Json}
  {kinds : List Json} {dossier : DealerDossier} {check : CrossCheck} {message : MissingDocsEmail}

/-- What a run found depends on its application and its reply only. -/
theorem Found.congr (h : Found py reading start course application kinds dossier check)
    (happlication : course'.application = course.application) (hreply : course'.reply = course.reply) :
    Found py reading start course' application kinds dossier check := by
  refine ⟨happlication.trans h.fetched, h.submitted, ?_, h.checked⟩
  rw [Course.HasDossier, hreply]
  exact h.extracted

/-- What is asked for depends on the application and the reply only. -/
theorem Asking.congr (h : Asking py reading start course message dossier)
    (happlication : course'.application = course.application) (hreply : course'.reply = course.reply) :
    Asking py reading start course' message dossier := by
  obtain ⟨application, kinds, check, hfound, hrest⟩ := h
  exact ⟨application, kinds, check, hfound.congr happlication hreply, hrest⟩

/-- Reading after a write to another key. -/
theorem get?_insert_other (values : Dict) (value : Json) {key other : String} (h : other ≠ key) :
    Json.get? (Json.insert values key value) other = Json.get? values other := by
  rw [Json.get?_insert, if_neg h]

/-- Writes to other keys leave the application and the documents. -/
theorem Fetched.insert (h : Fetched start values course application) (key : String) (value : Json)
    (hdocuments : "documents" ≠ key) (happlication : "application" ≠ key) :
    Fetched start (Json.insert values key value) course application := by
  refine ⟨?_, ?_, h.known⟩
  · rw [HasDocuments, get?_insert_other values value hdocuments]
    exact h.documents
  · rw [get?_insert_other values value happlication]
    exact h.held

/-- The kinds of the documents in the state are those that the run started with. -/
theorem Fetched.documentKinds (h : Fetched start values course application) :
    documentKinds values = documentKinds start := by
  rw [DealerOnboarding.documentKinds, stateDocuments, h.documents]
  rfl

/-- What is known of a run at a state depends on its application and its reply only. -/
theorem Checked.congr (h : Checked py reading start values course application dossier check)
    (happlication : course'.application = course.application) (hreply : course'.reply = course.reply) :
    Checked py reading start values course' application dossier check := by
  obtain ⟨kinds, hfound⟩ := h.found
  have hfound' := hfound.congr happlication hreply
  exact ⟨⟨⟨h.extracted.fetched.documents, h.extracted.fetched.held, hfound'.fetched⟩, h.extracted.held,
    hfound'.extracted⟩, h.held, kinds, hfound'⟩

/-- The message of a state depends on the application and the reply only. -/
theorem Composed.congr (h : Composed py reading start values course message dossier)
    (happlication : course'.application = course.application) (hreply : course'.reply = course.reply) :
    Composed py reading start values course' message dossier :=
  ⟨h.email, h.held, h.asking.congr happlication hreply⟩

/-- With an incomplete dossier and no mismatch, the message is composed. -/
theorem Checked.composes (h : Checked py reading start values course application dossier check)
    (hcomplete : check.complete = false) (hmismatch : check.nameMismatch = false) :
    ∃ message, composeEmail py values = .done (.wrote [("email", message.json)]) ∧
      Asking py reading start course message dossier := by
  obtain ⟨kinds, hfound⟩ := h.found
  obtain ⟨message, hrender, hasks⟩ := hfound.checked.renders hcomplete
  have hcheck : Json.field values "check" = .ok check.asDict := by rw [Json.field, h.held]
  have hcomposed : composedEmail py values = .ok message := by
    rw [composedEmail, hcheck, h.extracted.fetched.held]
    exact hrender
  refine ⟨message, ?_, application, kinds, check, hfound, hmismatch, hcomplete, hasks, hrender⟩
  rw [composeEmail, hcomposed]
  rfl

end States

/-! ## Nodes -/

section Nodes

variable {py : Builtins} {reading : Reading} {actor : Actor} {killswitch : Option KillSwitch} {start values : Dict}
  {course : Course} {resume : Option Json}

/-- Quiet calls are allowed. -/
theorem allowed_quiet (course' : Course) (c : Call) (hc : Quiet c) :
    (contract py reading start).allowed course' c := by
  cases c <;> trivial

/-- Quiet calls change nothing that is known. -/
theorem note_quiet (course' : Course) (c : Call) (reply : Except Exc (Reply c)) (hc : Quiet c) :
    courseTracker.note course' ⟨c, reply⟩ = course' := by
  cases c <;> first | rfl | exact hc.elim

/-- The fetch brings the application of the run. -/
theorem ensures_fetchApplication : (runProtocol courseTracker (contract py reading start)).Ensures
    (fun result course' => ∀ outcome, result = .ok outcome → ∃ application,
      outcome = .wrote [("application", application)] ∧ course' = { course with application := some application })
    (fetchApplication actor values) course := by
  apply Protocol.ensures_ofExcept_bind
  · exact fun error _ outcome houtcome => by cases houtcome
  · intro applicationId _
    apply Protocol.ensures_call_bind
    · exact ⟨fun htool => absurd htool (by decide), fun htool => absurd htool (by decide)⟩
    · intro reply course' hcourse
      cases reply with
      | error error => exact fun outcome houtcome => by cases houtcome
      | ok application =>
        intro outcome houtcome
        exact ⟨application, (Except.ok.inj houtcome).symm, hcourse⟩

/-- Reading the documents changes nothing that is known. -/
theorem ensures_ocrDocuments (documents : List Json) : (runProtocol courseTracker (contract py reading start)).Ensures
    (fun _ course' => course' = course) (ocrDocuments py actor documents) course := by
  have honly : (ocrDocuments py actor documents).Only (NodeCall actor [ocrExtractText] false) :=
    only_ocrDocuments py actor (by simp) documents
  have hcalls : ∀ (g : Course) (c : Call), g = course → NodeCall actor [ocrExtractText] false c →
      (runProtocol courseTracker (contract py reading start)).allowed g c ∧
        ∀ reply g', (runProtocol courseTracker (contract py reading start)).answers g c reply g' → g' = course := by
    intro g c hg hc
    cases c with
    | tool caller tool args =>
      have htool : tool = ocrExtractText := by simpa using hc.2
      rw [htool]
      refine ⟨⟨fun hsame => absurd hsame (by decide), fun hsame => absurd hsame (by decide)⟩, ?_⟩
      intro reply g' hanswer
      rw [hanswer, ← hg]
      cases reply <;> rfl
    | llm caller method messages kwargs => cases hc.2
    | _ => exact ⟨trivial, fun reply g' hanswer => hanswer.trans hg⟩
  exact Protocol.ensures_only honly hcalls rfl

/-- Reading the documents writes their text. -/
theorem ensures_ocr : (runProtocol courseTracker (contract py reading start)).Ensures
    (fun result course' => course' = course ∧ ∀ outcome, result = .ok outcome →
      ∃ text, outcome = .wrote [("ocr_text", text)]) (ocrNode py actor values) course := by
  apply Protocol.ensures_ofExcept_bind
  · exact fun error _ => ⟨rfl, fun outcome houtcome => by cases houtcome⟩
  · intro documents _
    apply Protocol.ensures_bind.mpr
    apply (ensures_ocrDocuments documents).mono
    intro result course' hcourse
    cases result with
    | error error => exact ⟨hcourse, fun outcome houtcome => by cases houtcome⟩
    | ok texts => exact ⟨hcourse, fun outcome houtcome => ⟨_, (Except.ok.inj houtcome).symm⟩⟩

/-- The dossier of the run is written, or the reason why there is none. -/
theorem ensures_extract (hreply : course.reply = none) :
    (runProtocol courseTracker (contract py reading start)).Ensures
      (fun result course' => course'.application = course.application ∧ ∀ outcome, result = .ok outcome →
        (∃ dossier : DealerDossier, outcome = .wrote [("dossier", dossier.asDict)] ∧
          course'.HasDossier reading dossier) ∨
        ∃ reason : String, reason ≠ "" ∧ outcome = .wrote [("blocked_reason", .str reason)])
      (extract reading actor values) course := by
  apply Protocol.ensures_ofExcept_bind
  · exact fun error _ => ⟨rfl, fun outcome houtcome => by cases houtcome⟩
  · intro blank _
    cases blank with
    | true =>
      refine ⟨rfl, fun outcome houtcome => .inl ⟨⟨none, none, none, none⟩, (Except.ok.inj houtcome).symm, ?_⟩⟩
      rw [Course.HasDossier, hreply]
    | false =>
      apply Protocol.ensures_ofExcept_bind
      · exact fun error _ => ⟨rfl, fun outcome houtcome => by cases houtcome⟩
      · intro ocrText _
        have hdossier : (runProtocol courseTracker (contract py reading start)).Ensures
            (fun result course' => course'.application = course.application ∧ ∀ dossier, result = .ok dossier →
              course'.HasDossier reading dossier) (extractDealerDossier reading actor ocrText) course := by
          apply Protocol.ensures_call_bind trivial
          intro reply course' hcourse
          cases reply with
          | error error =>
            rw [hcourse]
            exact ⟨rfl, fun dossier hdossier => by cases hdossier⟩
          | ok response =>
            apply Protocol.ensures_ofExcept.mpr
            rw [hcourse]
            exact ⟨rfl, fun dossier hdossier => hdossier⟩
        apply Protocol.ensures_bind.mpr
        apply Protocol.ensures_attempt.mpr
        apply hdossier.mono
        intro result course' hresult
        match result with
        | .ok dossier =>
          refine ⟨hresult.1, fun outcome houtcome => .inl ⟨dossier, (Except.ok.inj houtcome).symm, ?_⟩⟩
          exact hresult.2 dossier rfl
        | .error error =>
          show Protocol.Ensures _ _ (if error.kind = .parseError then _ else _) _
          split
          · refine ⟨hresult.1, fun outcome houtcome => .inr ⟨"dealer dossier extraction failed: " ++ error.message, ?_,
              (Except.ok.inj houtcome).symm⟩⟩
            intro hempty
            exact absurd (congrArg String.toList hempty) (by simp)
          · exact ⟨hresult.1, fun outcome houtcome => by cases houtcome⟩

/-- The cross-check of the run is written. -/
theorem ensures_crosscheck {application : Json} {dossier : DealerDossier}
    (h : Extracted reading start values course application dossier) :
    (runProtocol courseTracker (contract py reading start)).Ensures
      (fun result course' => course' = course ∧ ∀ outcome, result = .ok outcome → ∃ check : CrossCheck,
        outcome = .wrote [("check", check.asDict)] ∧
          ∃ kinds, Found py reading start course application kinds dossier check)
      (crosscheck py reading values) course := by
  have hdossier : Json.field values "dossier" = .ok dossier.asDict := by rw [Json.field, h.held]
  have hname : dossier.asDict.getOr "company_name" .null = .ok (textOrNull dossier.companyName) := rfl
  have hfields : (dossier.asDict.getOr "missing_fields" (.arr []) >>= Json.iterate) =
      .ok (dossier.missingFields.map .str) := rfl
  rw [crosscheck, hdossier, h.fetched.documentKinds, h.fetched.held]
  simp only [Prog.ofExcept, Prog.done_bind, hname, hfields, Option.getD_some]
  apply Protocol.ensures_ofExcept_bind
  · exact fun error _ => ⟨rfl, fun outcome houtcome => by cases houtcome⟩
  · intro kinds hkinds
    apply Protocol.ensures_ofExcept_bind
    · exact fun error _ => ⟨rfl, fun outcome houtcome => by cases houtcome⟩
    · intro check hcheck
      refine ⟨rfl, fun outcome houtcome => ⟨check, (Except.ok.inj houtcome).symm, kinds, ?_⟩⟩
      exact ⟨h.fetched.known, hkinds, h.known, hcheck⟩

/-- The application is moved as it may be. -/
theorem ensures_updateStatus {applicationId : Json} {status note : String}
    (h : MayMove py reading start course
      [("application_id", applicationId), ("status", .str status), ("note", .str note)]) :
    (runProtocol courseTracker (contract py reading start)).Ensures (fun _ _ => True)
      (updateStatusTool actor applicationId status note) course := by
  apply Protocol.ensures_call.mpr
  exact ⟨⟨fun htool => absurd htool (by decide), fun _ => h⟩, fun _ _ _ => trivial⟩

/-- A mismatch is sent to a review. -/
theorem ensures_flag (h : relies py reading start none .flag values course) :
    (runProtocol courseTracker (contract py reading start)).Ensures
      (fun result _ => ∀ outcome, result = .ok outcome → ∃ writes, outcome = .wrote writes)
      (flag py actor values) course := by
  obtain ⟨application, dossier, check, hchecked, hmismatch⟩ := h
  obtain ⟨kinds, hfound⟩ := hchecked.found
  apply Protocol.ensures_ofExcept_bind
  · exact fun error _ outcome houtcome => by cases houtcome
  · intro held _
    apply Protocol.ensures_ofExcept_bind
    · exact fun error _ outcome houtcome => by cases houtcome
    · intro applicationId _
      apply Protocol.ensures_ofExcept_bind
      · exact fun error _ outcome houtcome => by cases houtcome
      · intro certificateName _
        apply Protocol.ensures_ofExcept_bind
        · exact fun error _ outcome houtcome => by cases houtcome
        · intro applicationName _
          apply Protocol.ensures_bind.mpr
          apply (ensures_updateStatus ⟨_, _, _, _, _, _, _, rfl, hfound, .inl ⟨rfl, hmismatch⟩⟩).mono
          intro result course' _
          cases result with
          | error error => exact fun outcome houtcome => by cases houtcome
          | ok update => exact fun outcome houtcome => ⟨_, (Except.ok.inj houtcome).symm⟩

/-- A complete and consistent dossier is handed over. -/
theorem ensures_handoff (h : relies py reading start none .handoff values course) :
    (runProtocol courseTracker (contract py reading start)).Ensures
      (fun result _ => ∀ outcome, result = .ok outcome → ∃ writes, outcome = .wrote writes)
      (handoff actor values) course := by
  obtain ⟨application, dossier, check, hchecked, hclean⟩ := h
  obtain ⟨kinds, hfound⟩ := hchecked.found
  apply Protocol.ensures_ofExcept_bind
  · exact fun error _ outcome houtcome => by cases houtcome
  · intro applicationId _
    apply Protocol.ensures_bind.mpr
    apply (ensures_updateStatus ⟨_, _, _, _, _, _, _, rfl, hfound, .inr (.inl ⟨rfl, hclean⟩)⟩).mono
    intro result course' _
    cases result with
    | error error => exact fun outcome houtcome => by cases houtcome
    | ok update => exact fun outcome houtcome => ⟨_, (Except.ok.inj houtcome).symm⟩

/-- The e-mail that is sent is the message that was shown and approved, and the application moves after it. -/
theorem ensures_sendEmail (h : relies py reading start none .sendEmail values course) :
    (runProtocol courseTracker (contract py reading start)).Ensures
      (fun result _ => ∀ outcome, result = .ok outcome → ∃ writes, outcome = .wrote writes)
      (sendEmail py actor values) course := by
  obtain ⟨message, dossier, decision, hcomposed, hshown, hdecision, happroval⟩ := h
  have hemail : Json.field values "email" = .ok message.json := by rw [Json.field, hcomposed.email]
  have hto : message.json.item "to" = .ok (.str message.recipient) := rfl
  have hsubject : message.json.item "subject" = .ok (.str message.subject) := rfl
  have hbody : message.json.item "body" = .ok (.str message.body) := rfl
  have hsend : (runProtocol courseTracker (contract py reading start)).Ensures
      (fun result course' => ∀ reply, result = .ok reply → course' = { course with sent := true })
      (emailSendTool py actor (.str message.recipient) (.str message.subject) (.str message.body)) course := by
    rw [emailSendTool]
    split
    · apply Protocol.ensures_call.mpr
      refine ⟨⟨fun _ => ⟨message, dossier, decision, hcomposed.asking, rfl, hshown, hdecision, happroval⟩,
        fun htool => absurd htool (by decide)⟩, ?_⟩
      intro reply course' hcourse
      cases reply with
      | error error => exact fun reply hreply => by cases hreply
      | ok value => exact fun reply _ => hcourse
    · exact fun reply hreply => by cases hreply
  rw [sendEmail, hemail]
  simp only [Prog.ofExcept, Prog.done_bind, hto, hsubject, hbody]
  apply Protocol.ensures_bind.mpr
  apply hsend.mono
  intro result course' hsent
  cases result with
  | error error => exact fun outcome houtcome => by cases houtcome
  | ok value =>
    have hcourse := hsent value rfl
    have hasking : Asking py reading start course' message dossier := by
      apply hcomposed.asking.congr <;> rw [hcourse]
    obtain ⟨application, kinds, check, hfound, -⟩ := hasking
    apply Protocol.ensures_ofExcept_bind
    · exact fun error _ outcome houtcome => by cases houtcome
    · intro applicationId _
      apply Protocol.ensures_ofExcept_bind
      · exact fun error _ outcome houtcome => by cases houtcome
      · intro items _
        apply Protocol.ensures_bind.mpr
        have hsent' : course'.sent = true := by rw [hcourse]
        apply (ensures_updateStatus ⟨_, _, _, _, _, _, _, rfl, hfound, .inr (.inr ⟨rfl, hsent'⟩)⟩).mono
        intro result course'' _
        cases result with
        | error error => exact fun outcome houtcome => by cases houtcome
        | ok update => exact fun outcome houtcome => ⟨_, (Except.ok.inj houtcome).symm⟩

/-- The interrupt shows the message; a decision on it is taken as it is. -/
theorem hitl_eq {message : MissingDocsEmail} {dossier : DealerDossier}
    (h : Composed py reading start values course message dossier) :
    hitl py resume values = interrupt (message.payload dossier) resume rejectUnlessApproved := by
  have hemail : Json.field values "email" = .ok message.json := by rw [Json.field, h.email]
  have hdossier : Json.field values "dossier" = .ok dossier.asDict := by rw [Json.field, h.held]
  have hargs : emailArgs values = .ok message.args := by
    rw [emailArgs, hemail]
    rfl
  rw [hitl, assertRequiresApproval_external py rfl, hargs, hemail, hdossier]
  rfl

/-- A resumed interrupt goes on to the message only with an approval. -/
theorem ensures_hitl {decision : Json} (h : relies py reading start (some decision) .hitl values course) :
    (runProtocol courseTracker (contract py reading start)).Ensures
      ((contract py reading start).Leaves (graph py reading actor killswitch) .hitl values)
      (hitl py (some decision) values) course := by
  obtain ⟨message, dossier, hcomposed, hdecided⟩ := h
  obtain ⟨hshown, hdecision⟩ := hdecided decision rfl
  rw [hitl_eq hcomposed, interrupt]
  apply Protocol.ensures_ofExcept_bind
  · exact fun error _ => trivial
  · intro writes hwrites next hroute
    have hnext : (if Json.flag (Json.merge values writes) "rejected" then Node.finish else .sendEmail) = next :=
      Option.some.inj (Except.ok.inj hroute)
    rw [← hnext]
    rcases rejectUnlessApproved_inv hwrites with rfl | ⟨rfl, happroval⟩
    · rw [Json.merge_cons, Json.merge_nil, Json.flag_insert_self]
      exact ⟨trivial, .inr trivial⟩
    · rw [Json.merge_nil]
      split
      · exact ⟨trivial, .inr trivial⟩
      · have hsend : relies py reading start none .sendEmail values course :=
          ⟨message, dossier, decision, hcomposed, hshown, hdecision, happroval⟩
        exact ⟨hsend, .inr hsend⟩

/-- The route after the cross-check, by what it found. -/
theorem routeAfterCrosscheck_eq {check : CrossCheck} (h : Json.get? values "check" = some check.asDict) :
    routeAfterCrosscheck values =
      .ok (if check.nameMismatch then .flag else if check.complete then .handoff else .composeEmail) := by
  have hcheck : Json.field values "check" = .ok check.asDict := by rw [Json.field, h]
  have hmismatch : check.asDict.item "name_mismatch" = .ok (.bool check.nameMismatch) := rfl
  have hcomplete : check.asDict.item "complete" = .ok (.bool check.complete) := rfl
  rw [routeAfterCrosscheck, hcheck]
  simp only [bind, Except.bind, hmismatch, hcomplete, Json.truthy]
  cases check.nameMismatch
  · cases check.complete <;> rfl
  · rfl

/-- The three routes after the cross-check. -/
theorem routeAfterCrosscheck_mem {node : Node} (h : routeAfterCrosscheck values = .ok node) :
    node ∈ [Node.flag, .handoff, .composeEmail] := by
  obtain ⟨check, -, h⟩ := bind_eq_ok.mp h
  obtain ⟨mismatch, -, h⟩ := bind_eq_ok.mp h
  split at h
  · rw [← Except.ok.inj h]
    decide
  · obtain ⟨complete, -, h⟩ := bind_eq_ok.mp h
    split at h <;> rw [← Except.ok.inj h] <;> decide

/-- A node that leads nowhere but to the end leaves nothing to rely on. -/
theorem leaves_finish {node : Node} {result : Except Exc NodeOutcome} {course' : Course}
    (hroute : ∀ values, (graph py reading actor killswitch).route node values = .ok (some .finish))
    (h : ∀ outcome, result = .ok outcome → ∃ writes, outcome = .wrote writes) :
    (contract py reading start).Leaves (graph py reading actor killswitch) node values result course' := by
  cases result with
  | error error => trivial
  | ok outcome =>
    obtain ⟨writes, rfl⟩ := h outcome rfl
    intro next hnext
    rw [hroute] at hnext
    cases hnext
    exact ⟨trivial, .inr trivial⟩

/-- Every node leaves what the next one relies on. -/
theorem ensures_node (node : Node) (hacts : (contract py reading start).asks node = true → resume ≠ none)
    (h : relies py reading start resume node values course) :
    (runProtocol courseTracker (contract py reading start)).Ensures
      ((contract py reading start).Leaves (graph py reading actor killswitch) node values)
      ((graph py reading actor killswitch).body node resume values) course := by
  cases node with
  | killswitchGate =>
    apply (ensures_gate allowed_quiet note_quiet killswitch agentName).mono
    intro result course' hresult
    obtain ⟨rfl, hresult⟩ := hresult
    cases result with
    | error error => trivial
    | ok outcome =>
      rcases hresult outcome rfl with rfl | rfl
      · intro next hroute
        have hnext : (if Json.flag values "paused" then none else some Node.fetchApplication) = some next :=
          Except.ok.inj hroute
        split at hnext
        · cases hnext
        · cases hnext
          exact ⟨h, .inr h⟩
      · intro next hroute
        have hnext : (if Json.flag (Json.insert values "paused" (.bool true)) "paused" then none
            else some Node.fetchApplication) = some next := Except.ok.inj hroute
        rw [Json.flag_insert_self] at hnext
        cases hnext
  | fetchApplication =>
    apply ensures_fetchApplication.mono
    intro result course' hresult
    cases result with
    | error error => trivial
    | ok outcome =>
      obtain ⟨application, rfl, rfl⟩ := hresult outcome rfl
      intro next hroute
      cases hroute
      have hfetched : Fetched start (Json.insert values "application" application)
          { course with application := some application } application := by
        refine ⟨?_, by rw [Json.get?_insert, if_pos rfl], rfl⟩
        rw [HasDocuments, get?_insert_other values application (by decide)]
        exact h.1
      have hocr : relies py reading start none .ocr (Json.merge values [("application", application)])
          { course with application := some application } := ⟨application, hfetched, h.2⟩
      exact ⟨hocr, .inr hocr⟩
  | ocr =>
    obtain ⟨application, hfetched, hreply⟩ := h
    apply ensures_ocr.mono
    intro result course' hresult
    obtain ⟨rfl, hresult⟩ := hresult
    cases result with
    | error error => trivial
    | ok outcome =>
      obtain ⟨text, rfl⟩ := hresult outcome rfl
      intro next hroute
      cases hroute
      have hextract : relies py reading start none .extract (Json.merge values [("ocr_text", text)]) course' :=
        ⟨application, hfetched.insert "ocr_text" text (by decide) (by decide), hreply⟩
      exact ⟨hextract, .inr hextract⟩
  | extract =>
    obtain ⟨application, hfetched, hreply⟩ := h
    apply (ensures_extract hreply).mono
    intro result course' hresult
    obtain ⟨happlication, hresult⟩ := hresult
    cases result with
    | error error => trivial
    | ok outcome =>
      rcases hresult outcome rfl with ⟨dossier, rfl, hdossier⟩ | ⟨reason, hreason, rfl⟩
      · intro next hroute
        have hnext : (if Json.flag (Json.merge values [("dossier", dossier.asDict)]) "blocked_reason" then Node.finish
            else .crosscheck) = next := Option.some.inj (Except.ok.inj hroute)
        rw [← hnext]
        split
        · exact ⟨trivial, .inr trivial⟩
        · have hinserted := hfetched.insert "dossier" dossier.asDict (by decide) (by decide)
          have hcrosscheck : relies py reading start none .crosscheck (Json.merge values [("dossier", dossier.asDict)])
              course' := by
            refine ⟨application, dossier, ⟨hinserted.documents, hinserted.held, happlication.trans hfetched.known⟩, ?_,
              hdossier⟩
            rw [Json.merge_cons, Json.merge_nil, Json.get?_insert, if_pos rfl]
          exact ⟨hcrosscheck, .inr hcrosscheck⟩
      · intro next hroute
        have hnext : (if Json.flag (Json.merge values [("blocked_reason", .str reason)]) "blocked_reason"
            then Node.finish else .crosscheck) = next := Option.some.inj (Except.ok.inj hroute)
        rw [Json.merge_cons, Json.merge_nil, Json.flag_insert_self] at hnext
        rw [← hnext, Json.truthy, if_pos (by simpa using hreason)]
        exact ⟨trivial, .inr trivial⟩
  | crosscheck =>
    obtain ⟨application, dossier, hextracted⟩ := h
    apply (ensures_crosscheck hextracted).mono
    intro result course' hresult
    obtain ⟨rfl, hresult⟩ := hresult
    cases result with
    | error error => trivial
    | ok outcome =>
      obtain ⟨check, rfl, hfound⟩ := hresult outcome rfl
      have hfetched := hextracted.fetched.insert "check" check.asDict (by decide) (by decide)
      have hchecked : Checked py reading start (Json.merge values [("check", check.asDict)]) course' application dossier
          check := by
        refine ⟨⟨hfetched, ?_, hextracted.known⟩, ?_, hfound⟩
        · rw [Json.merge_cons, Json.merge_nil, get?_insert_other values check.asDict (by decide)]
          exact hextracted.held
        · rw [Json.merge_cons, Json.merge_nil, Json.get?_insert, if_pos rfl]
      intro next hroute
      obtain ⟨found, hroute, hnext⟩ := map_eq_ok.mp hroute
      have hfound := hroute.symm.trans (routeAfterCrosscheck_eq hchecked.held)
      rw [← Option.some.inj hnext, Except.ok.inj hfound]
      split
      · rename_i hmismatched
        have hflag : relies py reading start none .flag (Json.merge values [("check", check.asDict)]) course' :=
          ⟨application, dossier, check, hchecked, hmismatched⟩
        exact ⟨hflag, .inr hflag⟩
      · rename_i hmatched
        have hmatched : check.nameMismatch = false := by simpa using hmatched
        split
        · rename_i hcompleted
          have hhandoff : relies py reading start none .handoff (Json.merge values [("check", check.asDict)]) course' :=
            ⟨application, dossier, check, hchecked, hcompleted, hmatched⟩
          exact ⟨hhandoff, .inr hhandoff⟩
        · rename_i hmissing
          have hmissing : check.complete = false := by simpa using hmissing
          have hcompose : relies py reading start none .composeEmail (Json.merge values [("check", check.asDict)])
              course' := ⟨application, dossier, check, hchecked, hmissing, hmatched⟩
          exact ⟨hcompose, .inr hcompose⟩
  | flag =>
    apply (ensures_flag h).mono
    intro result course' hresult
    exact leaves_finish (fun _ => rfl) hresult
  | composeEmail =>
    obtain ⟨application, dossier, check, hchecked, hcomplete, hmismatch⟩ := h
    obtain ⟨message, hcomposes, hasking⟩ := hchecked.composes hcomplete hmismatch
    show Protocol.Ensures _ _ (composeEmail py values) course
    rw [hcomposes]
    intro next hroute
    cases hroute
    have hcomposed : Composed py reading start (Json.insert values "email" message.json) course message dossier := by
      refine ⟨by rw [Json.get?_insert, if_pos rfl], ?_, hasking⟩
      rw [get?_insert_other values message.json (by decide)]
      exact hchecked.extracted.held
    exact ⟨⟨message, dossier, hcomposed, fun decision hdecision => by cases hdecision⟩, .inl rfl⟩
  | hitl =>
    cases resume with
    | none => exact absurd rfl (hacts rfl)
    | some decision => exact ensures_hitl h
  | sendEmail =>
    apply (ensures_sendEmail h).mono
    intro result course' hresult
    exact leaves_finish (fun _ => rfl) hresult
  | handoff =>
    apply (ensures_handoff h).mono
    intro result course' hresult
    exact leaves_finish (fun _ => rfl) hresult
  | finish =>
    intro next hroute
    cases hroute

end Nodes

/-! ## Sessions -/

section Sessions

variable {py : Builtins} {reading : Reading} {actor : Actor} {killswitch : Option KillSwitch} {start : Dict}

/-- The course of a run includes the last interrupt and the first decision on it. -/
theorem courseTracker_records : courseTracker.Records Course.shown Course.decision where
  fresh := rfl
  note course event := by
    simp only [courseTracker]
    split
    · split
      · exact ⟨rfl, rfl⟩
      · split <;> exact ⟨rfl, rfl⟩
    · exact ⟨rfl, rfl⟩
    · exact ⟨rfl, rfl⟩
  showing _ _ := ⟨rfl, rfl⟩
  deciding course decision := by
    simp only [courseTracker]
    split <;> exact ⟨rfl, rfl⟩

/-- A decision changes neither the application nor the reply. -/
theorem decided_known (course : Course) (decision : Json) :
    (courseTracker.decided course decision).application = course.application ∧
      (courseTracker.decided course decision).reply = course.reply := by
  simp only [courseTracker]
  split <;> exact ⟨rfl, rfl⟩

/-- A decision on a kept checkpoint is the one that its node relies on. -/
theorem relies_decided {node : Node} {values : Dict} {course : Course} (decision : Json)
    (h : keeps py reading start node values course) :
    relies py reading start (some decision) node values (courseTracker.decided course decision) := by
  obtain ⟨happlication, hreply⟩ := decided_known course decision
  cases node with
  | finish => trivial
  | killswitchGate | fetchApplication => exact ⟨h.1, hreply.trans h.2⟩
  | ocr | extract =>
    obtain ⟨application, hfetched, hnone⟩ := h
    exact ⟨application, ⟨hfetched.documents, hfetched.held, happlication.trans hfetched.known⟩, hreply.trans hnone⟩
  | crosscheck =>
    obtain ⟨application, dossier, hextracted⟩ := h
    refine ⟨application, dossier, ⟨hextracted.fetched.documents, hextracted.fetched.held,
      happlication.trans hextracted.fetched.known⟩, hextracted.held, ?_⟩
    rw [Course.HasDossier, hreply]
    exact hextracted.known
  | flag =>
    obtain ⟨application, dossier, check, hchecked, hrest⟩ := h
    exact ⟨application, dossier, check, hchecked.congr happlication hreply, hrest⟩
  | handoff =>
    obtain ⟨application, dossier, check, hchecked, hrest⟩ := h
    exact ⟨application, dossier, check, hchecked.congr happlication hreply, hrest⟩
  | composeEmail =>
    obtain ⟨application, dossier, check, hchecked, hrest⟩ := h
    exact ⟨application, dossier, check, hchecked.congr happlication hreply, hrest⟩
  | hitl =>
    obtain ⟨message, dossier, hcomposed, hshown, hwaits⟩ := h
    refine ⟨message, dossier, hcomposed.congr happlication hreply, ?_⟩
    intro given hgiven
    rw [← Option.some.inj hgiven]
    simp [courseTracker, hshown, hwaits]
  | sendEmail =>
    obtain ⟨message, dossier, held, hcomposed, hshown, hheld, happroval⟩ := h
    have hdecided : courseTracker.decided course decision = course := by simp [courseTracker, hheld]
    rw [hdecided]
    exact ⟨message, dossier, held, hcomposed, hshown, hheld, happroval⟩

/-- The interrupt of a message. -/
theorem asks_interrupt {values : Dict} {course : Course} (h : relies py reading start none .hitl values course) :
    ∃ payload, hitl py none values = .done (.interrupted payload) ∧ (contract py reading start).shows course payload ∧
      keeps py reading start .hitl values (courseTracker.shown course payload) := by
  obtain ⟨message, dossier, hcomposed, -⟩ := h
  refine ⟨message.payload dossier, ?_, ⟨message, dossier, hcomposed.asking, rfl⟩, ?_⟩
  · rw [hitl_eq hcomposed]
    rfl
  · exact ⟨message, dossier, hcomposed.congr rfl rfl, rfl, rfl⟩

/-- Every route leads nearer to the end. -/
theorem rank_descends {node next : Node} {values : Dict}
    (hroute : (graph py reading actor killswitch).route node values = .ok (some next)) : rank next < rank node := by
  cases node with
  | killswitchGate =>
    have hnext : (if Json.flag values "paused" then none else some Node.fetchApplication) = some next :=
      Except.ok.inj hroute
    split at hnext <;> cases hnext
    decide
  | fetchApplication | ocr | flag | composeEmail | sendEmail | handoff =>
    cases hroute
    decide
  | extract | hitl =>
    rw [← Option.some.inj (Except.ok.inj hroute)]
    split <;> decide
  | crosscheck =>
    obtain ⟨found, hfound, hnext⟩ := map_eq_ok.mp hroute
    have hmem := routeAfterCrosscheck_mem hfound
    rw [Option.some.inj hnext] at hmem
    cases next <;> first | decide | exact absurd hmem (by decide)
  | finish => cases hroute

/-- The graph keeps its contract. -/
theorem graph_sound :
    (contract py reading start).Sound courseTracker (graph py reading actor killswitch) where
  store course c hc := by
    cases c <;> trivial
  inward node resume values := by
    apply (only_body py reading actor killswitch node resume values).mono
    intro c hc hstore
    cases c <;> first | exact hc | exact hstore
  entry := rfl
  resumes _ _ _ decision h := relies_decided decision h
  asking node values course hasks h := by
    cases node with
    | hitl => exact asks_interrupt h
    | _ => cases hasks
  acting node resume values course hacts h := ensures_node node hacts h
  descends node values next hroute := rank_descends hroute
  bounded node := by
    show rank node < recursionLimit
    cases node <;> decide

/-- Composing the message does not raise, and leads to the interrupt. -/
theorem composeEmail_sure :
    (contract py reading start).Sure (graph py reading actor killswitch) .composeEmail := by
  intro resume values course h
  obtain ⟨application, dossier, check, hchecked, hcomplete, hmismatch⟩ := h
  obtain ⟨message, hcomposes, -⟩ := hchecked.composes hcomplete hmismatch
  exact ⟨_, .hitl, hcomposes, rfl⟩

/-- An e-mail has gone out. -/
def EmailSent (history : List Deed) : Prop :=
  ∃ caller args value, Deed.called ⟨.tool caller emailSend args, .ok value⟩ ∈ history

/-- An e-mail that has gone out has gone out later on. -/
theorem EmailSent.append {history : List Deed} (h : EmailSent history) (deed : Deed) :
    EmailSent (history ++ [deed]) := by
  obtain ⟨caller, args, value, hmem⟩ := h
  exact ⟨caller, args, value, List.mem_append_left _ hmem⟩

/-- An e-mail is known to have gone out only when one has. -/
theorem emailSent_of_tracked (history : List Deed) (h : (tracked courseTracker history).live.sent = true) :
    EmailSent history := by
  have hknown : ((tracked courseTracker history).live.sent = true → EmailSent history) ∧
      ((tracked courseTracker history).saved.sent = true → EmailSent history) := by
    apply tracked_induction fun history (course : Course) => course.sent = true → EmailSent history
    · intro history hsent
      cases hsent
    · exact fun history course deed _ hcourse hsent => (hcourse hsent).append deed
    · intro history course event hcourse hsent
      simp only [courseTracker] at hsent
      split at hsent
      · rename_i caller tool args value
        split at hsent
        · exact (hcourse hsent).append _
        · split at hsent
          · rename_i htool
            rw [htool]
            exact ⟨caller, args, value, by simp⟩
          · exact (hcourse hsent).append _
      · exact (hcourse hsent).append _
      · exact (hcourse hsent).append _
    · exact fun history course values payload hcourse hsent => (hcourse hsent).append _
    · intro history course decision hcourse hsent
      have hkept : (courseTracker.decided course decision).sent = course.sent := by
        simp only [courseTracker]
        split <;> rfl
      exact (hcourse (hkept ▸ hsent)).append _
  exact hknown.1 h

/-- The history of one run on a new thread, resumed with decisions. -/
def runHistory (py : Builtins) (reading : Reading) (actor : Actor) (killswitch : Option KillSwitch) (replies : Replies)
    (input : Dict) (decisions : List Json) : List Deed :=
  (Logbook.holdAll (graph py reading actor killswitch) (threadSaver nodeNames actor) replies ⟨0, none, []⟩
    (.invoke input :: decisions.map .resume)).history

variable (py reading actor killswitch)

/-- One run of dealer onboarding on a new thread, resumed with any decisions, whatever the replies are and whichever
calls fail. An e-mail is the message for what the run found (no mismatch, an incomplete dossier, each missing item asked
for once), as it was shown at the last interrupt and approved after it. The application is moved to a review only with a
mismatch, to the sales only with a complete and consistent dossier, and to waiting for documents only after an e-mail.
Composing the message does not raise. -/
theorem run_effects (replies : Replies) (input : Dict) (decisions : List Json) (earlier later : List Deed) :
    (∀ caller args reply, runHistory py reading actor killswitch replies input decisions =
        earlier ++ .called ⟨.tool caller emailSend args, reply⟩ :: later →
      ∃ message dossier, Asking py reading (Json.merge [] input) (tracked courseTracker earlier).live message dossier ∧
        args = message.args ∧ ApprovedWhenShown earlier (message.payload dossier)) ∧
    (∀ caller args reply, runHistory py reading actor killswitch replies input decisions =
        earlier ++ .called ⟨.tool caller crmUpdateStatus args, reply⟩ :: later →
      ∃ applicationId status note application kinds dossier check,
        args = [("application_id", applicationId), ("status", .str status), ("note", .str note)] ∧
          Found py reading (Json.merge [] input) (tracked courseTracker earlier).live application kinds dossier check ∧
          (status = "manual_review" ∧ check.nameMismatch = true ∨
            status = "ready_for_sales" ∧ check.complete = true ∧ check.nameMismatch = false ∨
            status = "awaiting_documents" ∧ EmailSent earlier)) ∧
    ¬ RaisedIn "compose_email" (runHistory py reading actor killswitch replies input decisions) := by
  have hstarts : (contract py reading (Json.merge [] input)).Starts courseTracker
      (graph py reading actor killswitch) (Json.merge [] input) := ⟨⟨rfl, rfl⟩, rfl, rfl⟩
  have hfollows := run_follows graph_sound nodeNames actor replies input decisions hstarts
  refine ⟨?_, ?_, ?_⟩
  · intro caller args reply hhistory
    have hallowed := hfollows _ _ _ hhistory
    obtain ⟨message, dossier, decision, hasking, hargs, hshown, hdecision, happroval⟩ := hallowed.1 rfl
    have happroved := (courseTracker_records.witnessed earlier).1.approved hshown hdecision happroval
    exact ⟨message, dossier, hasking, hargs, happroved⟩
  · intro caller args reply hhistory
    have hallowed := hfollows _ _ _ hhistory
    obtain ⟨applicationId, status, note, application, kinds, dossier, check, hargs, hfound, hstatus⟩ := hallowed.2 rfl
    refine ⟨applicationId, status, note, application, kinds, dossier, check, hargs, hfound, ?_⟩
    rcases hstatus with hreview | hsales | ⟨hwaiting, hsent⟩
    · exact .inl hreview
    · exact .inr (.inl hsales)
    · exact .inr (.inr ⟨hwaiting, emailSent_of_tracked earlier hsent⟩)
  · exact run_sure graph_sound nodeNames actor composeEmail_sure replies input decisions hstarts

end Sessions

end FleetWorkflow.Agents.DealerOnboarding
