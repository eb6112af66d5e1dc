import FleetWorkflow.Agents.Replies
import FleetWorkflow.Agents.Tools

/-!
# The dealer onboarding agent

Application, documents, dossier, cross-check, and then one of three ends: a mismatch of names is
flagged, an incomplete dossier leads to an e-mail behind the one interrupt, a clean one is handed
over. How a reply is read as a dossier and how names are folded before they are compared are
parameters.
-/

namespace FleetWorkflow.Agents.DealerOnboarding

open Python Async Core

/-- The name of the agent's row. -/
def agentName : String := "dealer_onboarding"

/-! ## Dossiers -/

/-- What is read off the documents. -/
structure DealerDossier where
  companyName : Option String
  taxNo : Option String
  iban : Option String
  certificateNo : Option String

/-- How a reply is read as a dossier, and the comparable core of a company name. -/
structure Reading where
  systemPrompt : String
  parseDossier : String → Except Exc DealerDossier
  normalizeCompanyName : String → String

/-- A text or null. -/
def textOrNull : Option String → Json
  | some text => .str text
  | none => .null

/-- The required fields that the documents did not yield. -/
def DealerDossier.missingFields (dossier : DealerDossier) : List String :=
  (if dossier.companyName = none then ["company_name"] else []) ++
  (if dossier.taxNo = none then ["tax_no"] else [])

/-- The dictionary that a dossier is kept as in the state. -/
def DealerDossier.asDict (dossier : DealerDossier) : Json :=
  .obj [("company_name", textOrNull dossier.companyName), ("tax_no", textOrNull dossier.taxNo),
    ("iban", textOrNull dossier.iban), ("certificate_no", textOrNull dossier.certificateNo),
    ("missing_fields", .arr (dossier.missingFields.map .str))]

/-! ## The cross-check -/

/-- The documents that an application has to have. -/
def requiredDocuments : List String := ["authorization_certificate", "tax_registration"]

/-- What the cross-check found. -/
structure CrossCheck where
  missingDocuments : List String
  missingFields : List Json
  nameMismatch : Bool
  certificateName : Json
  applicationName : Option String

/-- Nothing is missing. -/
def CrossCheck.complete (check : CrossCheck) : Bool :=
  check.missingDocuments.isEmpty && check.missingFields.isEmpty

/-- Nothing is missing and the names agree. -/
def CrossCheck.clean (check : CrossCheck) : Bool := check.complete && !check.nameMismatch

section Nodes

variable (py : Builtins) (reading : Reading) (actor : Actor)

/-- The name on an application. -/
def applicationName (application : Json) : Except Exc (Option String) := do
  match ← application.getOr "company_name" .null with
  | .null => return none
  | name => return some (py.str name)

/-- The names on the certificate and on the application differ, if both are known. -/
def namesDiffer (certificateName : Json) (applicationName : Option String) : Except Exc Bool :=
  match applicationName with
  | none => .ok false
  | some name =>
    if !certificateName.truthy || name = "" then .ok false
    else
      match certificateName with
      | .str certificate =>
        .ok (reading.normalizeCompanyName certificate ≠ reading.normalizeCompanyName name)
      | _ => .error ⟨.attributeError, "object has no attribute 'translate'"⟩

/-- `cross_check`. -/
def crossCheck (application : Json) (providedDocuments : List Json) (certificateName : Json)
    (missingFields : List Json) : Except Exc CrossCheck := do
  let missingDocuments := requiredDocuments.filter fun kind => !providedDocuments.any (·.eqStr kind)
  let applicationName ← applicationName py application
  let nameMismatch ← namesDiffer reading certificateName applicationName
  return ⟨missingDocuments, missingFields, nameMismatch, certificateName, applicationName⟩

/-- The dictionary that a cross-check is kept as in the state. -/
def CrossCheck.asDict (check : CrossCheck) : Json :=
  .obj [("missing_documents", .arr (check.missingDocuments.map .str)),
    ("missing_fields", .arr check.missingFields), ("name_mismatch", .bool check.nameMismatch),
    ("certificate_name", check.certificateName), ("application_name", textOrNull check.applicationName),
    ("complete", .bool check.complete), ("clean", .bool check.clean)]

/-! ## The e-mail -/

/-- The label of a missing document. -/
def documentLabel (kind : Json) : Except Exc String :=
  if kind.eqStr "authorization_certificate" then .ok "Yetki Belgesi"
  else if kind.eqStr "tax_registration" then .ok "Vergi Levhası"
  else .error ⟨.keyError, py.repr kind⟩

/-- The label of a missing field, if it has one. -/
def fieldLabel (field : Json) : Option String :=
  if field.eqStr "company_name" then some "Belge üzerindeki ticari unvan"
  else if field.eqStr "tax_no" then some "Vergi Kimlik Numarası"
  else none

/-- The labels of everything that is missing. -/
def missingItemLabels (missingDocuments missingFields : List Json) : Except Exc (List String) := do
  return (← missingDocuments.mapM (documentLabel py)) ++ missingFields.filterMap fieldLabel

/-- The message that asks for what is missing. -/
structure MissingDocsEmail where
  recipient : String
  subject : String
  body : String
  missingItems : List String

/-- `str(application.get(key, "") or fallback)`. -/
def textOr (application : Json) (key fallback : String) : Except Exc String := do
  let value ← application.getOr key (.str "")
  return if value.truthy then py.str value else fallback

/-- `render_missing_docs_email`. -/
def renderMissingDocsEmail (application : Json) (missingDocuments missingFields : List Json) :
    Except Exc MissingDocsEmail := do
  let items ← missingItemLabels py missingDocuments missingFields
  if items.isEmpty then .error ⟨.valueError, "render_missing_docs_email called with nothing missing"⟩
  else
    let applicationId := py.str (← application.getOr "application_id" (.str ""))
    let contactName ← textOr py application "contact_name" "Yetkili"
    let companyName ← textOr py application "company_name" ""
    let recipient := py.str (← application.getOr "contact_email" (.str ""))
    let bulletList := "\n".intercalate (items.map ("- " ++ ·))
    let body :=
      "Sayın " ++ contactName ++ ",\n\n" ++
      companyName ++ " unvanlı firmanız adına yaptığınız bayi başvurusu " ++
      "(" ++ applicationId ++ ") tarafımıza ulaşmıştır. Başvuru dosyanızın " ++
      "değerlendirmeye alınabilmesi için aşağıdaki belgelere ihtiyaç " ++
      "duyulmaktadır:\n\n" ++
      bulletList ++ "\n\n" ++
      "İlgili belgeleri bu e-postayı yanıtlayarak tarafımıza iletmenizi rica " ++
      "ederiz. Belgeler tamamlandığında başvurunuz kurumsal satış ekibimizce " ++
      "değerlendirilecektir.\n\n" ++
      "Sorularınız için bu adres üzerinden bize ulaşabilirsiniz.\n\n" ++
      "Saygılarımızla,\n" ++
      "Kurumsal Satış Ekibi"
    return ⟨recipient, "Bayi Başvurunuz (" ++ applicationId ++ ") — Eksik Belge Bildirimi", body, items⟩

/-! ## Nodes -/

/-- Fetch the application of the run. -/
def fetchApplication (state : Dict) : Coroutine NodeOutcome := do
  let applicationId ← Prog.ofExcept (Json.field state "application_id")
  let application ← await (.tool actor crmGetApplication [("application_id", applicationId)])
  return .wrote [("application", application)]

/-- Read the text off every document. -/
def ocrDocuments : List Json → Coroutine (List String)
  | [] => return []
  | document :: rest => do
    let image ← Prog.ofExcept (document.item "image_base64")
    let result ← await (.tool actor ocrExtractText [("image_base64", image)])
    let kind ← Prog.ofExcept (document.item "kind")
    let text ← Prog.ofExcept (result.item "text")
    let texts ← ocrDocuments rest
    return ("[" ++ py.str kind ++ "]\n" ++ py.str text) :: texts

/-- The documents in a state. -/
def stateDocuments (state : Dict) : Except Exc (List Json) :=
  ((Json.get? state "documents").getD (.arr [])).iterate

/-- Read the documents of the run. -/
def ocrNode (state : Dict) : Coroutine NodeOutcome := do
  let documents ← Prog.ofExcept (stateDocuments state)
  let texts ← ocrDocuments py actor documents
  return .wrote [("ocr_text", .str ("\n\n".intercalate texts))]

/-- `extract_dealer_dossier`: one model call on the local lane, then the parse. -/
def extractDealerDossier (ocrText : Json) : Coroutine DealerDossier := do
  let response ← await (.llm actor "reasoning"
    [chatMessage "system" reading.systemPrompt, .obj [("role", .str "user"), ("content", ocrText)]]
    [("sensitivity", .str "pii"), ("temperature", .float (.decimal false 0 0))])
  Prog.ofExcept (reading.parseDossier response.content)

/-- Nothing but whitespace was read off the documents. -/
def isBlank (ocrText : Json) : Except Exc Bool :=
  match ocrText with
  | .str text => .ok (strip text = "")
  | _ => .error ⟨.attributeError, "object has no attribute 'strip'"⟩

/-- Extract the dossier; without a text there is nothing to ask the model for. -/
def extract (state : Dict) : Coroutine NodeOutcome := do
  let blank ← Prog.ofExcept (isBlank ((Json.get? state "ocr_text").getD (.str "")))
  if blank then
    let dossier := [("company_name", .null), ("tax_no", .null), ("iban", .null), ("certificate_no", .null),
      ("missing_fields", .arr [.str "company_name", .str "tax_no"])]
    return .wrote [("dossier", .obj dossier)]
  else
    let ocrText ← Prog.ofExcept (Json.field state "ocr_text")
    match ← (extractDealerDossier reading actor ocrText).attempt with
    | .ok dossier => return .wrote [("dossier", dossier.asDict)]
    | .error error =>
      if error.kind = .parseError then
        return .wrote [("blocked_reason", .str ("dealer dossier extraction failed: " ++ error.message))]
      else .raise error

/-- The kinds of the documents in a state. -/
def documentKinds (state : Dict) : Except Exc (List Json) := do
  (← stateDocuments state).mapM fun document => document.item "kind"

/-- Compare the dossier with the application. -/
def crosscheck (state : Dict) : Coroutine NodeOutcome := do
  let dossier ← Prog.ofExcept (Json.field state "dossier")
  let kinds ← Prog.ofExcept (documentKinds state)
  let certificateName ← Prog.ofExcept (dossier.getOr "company_name" .null)
  let missingFields ← Prog.ofExcept (dossier.getOr "missing_fields" (.arr []) >>= Json.iterate)
  let application := (Json.get? state "application").getD (.obj [])
  let check ← Prog.ofExcept (crossCheck py reading application kinds certificateName missingFields)
  return .wrote [("check", check.asDict)]

/-- Send a mismatch to a manual review. -/
def flag (state : Dict) : Coroutine NodeOutcome := do
  let check ← Prog.ofExcept (Json.field state "check")
  let applicationId ← Prog.ofExcept (Json.field state "application_id")
  let certificateName ← Prog.ofExcept (check.item "certificate_name")
  let applicationName ← Prog.ofExcept (check.item "application_name")
  let update ← updateStatusTool actor applicationId "manual_review"
    ("Unvan uyuşmazlığı: belge " ++ py.repr certificateName ++ ", başvuru " ++ py.repr applicationName)
  return .wrote [("status_update", update)]

/-- Compose the message from the cross-check in a state. -/
def composedEmail (state : Dict) : Except Exc MissingDocsEmail := do
  let check ← Json.field state "check"
  let missingDocuments ← (← check.item "missing_documents").iterate
  let missingFields ← (← check.item "missing_fields").iterate
  let _ ← check.item "name_mismatch"
  let _ ← check.item "certificate_name"
  let _ ← check.item "application_name"
  let application := (Json.get? state "application").getD (.obj [])
  renderMissingDocsEmail py application missingDocuments missingFields

/-- Compose the message. -/
def composeEmail (state : Dict) : Coroutine NodeOutcome := do
  let message ← Prog.ofExcept (composedEmail py state)
  let email := [("to", .str message.recipient), ("subject", .str message.subject), ("body", .str message.body),
    ("missing_items", .arr (message.missingItems.map .str))]
  return .wrote [("email", .obj email)]

/-- The arguments of the message, read from a state. -/
def emailArgs (state : Dict) : Except Exc Dict := do
  let email ← Json.field state "email"
  let recipient ← email.item "to"
  let subject ← email.item "subject"
  let body ← email.item "body"
  return [("to", recipient), ("subject", subject), ("body", body)]

/-- The payload of the interrupt. -/
def emailPayload (args : Dict) (missingItems dossier : Json) : Json :=
  .obj [("tool", .str emailSend.name), ("risk_class", .str emailSend.riskClass), ("args", .obj args),
    ("missing_items", missingItems), ("dossier", dossier)]

/-- The interrupt before the message, which always waits for an approval. -/
def hitl (resume : Option Json) (state : Dict) : Coroutine NodeOutcome := do
  assertRequiresApproval py emailSend
  let args ← Prog.ofExcept (emailArgs state)
  let missingItems ← Prog.ofExcept (do (← Json.field state "email").item "missing_items")
  let dossier ← Prog.ofExcept (Json.field state "dossier")
  interrupt (emailPayload args missingItems dossier) resume rejectUnlessApproved

/-- Send the message and move the application on. -/
def sendEmail (state : Dict) : Coroutine NodeOutcome := do
  let message ← Prog.ofExcept (Json.field state "email")
  let recipient ← Prog.ofExcept (message.item "to")
  let subject ← Prog.ofExcept (message.item "subject")
  let body ← Prog.ofExcept (message.item "body")
  let _ ← emailSendTool py actor recipient subject body
  let applicationId ← Prog.ofExcept (Json.field state "application_id")
  let missingItems ← Prog.ofExcept (message.item "missing_items" >>= Json.iterate)
  let items ← Prog.ofExcept (joinTexts ", " missingItems)
  let update ← updateStatusTool actor applicationId "awaiting_documents"
    ("Eksik belge talebi gönderildi: " ++ items)
  return .wrote [("email_sent", .obj [("to", recipient), ("subject", subject)]), ("status_update", update)]

/-- Hand a clean dossier over. -/
def handoff (state : Dict) : Coroutine NodeOutcome := do
  let applicationId ← Prog.ofExcept (Json.field state "application_id")
  let update ← updateStatusTool actor applicationId "ready_for_sales"
    "Dosya eksiksiz; kurumsal satış temsilcisine devredildi."
  return .wrote [("status_update", update)]

/-- The nodes of the graph. -/
inductive Node where
  | killswitchGate
  | fetchApplication
  | ocr
  | extract
  | crosscheck
  | flag
  | composeEmail
  | hitl
  | sendEmail
  | handoff
  | finish
deriving DecidableEq

/-- The names of the nodes. -/
def nodeNames : NodeNames Node where
  nodes := [.killswitchGate, .fetchApplication, .ocr, .extract, .crosscheck, .flag, .composeEmail, .hitl,
    .sendEmail, .handoff, .finish]
  name
    | .killswitchGate => "killswitch_gate"
    | .fetchApplication => "fetch_application"
    | .ocr => "ocr"
    | .extract => "extract"
    | .crosscheck => "crosscheck"
    | .flag => "flag"
    | .composeEmail => "compose_email"
    | .hitl => "hitl"
    | .sendEmail => "send_email"
    | .handoff => "handoff"
    | .finish => "end"
  find_name node := by cases node <;> rfl

/-- The route after the cross-check. -/
def routeAfterCrosscheck (state : Dict) : Except Exc Node := do
  let check ← Json.field state "check"
  if (← check.item "name_mismatch").truthy then return .flag
  else if (← check.item "complete").truthy then return .handoff
  else return .composeEmail

/-- `build_dealer_onboarding_graph`. -/
def graph (killswitch : Option KillSwitch) : AgentGraph Node where
  entry := .killswitchGate
  merge := Json.merge
  body node resume state :=
    match node with
    | .killswitchGate => killswitchGate killswitch agentName
    | .fetchApplication => fetchApplication actor state
    | .ocr => ocrNode py actor state
    | .extract => extract reading actor state
    | .crosscheck => crosscheck py reading state
    | .flag => flag py actor state
    | .composeEmail => composeEmail py state
    | .hitl => hitl py resume state
    | .sendEmail => sendEmail py actor state
    | .handoff => handoff actor state
    | .finish => return .wrote []
  route node state :=
    match node with
    | .killswitchGate => .ok (if Json.flag state "paused" then none else some .fetchApplication)
    | .fetchApplication => .ok (some .ocr)
    | .ocr => .ok (some .extract)
    | .extract => .ok (some (if Json.flag state "blocked_reason" then .finish else .crosscheck))
    | .crosscheck => (routeAfterCrosscheck state).map some
    | .flag => .ok (some .finish)
    | .composeEmail => .ok (some .hitl)
    | .hitl => .ok (some (if Json.flag state "rejected" then .finish else .sendEmail))
    | .sendEmail => .ok (some .finish)
    | .handoff => .ok (some .finish)
    | .finish => .ok none

end Nodes

/-! ## What each node calls -/

/-- The tools that each node calls. -/
def nodeTools : Node → List ToolSpec
  | .fetchApplication => [crmGetApplication]
  | .ocr => [ocrExtractText]
  | .flag => [crmUpdateStatus]
  | .sendEmail => [emailSend, crmUpdateStatus]
  | .handoff => [crmUpdateStatus]
  | _ => []

/-- The node that calls the model. -/
def callsModel (node : Node) : Bool := node = .extract

/-- Reading the documents calls the reader. -/
theorem only_ocrDocuments (py : Builtins) (actor : Actor) {tools : List ToolSpec} {model : Bool}
    (h : ocrExtractText ∈ tools) (documents : List Json) :
    (ocrDocuments py actor documents).Only (NodeCall actor tools model) := by
  induction documents with
  | nil => exact Prog.only_pure _
  | cons document rest ih =>
    exact (Prog.only_ofExcept _).bind fun _ => (Prog.only_call ⟨rfl, h⟩).bind fun _ =>
      (Prog.only_ofExcept _).bind fun _ => (Prog.only_ofExcept _).bind fun _ => ih.bind fun _ =>
      Prog.only_pure _

/-- Each node makes its own calls only. -/
theorem only_body (py : Builtins) (reading : Reading) (actor : Actor) (killswitch : Option KillSwitch)
    (node : Node) (resume : Option Json) (state : Dict) :
    ((graph py reading actor killswitch).body node resume state).Only
      (NodeCall actor (nodeTools node) (callsModel node)) := by
  cases node with
  | killswitchGate => exact nodeCall_killswitchGate killswitch agentName
  | fetchApplication =>
    exact (Prog.only_ofExcept _).bind fun _ => (Prog.only_call ⟨rfl, by decide⟩).bind fun _ => Prog.only_pure _
  | ocr =>
    exact (Prog.only_ofExcept _).bind fun _ => (only_ocrDocuments py actor (by decide) _).bind fun _ =>
      Prog.only_pure _
  | extract =>
    refine (Prog.only_ofExcept _).bind fun blank => ?_
    cases blank with
    | true => trivial
    | false =>
      refine (Prog.only_ofExcept _).bind fun _ => Prog.Only.bind ?_ fun dossier => ?_
      · exact Prog.Only.attempt ((Prog.only_call ⟨rfl, rfl⟩).bind fun _ => Prog.only_ofExcept _)
      · match dossier with
        | .ok dossier => trivial
        | .error error =>
          show Prog.Only _ (if error.kind = .parseError then _ else _)
          split <;> trivial
  | crosscheck =>
    exact (Prog.only_ofExcept _).bind fun _ => (Prog.only_ofExcept _).bind fun _ =>
      (Prog.only_ofExcept _).bind fun _ => (Prog.only_ofExcept _).bind fun _ =>
      (Prog.only_ofExcept _).bind fun _ => Prog.only_pure _
  | flag =>
    exact (Prog.only_ofExcept _).bind fun _ => (Prog.only_ofExcept _).bind fun _ =>
      (Prog.only_ofExcept _).bind fun _ => (Prog.only_ofExcept _).bind fun _ =>
      (Prog.only_call ⟨rfl, by decide⟩).bind fun _ => Prog.only_pure _
  | composeEmail => exact (Prog.only_ofExcept _).bind fun _ => Prog.only_pure _
  | hitl =>
    exact (only_assertRequiresApproval py _).bind fun _ => (Prog.only_ofExcept _).bind fun _ =>
      (Prog.only_ofExcept _).bind fun _ => (Prog.only_ofExcept _).bind fun _ => nodeCall_interrupt _ resume _
  | sendEmail =>
    exact (Prog.only_ofExcept _).bind fun _ => (Prog.only_ofExcept _).bind fun _ =>
      (Prog.only_ofExcept _).bind fun _ => (Prog.only_ofExcept _).bind fun _ =>
      (only_emailSendTool py _ _ _ (by decide)).bind fun _ => (Prog.only_ofExcept _).bind fun _ =>
      (Prog.only_ofExcept _).bind fun _ => (Prog.only_ofExcept _).bind fun _ =>
      (Prog.only_call ⟨rfl, by decide⟩).bind fun _ => Prog.only_pure _
  | handoff =>
    exact (Prog.only_ofExcept _).bind fun _ => (Prog.only_call ⟨rfl, by decide⟩).bind fun _ => Prog.only_pure _
  | finish => trivial

end FleetWorkflow.Agents.DealerOnboarding
