import FleetWorkflow.Agents.Replies
import FleetWorkflow.Agents.Tools

/-!
# The invoice agent

Image, text, extracted fields, validation against the purchase orders, draft entry: a fixed pipeline
with one interrupt before the entry. What the validation finds is shown at the interrupt and does
not change the route.
-/

namespace FleetWorkflow.Agents.InvoiceAgent

open Python Async Core

/-! ## Extraction -/

/-- What is read off an invoice. -/
structure InvoiceFields where
  vendor : String
  poNumber : String
  amount : PyFloat
  currency : String

/-- The fields that an extraction response has to have. -/
def requiredFields : List String := ["vendor", "po_number", "amount", "currency"]

/-- The instruction of the extraction call. -/
def extractionPrompt : String :=
  "You are an invoice field extraction assistant. Given OCR'd invoice text (which may contain OCR " ++
  "noise/errors), extract the following fields.\n\n" ++
  "Respond with exactly one JSON object and nothing else — no markdown code fences, no commentary:\n" ++
  "\x7b\n" ++
  "  \"vendor\": \"<vendor/supplier name as written on the invoice>\",\n" ++
  "  \"po_number\": \"<purchase order number referenced on the invoice, e.g. 'PO-1001'>\",\n" ++
  "  \"amount\": <total amount as a number, no currency symbol or thousands separators>,\n" ++
  "  \"currency\": \"<3-letter currency code, e.g. 'TRY', 'USD'>\"\n" ++
  "\x7d\n\n" ++
  "If a field cannot be determined from the text, use an empty string (or 0 for amount).\n"

section Extraction

variable (py : Builtins)

/-- `float(parsed["amount"])`, where a value that is not numeric is a parse error. -/
def parseAmount (parsed : Json) : Except Exc PyFloat :=
  match parsed.item "amount" >>= py.float with
  | .ok amount => .ok amount
  | .error error =>
    if error.kind = .typeError || error.kind = .valueError then do
      let value ← parsed.item "amount"
      .error ⟨.parseError, "amount is not numeric: " ++ py.repr value⟩
    else .error error

/-- Parse an extraction response. -/
def parseFields (content : String) : Except Exc InvoiceFields := do
  let parsed ← loadsOr ⟨.parseError, "model did not return valid JSON: " ++ py.repr (.str content)⟩
    (stripCodeFence content)
  let missing ← missingFields parsed requiredFields
  if missing ≠ [] then
    .error ⟨.parseError, "extraction response missing field(s): " ++ py.repr (.arr (missing.map .str))⟩
  else
    let amount ← parseAmount py parsed
    let vendor ← parsed.item "vendor"
    let poNumber ← parsed.item "po_number"
    let currency ← parsed.item "currency"
    return ⟨py.str vendor, py.str poNumber, amount, py.str currency⟩

/-- The dictionary that the fields are kept as in the state. -/
def InvoiceFields.asDict (fields : InvoiceFields) : Dict :=
  [("vendor", .str fields.vendor), ("po_number", .str fields.poNumber), ("amount", .float fields.amount),
    ("currency", .str fields.currency)]

/-- `extract_invoice_fields`: one model call, then the parse. -/
def extractInvoiceFields (actor : Actor) (ocrText : Json) : Coroutine InvoiceFields := do
  let response ← await (.llm actor "reasoning"
    [chatMessage "system" extractionPrompt, .obj [("role", .str "user"), ("content", ocrText)]]
    [("sensitivity", .str "confidential")])
  Prog.ofExcept (parseFields py response.content)

end Extraction

/-! ## Validation -/

/-- A row of the purchase orders. -/
structure PurchaseOrder where
  poNumber : String
  vendor : String
  amount : PyFloat
  currency : String

/-- What the validation found. -/
structure ValidationResult where
  ok : Bool
  reasons : List String
  purchaseOrder : Option PurchaseOrder

section Validation

variable (py : Builtins) (exceedsTolerance : PyFloat → PyFloat → Bool)

/-- The query of the lookup; the number is matched after it. -/
def poQuery : String := "SELECT po_number, vendor, amount, currency FROM fixture_purchase_orders"

/-- The first row of a purchase order number. -/
def findPo (poNumber : String) : List Json → Except Exc (Option PurchaseOrder)
  | [] => .ok none
  | row :: rest => do
    if py.str (← row.item "po_number") = poNumber then
      let vendor ← row.item "vendor"
      let amount ← py.float (← row.item "amount")
      let currency ← row.item "currency"
      return some ⟨poNumber, py.str vendor, amount, py.str currency⟩
    else findPo poNumber rest

/-- `PgPoLookup.lookup`. -/
def lookupPo (actor : Actor) (poNumber : String) : Coroutine (Option PurchaseOrder) := do
  let rows ← await (.tool actor pgRoQuery [("sql", .str poQuery)])
  let rows ← Prog.ofExcept rows.iterate
  Prog.ofExcept (findPo py poNumber rows)

/-- `_amount_mismatches`; `exceedsTolerance x y` is `abs(x - y) / y > 0.01` in floating point. -/
def amountMismatches (invoiceAmount poAmount : PyFloat) : Bool :=
  if poAmount.isZero then !invoiceAmount.isZero else exceedsTolerance invoiceAmount poAmount

/-- The reasons of a purchase order that does not match. -/
def mismatchReasons (fields : InvoiceFields) (po : PurchaseOrder) : List String :=
  (if amountMismatches exceedsTolerance fields.amount po.amount then
    ["amount mismatch: invoice " ++ py.str (.float fields.amount) ++ " " ++ fields.currency ++
      " vs PO " ++ py.str (.float po.amount) ++ " " ++ po.currency]
  else []) ++
  (if py.lower (strip fields.vendor) ≠ py.lower (strip po.vendor) then
    ["vendor mismatch: invoice " ++ py.repr (.str fields.vendor) ++ " vs PO " ++ py.repr (.str po.vendor)]
  else [])

/-- `validate_invoice`. -/
def validateInvoice (actor : Actor) (seen : List String) (fields : InvoiceFields) :
    Coroutine ValidationResult := do
  let duplicate :=
    if fields.poNumber ∈ seen then
      ["duplicate: PO " ++ py.repr (.str fields.poNumber) ++ " already processed"]
    else []
  match ← lookupPo py actor fields.poNumber with
  | none =>
    return ⟨false, duplicate ++ ["purchase order not found: " ++ py.repr (.str fields.poNumber)], none⟩
  | some po =>
    let reasons := duplicate ++ mismatchReasons py exceedsTolerance fields po
    return ⟨reasons = [], reasons, some po⟩

/-- The dictionary of a purchase order. -/
def PurchaseOrder.asDict (po : PurchaseOrder) : Json :=
  .obj [("po_number", .str po.poNumber), ("vendor", .str po.vendor), ("amount", .float po.amount),
    ("currency", .str po.currency)]

/-- The dictionary that a validation is kept as in the state. -/
def ValidationResult.asDict (result : ValidationResult) : Json :=
  .obj [("ok", .bool result.ok), ("reasons", .arr (result.reasons.map .str)),
    ("purchase_order", match result.purchaseOrder with | some po => po.asDict | none => .null)]

end Validation

/-! ## Nodes -/

/-- The name of the agent's row. -/
def agentName : String := "invoice_agent"

/-- The nodes of the graph. -/
inductive Node where
  | killswitchGate
  | ocr
  | extractFields
  | validate
  | hitl
  | createDraftEntry
  | finish
deriving DecidableEq

/-- The names of the nodes. -/
def nodeNames : NodeNames Node where
  nodes := [.killswitchGate, .ocr, .extractFields, .validate, .hitl, .createDraftEntry, .finish]
  name
    | .killswitchGate => "killswitch_gate"
    | .ocr => "ocr"
    | .extractFields => "extract_fields"
    | .validate => "validate"
    | .hitl => "hitl"
    | .createDraftEntry => "create_draft_entry"
    | .finish => "end"
  find_name node := by cases node <;> rfl

section Nodes

variable (py : Builtins) (exceedsTolerance : PyFloat → PyFloat → Bool) (actor : Actor)

/-- Read the text off the image. -/
def ocrNode (state : Dict) : Coroutine NodeOutcome := do
  let image ← Prog.ofExcept (Json.field state "image_base64")
  let result ← await (.tool actor ocrExtractText [("image_base64", image)])
  let text ← Prog.ofExcept (result.item "text")
  return .wrote [("ocr_text", text)]

/-- Extract the fields; a malformed reply blocks the run. -/
def extractFields (state : Dict) : Coroutine NodeOutcome := do
  let ocrText ← Prog.ofExcept (Json.field state "ocr_text")
  match ← (extractInvoiceFields py actor ocrText).attempt with
  | .ok fields => return .wrote [("fields", .obj fields.asDict)]
  | .error error =>
    if error.kind = .parseError then
      return .wrote [("blocked_reason", .str ("field extraction failed: " ++ error.message))]
    else .raise error

/-- The text of a field that was extracted as one. -/
def textOf : Json → Except Exc String
  | .str text => .ok text
  | _ => .error ⟨.attributeError, "object has no attribute 'strip'"⟩

/-- The number of a field that was extracted as one. -/
def amountOf : Json → Except Exc PyFloat
  | .float amount => .ok amount
  | _ => .error ⟨.typeError, "unsupported operand type"⟩

/-- The fields in a state. -/
def stateFields (state : Dict) : Except Exc InvoiceFields := do
  let fields ← Json.field state "fields"
  let vendor ← textOf (← fields.item "vendor")
  let poNumber ← textOf (← fields.item "po_number")
  let amount ← amountOf (← fields.item "amount")
  let currency ← textOf (← fields.item "currency")
  return ⟨vendor, poNumber, amount, currency⟩

/-- Validate the fields. -/
def validate (seen : List String) (state : Dict) : Coroutine NodeOutcome := do
  let fields ← Prog.ofExcept (stateFields state)
  let result ← validateInvoice py exceedsTolerance actor seen fields
  return .wrote [("validation", result.asDict)]

/-- The payload of the interrupt. -/
def draftEntryPayload (fields validation : Json) : Json :=
  .obj [("tool", .str erpCreateDraftEntry.name), ("risk_class", .str erpCreateDraftEntry.riskClass),
    ("args", fields), ("validation", validation)]

/-- The interrupt before the entry, which always waits for an approval. -/
def hitl (resume : Option Json) (state : Dict) : Coroutine NodeOutcome := do
  assertRequiresApproval py erpCreateDraftEntry
  let fields ← Prog.ofExcept (Json.field state "fields")
  let validation ← Prog.ofExcept (Json.field state "validation")
  interrupt (draftEntryPayload fields validation) resume rejectUnlessApproved

/-- The arguments of the entry, read from the fields of a state. -/
def draftEntryArgs (fields : Json) : Except Exc Dict := do
  let vendor ← fields.item "vendor"
  let poNumber ← fields.item "po_number"
  let amount ← fields.item "amount"
  let currency ← fields.item "currency"
  return [("vendor", vendor), ("po_number", poNumber), ("amount", amount), ("currency", currency)]

/-- Create the draft entry. -/
def createDraftEntry (state : Dict) : Coroutine NodeOutcome := do
  let fields ← Prog.ofExcept (Json.field state "fields")
  let args ← Prog.ofExcept (draftEntryArgs fields)
  let entry ← await (.tool actor erpCreateDraftEntry args)
  return .wrote [("draft_entry", entry)]

/-- `build_invoice_agent_graph`; `seen` are the numbers seen before this run. -/
def graph (killswitch : Option KillSwitch) (seen : List String) : AgentGraph Node where
  entry := .killswitchGate
  merge := Json.merge
  body node resume state :=
    match node with
    | .killswitchGate => killswitchGate killswitch agentName
    | .ocr => ocrNode actor state
    | .extractFields => extractFields py actor state
    | .validate => validate py exceedsTolerance actor seen state
    | .hitl => hitl py resume state
    | .createDraftEntry => createDraftEntry actor state
    | .finish => return .wrote []
  route node state :=
    match node with
    | .killswitchGate => .ok (if Json.flag state "paused" then none else some .ocr)
    | .ocr => .ok (some .extractFields)
    | .extractFields => .ok (some (if Json.flag state "blocked_reason" then .finish else .validate))
    | .validate => .ok (some .hitl)
    | .hitl => .ok (some (if Json.flag state "rejected" then .finish else .createDraftEntry))
    | .createDraftEntry => .ok (some .finish)
    | .finish => .ok none

end Nodes

/-! ## What each node calls -/

/-- The tools that each node calls. -/
def nodeTools : Node → List ToolSpec
  | .ocr => [ocrExtractText]
  | .validate => [pgRoQuery]
  | .createDraftEntry => [erpCreateDraftEntry]
  | _ => []

/-- The node that calls the model. -/
def callsModel (node : Node) : Bool := node = .extractFields

/-- Each node makes its own calls only. -/
theorem only_body (py : Builtins) (exceedsTolerance : PyFloat → PyFloat → Bool) (actor : Actor)
    (killswitch : Option KillSwitch) (seen : List String) (node : Node) (resume : Option Json) (state : Dict) :
    ((graph py exceedsTolerance actor killswitch seen).body node resume state).Only
      (NodeCall actor (nodeTools node) (callsModel node)) := by
  cases node with
  | killswitchGate => exact nodeCall_killswitchGate killswitch agentName
  | ocr =>
    exact (Prog.only_ofExcept _).bind fun _ => (Prog.only_call ⟨rfl, by decide⟩).bind fun _ =>
      (Prog.only_ofExcept _).bind fun _ => Prog.only_pure _
  | extractFields =>
    refine (Prog.only_ofExcept _).bind fun _ => Prog.Only.bind ?_ fun fields => ?_
    · exact Prog.Only.attempt ((Prog.only_call ⟨rfl, rfl⟩).bind fun _ => Prog.only_ofExcept _)
    · match fields with
      | .ok fields => trivial
      | .error error =>
        show Prog.Only _ (if error.kind = .parseError then _ else _)
        split <;> trivial
  | validate =>
    refine (Prog.only_ofExcept _).bind fun fields => Prog.Only.bind ?_ fun _ => Prog.only_pure _
    refine Prog.Only.bind ?_ fun po => by cases po <;> trivial
    exact (Prog.only_call ⟨rfl, by decide⟩).bind fun _ => (Prog.only_ofExcept _).bind fun _ =>
      Prog.only_ofExcept _
  | hitl =>
    exact (only_assertRequiresApproval py _).bind fun _ => (Prog.only_ofExcept _).bind fun _ =>
      (Prog.only_ofExcept _).bind fun _ => nodeCall_interrupt _ resume _
  | createDraftEntry =>
    exact (Prog.only_ofExcept _).bind fun _ => (Prog.only_ofExcept _).bind fun _ =>
      (Prog.only_call ⟨rfl, by decide⟩).bind fun _ => Prog.only_pure _
  | finish => trivial

end FleetWorkflow.Agents.InvoiceAgent
