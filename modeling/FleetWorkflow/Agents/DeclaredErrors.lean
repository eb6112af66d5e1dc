import FleetWorkflow.Agents.DevAgent
import FleetWorkflow.Agents.InvoiceAgent
import FleetWorkflow.Agents.ListingQuality
import FleetWorkflow.Agents.PathGuard
import FleetWorkflow.Agents.Tools
import FleetWorkflow.Agents.VehicleIntake
import FleetWorkflow.Async.Runs
import FleetWorkflow.Flow.Fallible
import FleetWorkflow.Python.Json

/-!
# Extractors that fail as declared

Every extractor makes one model call and parses its reply. Which replies end in a value or in the parse error that the graph
blocks on, and which in an exception that leaves the graph.
-/

namespace FleetWorkflow.Agents

open Python Async Core Flow

/-- A result is a value, or the parse error that the graph blocks on. -/
def EndsAsDeclared {α : Type} (result : Except Exc α) : Prop :=
  (∃ value, result = .ok value) ∨ ∃ message, result = .error ⟨.parseError, message⟩

/-- Whenever the model replies with a content, an extractor ends as it declares. -/
def FailsAsDeclared {α : Type} (program : Coroutine α) (content : String) : Prop :=
  ∀ events result, program.Runs events result → (∀ event ∈ events, RepliedWith content event) → EndsAsDeclared result

/-- Wherever an extractor ends in a parse error, the node that calls it writes a blocked reason. -/
def BlocksOn {α : Type} (program : Coroutine α) (node : Coroutine NodeOutcome) : Prop :=
  ∀ events error, program.Runs events (.error error) → error.kind = .parseError →
    ∃ update reason, node.Runs events (.ok (.wrote update)) ∧ Json.get? update "blocked_reason" = some (.str reason)

/-- An extractor fails as declared, and the node that calls it blocks on the failure. -/
def EndsBlockedOn {α : Type} (program : Coroutine α) (node : Coroutine NodeOutcome) (content : String) : Prop :=
  FailsAsDeclared program content ∧ BlocksOn program node

/-- The numbers of a reply are refused with exceptions of the language. -/
def RefusesNumbers (py : Builtins) : Prop :=
  ∀ value error, py.int value = .error error ∨ py.float value = .error error → error.kind ≠ .parseError

/-- A reply is no JSON, or a value with a property; an integer of more than 4300 digits is neither. -/
def Reads (readable : Json → Prop) (content : String) : Prop :=
  Json.loads (stripCodeFence content) ≠ .error .intDigits ∧
    ∀ value, Json.loads (stripCodeFence content) = .ok value → readable value

section Results

variable {α β : Type}

/-- A value is as declared. -/
theorem endsAsDeclared_ok (value : α) : EndsAsDeclared (.ok value) := .inl ⟨value, rfl⟩

/-- An exception is as declared when it is a parse error. -/
theorem endsAsDeclared_error {error : Exc} : EndsAsDeclared (.error error : Except Exc α) ↔ error.kind = .parseError := by
  constructor
  · rintro (⟨value, hnever⟩ | ⟨message, herror⟩)
    · cases hnever
    · rw [Except.error.inj herror]
  · intro hkind
    exact .inr ⟨error.message, by rw [← hkind]⟩

/-- Where only exceptions of the language are raised first, a sequence ends as declared when there is a value of which the rest
does. -/
theorem endsAsDeclared_bind {x : Except Exc α} {f : α → Except Exc β} (hx : ∀ error, x = .error error → error.kind ≠ .parseError) :
    EndsAsDeclared (x >>= f) ↔ ∃ value, x = .ok value ∧ EndsAsDeclared (f value) := by
  cases x with
  | ok value =>
    constructor
    · exact fun h => ⟨value, rfl, h⟩
    · rintro ⟨value', heq, h⟩
      rw [Except.ok.inj heq]
      exact h
  | error error =>
    constructor
    · exact fun h => absurd (endsAsDeclared_error.mp h) (hx error rfl)
    · rintro ⟨value, hnever, -⟩
      cases hnever

/-- Where the rest always ends as declared, a sequence does when its start does. -/
theorem endsAsDeclared_bind_of_forall {x : Except Exc α} {f : α → Except Exc β} (hf : ∀ value, EndsAsDeclared (f value)) :
    EndsAsDeclared (x >>= f) ↔ EndsAsDeclared x := by
  cases x with
  | ok value => exact ⟨fun _ => endsAsDeclared_ok value, fun _ => hf value⟩
  | error error => exact (endsAsDeclared_error (α := β)).trans (endsAsDeclared_error (α := α)).symm

/-- A sequence ends as declared only if its start does. -/
theorem endsAsDeclared_of_bind {x : Except Exc α} {f : α → Except Exc β} (h : EndsAsDeclared (x >>= f)) : EndsAsDeclared x := by
  cases x with
  | ok value => exact endsAsDeclared_ok value
  | error error => exact endsAsDeclared_error.mpr (endsAsDeclared_error.mp h)

/-- The parse of a reply ends as declared when the reply reads as a value of which the rest does. -/
theorem endsAsDeclared_loads {content message : String} {rest : Json → Except Exc α} :
    EndsAsDeclared (loadsOr ⟨.parseError, message⟩ (stripCodeFence content) >>= rest) ↔
      Reads (fun value => EndsAsDeclared (rest value)) content := by
  rw [Reads, loadsOr]
  cases Json.loads (stripCodeFence content) with
  | ok value =>
    constructor
    · intro h
      refine ⟨fun hnever => (by cases hnever), fun value' heq => ?_⟩
      rw [← Except.ok.inj heq]
      exact h
    · exact fun h => h.2 value rfl
  | error error =>
    cases error with
    | decode =>
      exact ⟨fun _ => ⟨fun hnever => (by cases hnever), fun _ hnever => by cases hnever⟩,
        fun _ => endsAsDeclared_error.mpr rfl⟩
    | intDigits => exact ⟨fun h => absurd (endsAsDeclared_error.mp h) (by decide), fun h => absurd rfl h.1⟩

/-- A reply is read in the same way when the same values are readable. -/
theorem reads_congr {readable readable' : Json → Prop} {content : String} (h : ∀ value, readable value ↔ readable' value) :
    Reads readable content ↔ Reads readable' content := by
  simp only [Reads, h]

/-- One call and the parse of its reply. -/
theorem failsAsDeclared_call {actor : Actor} {method content : String} {prompt : List Json} {kwargs : Dict}
    {parse : String → Except Exc α} :
    FailsAsDeclared ((await (.llm actor method prompt kwargs) : Coroutine LlmResponse) >>= fun response =>
      Prog.ofExcept (parse response.content)) content ↔ EndsAsDeclared (parse content) := by
  constructor
  · intro h
    apply h [⟨.llm actor method prompt kwargs, .ok ⟨content, .null⟩⟩]
    · exact Prog.runs_bind_ofExcept.mpr ⟨.ok ⟨content, .null⟩, Prog.runs_call.mpr rfl, rfl⟩
    · intro event hevent
      rw [List.mem_singleton.mp hevent]
      rfl
  · intro h events result hrun hreplied
    obtain ⟨reply, hcall, rfl⟩ := Prog.runs_bind_ofExcept.mp hrun
    rw [Prog.runs_call.mp hcall] at hreplied
    have hreply := hreplied _ (List.mem_singleton.mpr rfl)
    cases reply with
    | error error => exact hreply.elim
    | ok response =>
      have hcontent : response.content = content := hreply
      rw [← hcontent] at h
      exact h

/-- A node that catches the parse error blocks on it. -/
theorem blocksOn_attempt {program : Coroutine α} {conclude : Except Exc α → Coroutine NodeOutcome}
    (h : ∀ error, error.kind = .parseError → ∃ update reason, conclude (.error error) = .done (.wrote update) ∧
      Json.get? update "blocked_reason" = some (.str reason)) : BlocksOn program (program.attempt >>= conclude) := by
  intro events error hrun hkind
  obtain ⟨update, reason, hconclude, hreason⟩ := h error hkind
  refine ⟨update, reason, Prog.runs_bind.mpr (.inr ⟨events, [], .error error, (List.append_nil events).symm, ?_, ?_⟩), hreason⟩
  · exact Prog.runs_attempt.mpr ⟨_, hrun, rfl⟩
  · rw [hconclude]
    exact .done _

end Results

/-! ## Required fields -/

/-- A value in which something can be looked for. -/
def IsContainer : Json → Bool
  | .arr _ | .obj _ | .str _ => true
  | _ => false

/-- Everything that is looked for is in a value. -/
def HoldsAll (value : Json) (required : List String) : Prop := ∀ field ∈ required, value.contains field = .ok true

/-- Where something can be looked for, what is missing is found. -/
theorem missingFields_ok {value : Json} (h : IsContainer value = true) (required : List String) :
    ∃ missing, missingFields value required = .ok missing ∧ (missing = [] ↔ HoldsAll value required) := by
  induction required with
  | nil => exact ⟨[], rfl, fun _ _ hnever => (by cases hnever), fun _ => rfl⟩
  | cons field rest ih =>
    obtain ⟨missing, hmissing, hall⟩ := ih
    obtain ⟨present, hpresent⟩ : ∃ present, value.contains field = .ok present := by
      cases value with
      | arr items => exact ⟨_, rfl⟩
      | obj fields => exact ⟨_, rfl⟩
      | str s => exact ⟨_, rfl⟩
      | _ => cases h
    refine ⟨_, bind_eq_ok.mpr ⟨present, hpresent, bind_eq_ok.mpr ⟨missing, hmissing, rfl⟩⟩, ?_⟩
    rw [HoldsAll, List.forall_mem_cons, hpresent]
    cases present with
    | true => simpa [HoldsAll] using hall
    | false => simp

/-- Elsewhere looking for something fails. -/
theorem missingFields_error {value : Json} (h : IsContainer value = false) (field : String) (rest : List String) :
    ∃ error, missingFields value (field :: rest) = .error error ∧ error.kind = .typeError := by
  cases value with
  | arr items => cases h
  | obj fields => cases h
  | str s => cases h
  | _ => exact ⟨_, rfl, rfl⟩

section Required

variable {α : Type} {value : Json} {field : String} {rest : List String} {message : List String → String}
  {build : Except Exc α}

/-- What is built after the required fields are found ends as declared when they can be looked for, and what is built does
where they all are. -/
theorem endsAsDeclared_required :
    EndsAsDeclared (missingFields value (field :: rest) >>= fun missing =>
        if missing ≠ [] then .error ⟨.parseError, message missing⟩ else build) ↔
      IsContainer value = true ∧ (HoldsAll value (field :: rest) → EndsAsDeclared build) := by
  cases hcontainer : IsContainer value with
  | false =>
    obtain ⟨error, herror, hkind⟩ := missingFields_error hcontainer field rest
    rw [herror]
    constructor
    · intro h
      rw [endsAsDeclared_error.mp h] at hkind
      cases hkind
    · rintro ⟨hnever, -⟩
      cases hnever
  | true =>
    obtain ⟨missing, hmissing, hall⟩ := missingFields_ok hcontainer (field :: rest)
    rw [hmissing, ← hall]
    show EndsAsDeclared (if missing ≠ [] then _ else _) ↔ _
    by_cases hnil : missing = []
    · simp [hnil]
    · rw [if_pos hnil]
      exact ⟨fun _ => ⟨rfl, fun h => absurd h hnil⟩, fun _ => endsAsDeclared_error.mpr rfl⟩

end Required

/-! ## The extractors -/

/-- A reply from which a plan is read, or that is refused: it is a container, and when it has all fields, it is an object whose
paths can be gone through and whose estimate is a number. -/
def IsPlanReply (py : Builtins) (value : Json) : Prop :=
  IsContainer value = true ∧ (HoldsAll value DevAgent.requiredFields →
    ∃ fields, value = .obj fields ∧ (∃ paths items, Json.get? fields "target_paths" = some paths ∧ paths.iterate = .ok items) ∧
      ∃ estimate n, Json.get? fields "diff_line_estimate" = some estimate ∧ py.int estimate = .ok n)

/-- An exception for a value that is no number. -/
def IsNoNumber (error : Exc) : Prop := error.kind = .typeError ∨ error.kind = .valueError

/-- A reply from which the fields of an invoice are read, or that is refused: it is a container, and when it has all fields, it
is an object whose amount is not too large. -/
def IsInvoiceReply (py : Builtins) (value : Json) : Prop :=
  IsContainer value = true ∧ (HoldsAll value InvoiceAgent.requiredFields →
    ∃ fields amount, value = .obj fields ∧ Json.get? fields "amount" = some amount ∧
      ∀ error, py.float amount = .error error → IsNoNumber error)

/-- A reply from which a brief is read: an object whose kilometres are not infinite. -/
def IsBriefReply (py : Builtins) (value : Json) : Prop :=
  ∃ fields, value = .obj fields ∧ (VehicleIntake.isAbsent ((Json.get? fields "km").getD .null) = true ∨
    ∀ error, py.int ((Json.get? fields "km").getD .null) = .error error → IsNoNumber error)

/-- A reply from which flags are read, or that is refused: an object whose flags, if they are a list, are objects. -/
def IsFlagsReply (value : Json) : Prop :=
  ∃ fields, value = .obj fields ∧ ∀ items, (Json.get? fields "flags").getD (.arr []) = .arr items →
    ∀ item ∈ items, ∃ members, item = .obj members

section Extractors

/-- A field of a value is a field of an object. -/
theorem item_eq_ok {value item : Json} {key : String} :
    value.item key = .ok item ↔ ∃ fields, value = .obj fields ∧ Json.get? fields key = some item := by
  cases value with
  | obj fields =>
    rw [Json.item, Json.field]
    cases hfield : Json.get? fields key with
    | none => simp [hfield]
    | some found => simp [hfield]
  | _ => simp [Json.item]

/-- Looking for a field fails with exceptions of the language. -/
theorem item_kind {value : Json} {key : String} (error : Exc) (h : value.item key = .error error) : error.kind ≠ .parseError := by
  cases value with
  | obj fields =>
    rw [Json.item, Json.field] at h
    cases hfield : Json.get? fields key with
    | none =>
      rw [hfield] at h
      rw [← Except.error.inj h]
      exact fun hnever => by cases hnever
    | some found => simp [hfield] at h
  | _ =>
    rw [← Except.error.inj h]
    decide

/-- Going through a value fails with exceptions of the language. -/
theorem iterate_kind {value : Json} (error : Exc) (h : value.iterate = .error error) : error.kind ≠ .parseError := by
  cases value with
  | arr items => cases h
  | obj fields => cases h
  | str text => cases h
  | _ =>
    rw [← Except.error.inj h]
    decide

/-- A field with a default is read from an object. -/
theorem getOr_eq_ok {value fallback item : Json} {key : String} :
    value.getOr key fallback = .ok item ↔ ∃ fields, value = .obj fields ∧ (Json.get? fields key).getD fallback = item := by
  cases value with
  | obj fields => simp [Json.getOr]
  | _ => simp [Json.getOr]

/-- Reading a field with a default fails with exceptions of the language. -/
theorem getOr_kind {value fallback : Json} {key : String} (error : Exc) (h : value.getOr key fallback = .error error) :
    error.kind ≠ .parseError := by
  cases value with
  | obj fields => cases h
  | _ =>
    rw [← Except.error.inj h]
    decide

/-- A required field of an object is there. -/
theorem exists_of_holdsAll {fields : Dict} {required : List String} (h : HoldsAll (.obj fields) required) (field : String)
    (hfield : field ∈ required) : ∃ value, Json.item (.obj fields) field = .ok value := by
  obtain ⟨value, hvalue⟩ := Option.isSome_iff_exists.mp (Except.ok.inj (h field hfield))
  exact ⟨value, item_eq_ok.mpr ⟨fields, rfl, hvalue⟩⟩

variable {py : Builtins} (hnumbers : RefusesNumbers py) (actor : Actor) (content : String)

include hnumbers in
/-- The plan of a ticket. -/
theorem planTicket_declared_iff (ticket : Dict) :
    FailsAsDeclared (DevAgent.planTicket py actor (.obj ticket)) content ↔ Reads (IsPlanReply py) content := by
  have hprogram : DevAgent.planTicket py actor (.obj ticket) = ((await (.llm actor "reasoning" _ _) : Coroutine LlmResponse)
      >>= fun response => Prog.ofExcept (DevAgent.parsePlan py response.content)) := rfl
  rw [hprogram, failsAsDeclared_call, DevAgent.parsePlan, endsAsDeclared_loads]
  apply reads_congr
  intro value
  apply (@endsAsDeclared_required _ value _ _
    (fun missing => "plan response missing field(s): " ++ py.repr (.arr (missing.map .str))) _).trans
  apply and_congr_right
  intro _
  apply imp_congr_right
  intro hall
  simp only [endsAsDeclared_bind item_kind, endsAsDeclared_bind iterate_kind,
    endsAsDeclared_bind fun error herror => hnumbers _ error (.inl herror)]
  constructor
  · rintro ⟨_, _, _, _, _, _, paths, hpaths, items, hitems, estimate, hestimate, n, hn, _⟩
    obtain ⟨fields, rfl, hpathsField⟩ := item_eq_ok.mp hpaths
    obtain ⟨fields', hfields, hestimateField⟩ := item_eq_ok.mp hestimate
    rw [← Json.obj.inj hfields] at hestimateField
    exact ⟨fields, rfl, ⟨paths, items, hpathsField, hitems⟩, estimate, n, hestimateField, hn⟩
  · rintro ⟨fields, rfl, ⟨paths, items, hpaths, hitems⟩, estimate, n, hestimate, hn⟩
    obtain ⟨branchSuffix, hbranch⟩ := exists_of_holdsAll hall "branch_suffix" (by decide)
    obtain ⟨prTitle, htitle⟩ := exists_of_holdsAll hall "pr_title" (by decide)
    obtain ⟨prBody, hbody⟩ := exists_of_holdsAll hall "pr_body" (by decide)
    exact ⟨branchSuffix, hbranch, prTitle, htitle, prBody, hbody, paths, item_eq_ok.mpr ⟨fields, rfl, hpaths⟩, items, hitems,
      estimate, item_eq_ok.mpr ⟨fields, rfl, hestimate⟩, n, hn, endsAsDeclared_ok _⟩

include hnumbers in
/-- The amount of a value is read as declared when the number is not too large. -/
theorem parseAmount_declared_iff {value amount : Json} (hamount : value.item "amount" = .ok amount) :
    EndsAsDeclared (InvoiceAgent.parseAmount py value) ↔ ∀ error, py.float amount = .error error → IsNoNumber error := by
  have hbind : (Except.ok amount >>= py.float) = py.float amount := rfl
  rw [InvoiceAgent.parseAmount, hamount, hbind]
  cases hfloat : py.float amount with
  | ok read => exact ⟨fun _ error hnever => (by cases hnever), fun _ => endsAsDeclared_ok read⟩
  | error error =>
    have hkind := hnumbers amount error (.inr hfloat)
    by_cases hnumber : IsNoNumber error
    · simp only [show (error.kind = .typeError || error.kind = .valueError) = true by simpa [IsNoNumber] using hnumber]
      exact ⟨fun _ error' heq => Except.error.inj heq ▸ hnumber, fun _ => endsAsDeclared_error.mpr rfl⟩
    · simp only [show (error.kind = .typeError || error.kind = .valueError) = false by simpa [IsNoNumber] using hnumber]
      exact ⟨fun h => absurd (endsAsDeclared_error.mp h) hkind, fun h => absurd (h error rfl) hnumber⟩

/-- The amount of what is no object cannot be read, nor named as what is not numeric. -/
theorem not_endsAsDeclared_parseAmount {value : Json} (h : ∀ fields, value ≠ .obj fields) :
    ¬ EndsAsDeclared (InvoiceAgent.parseAmount py value) := by
  have hitem : value.item "amount" = .error ⟨.typeError, "indices must be integers or slices, not 'str'"⟩ := by
    cases value with
    | obj fields => exact absurd rfl (h fields)
    | _ => rfl
  rw [InvoiceAgent.parseAmount, hitem]
  exact fun hdeclared => absurd (endsAsDeclared_error.mp hdeclared) (by decide)

include hnumbers in
/-- The fields of an invoice. -/
theorem extractInvoiceFields_declared_iff (ocrText : Json) :
    FailsAsDeclared (InvoiceAgent.extractInvoiceFields py actor ocrText) content ↔ Reads (IsInvoiceReply py) content := by
  have hprogram : InvoiceAgent.extractInvoiceFields py actor ocrText =
      ((await (.llm actor "reasoning" _ _) : Coroutine LlmResponse) >>= fun response =>
        Prog.ofExcept (InvoiceAgent.parseFields py response.content)) := rfl
  rw [hprogram, failsAsDeclared_call, InvoiceAgent.parseFields, endsAsDeclared_loads]
  apply reads_congr
  intro value
  apply (@endsAsDeclared_required _ value _ _
    (fun missing => "extraction response missing field(s): " ++ py.repr (.arr (missing.map .str))) _).trans
  apply and_congr_right
  intro _
  apply imp_congr_right
  intro hall
  by_cases hobject : ∃ fields, value = .obj fields
  · obtain ⟨fields, rfl⟩ := hobject
    obtain ⟨vendor, hvendor⟩ := exists_of_holdsAll hall "vendor" (by decide)
    obtain ⟨poNumber, hpoNumber⟩ := exists_of_holdsAll hall "po_number" (by decide)
    obtain ⟨amount, hamount⟩ := exists_of_holdsAll hall "amount" (by decide)
    obtain ⟨currency, hcurrency⟩ := exists_of_holdsAll hall "currency" (by decide)
    obtain ⟨_, hfields, hfound⟩ := item_eq_ok.mp hamount
    rw [← Json.obj.inj hfields] at hfound
    rw [endsAsDeclared_bind_of_forall fun read => by rw [hvendor, hpoNumber, hcurrency]; exact endsAsDeclared_ok _,
      parseAmount_declared_iff hnumbers hamount]
    constructor
    · exact fun h => ⟨fields, amount, rfl, hfound, h⟩
    · rintro ⟨fields', amount', hvalue, hfound', h⟩
      rw [← Json.obj.inj hvalue] at hfound'
      rw [Option.some.inj (hfound.symm.trans hfound')]
      exact h
  · constructor
    · intro h
      exact absurd (endsAsDeclared_of_bind h) (not_endsAsDeclared_parseAmount fun fields hvalue => hobject ⟨fields, hvalue⟩)
    · rintro ⟨fields, amount, hvalue, -⟩
      exact absurd ⟨fields, hvalue⟩ hobject

include hnumbers in
/-- The kilometres of a value are read as declared when they are absent, or when the number is. -/
theorem kmOf_declared_iff {raw : Json} :
    EndsAsDeclared (VehicleIntake.kmOf py raw) ↔
      VehicleIntake.isAbsent raw = true ∨ ∀ error, py.int raw = .error error → IsNoNumber error := by
  rw [VehicleIntake.kmOf]
  by_cases habsent : VehicleIntake.isAbsent raw = true
  · rw [if_pos habsent]
    exact ⟨fun _ => .inl habsent, fun _ => endsAsDeclared_ok _⟩
  · rw [if_neg habsent, or_iff_right habsent]
    cases hint : py.int raw with
    | ok km => exact ⟨fun _ error hnever => (by cases hnever), fun _ => endsAsDeclared_ok _⟩
    | error error =>
      have hkind := hnumbers raw error (.inl hint)
      by_cases hnumber : IsNoNumber error
      · simp only [show (error.kind = .typeError || error.kind = .valueError) = true by simpa [IsNoNumber] using hnumber]
        exact ⟨fun _ error' heq => Except.error.inj heq ▸ hnumber, fun _ => endsAsDeclared_ok _⟩
      · simp only [show (error.kind = .typeError || error.kind = .valueError) = false by simpa [IsNoNumber] using hnumber]
        exact ⟨fun h => absurd (endsAsDeclared_error.mp h) hkind, fun h => absurd (h error rfl) hnumber⟩

include hnumbers in
/-- The brief of a vehicle. -/
theorem extractVehicleBrief_declared_iff (unicode : Unicode) (ocrText : String) :
    FailsAsDeclared (VehicleIntake.extractVehicleBrief py unicode actor ocrText) content ↔ Reads (IsBriefReply py) content := by
  have hprogram : VehicleIntake.extractVehicleBrief py unicode actor ocrText =
      ((await (.llm actor "reasoning" _ _) : Coroutine LlmResponse) >>= fun response =>
        Prog.ofExcept (VehicleIntake.parseBrief py (scrub unicode ocrText).found response.content)) := rfl
  rw [hprogram, failsAsDeclared_call, VehicleIntake.parseBrief, endsAsDeclared_loads]
  apply reads_congr
  intro value
  simp only [endsAsDeclared_bind getOr_kind, getOr_eq_ok]
  constructor
  · rintro ⟨_, _, km, ⟨fields, rfl, rfl⟩, h⟩
    exact ⟨fields, rfl, (kmOf_declared_iff hnumbers).mp (endsAsDeclared_of_bind h)⟩
  · rintro ⟨fields, rfl, h⟩
    refine ⟨_, ⟨fields, rfl, rfl⟩, _, ⟨fields, rfl, rfl⟩, ?_⟩
    rw [endsAsDeclared_bind_of_forall fun km => ?_]
    · exact (kmOf_declared_iff hnumbers).mpr h
    · exact endsAsDeclared_ok _

/-- A flag is read from an object. -/
theorem flagOf_eq_ok {item : Json} : (∃ flag, ListingQuality.flagOf py item = .ok flag) ↔ ∃ members, item = .obj members := by
  cases item with
  | obj members =>
    constructor
    · exact fun _ => ⟨members, rfl⟩
    · intro _
      simp only [ListingQuality.flagOf, Json.getOr, bind, Except.bind]
      split
      · exact ⟨_, rfl⟩
      · exact ⟨_, rfl⟩
  | _ =>
    constructor
    · rintro ⟨flag, hnever⟩
      cases hnever
    · rintro ⟨members, hnever⟩
      cases hnever

/-- Reading a flag fails with exceptions of the language. -/
theorem flagOf_kind {item : Json} (error : Exc) (h : ListingQuality.flagOf py item = .error error) : error.kind ≠ .parseError := by
  cases item with
  | obj members =>
    obtain ⟨flag, hflag⟩ := (@flagOf_eq_ok py (.obj members)).mpr ⟨members, rfl⟩
    rw [hflag] at h
    cases h
  | _ =>
    rw [← Except.error.inj h]
    decide

/-- The items of a list are read as flags as declared when all are objects. -/
theorem mapM_flagOf_declared_iff (items : List Json) :
    EndsAsDeclared (items.mapM (ListingQuality.flagOf py)) ↔ ∀ item ∈ items, ∃ members, item = .obj members := by
  induction items with
  | nil => exact ⟨fun _ => List.forall_mem_nil _, fun _ => endsAsDeclared_ok []⟩
  | cons item rest ih =>
    rw [List.mapM_cons, List.forall_mem_cons, endsAsDeclared_bind flagOf_kind, ← ih, ← @flagOf_eq_ok py item]
    constructor
    · rintro ⟨flag, hflag, h⟩
      exact ⟨⟨flag, hflag⟩, endsAsDeclared_of_bind h⟩
    · rintro ⟨⟨flag, hflag⟩, h⟩
      exact ⟨flag, hflag, (endsAsDeclared_bind_of_forall fun flags => endsAsDeclared_ok _).mpr h⟩

/-- The flags of a listing. -/
theorem checkListing_declared_iff {checking : ListingQuality.Checking} (hflags : checking.parseFlags = ListingQuality.parseFlags py)
    (messages : List Json) :
    FailsAsDeclared (ListingQuality.checkListing checking actor messages) content ↔ Reads IsFlagsReply content := by
  rw [ListingQuality.checkListing, failsAsDeclared_call, hflags]
  apply endsAsDeclared_loads.trans
  apply reads_congr
  intro value
  simp only [endsAsDeclared_bind getOr_kind, getOr_eq_ok]
  constructor
  · rintro ⟨_, ⟨fields, rfl, rfl⟩, h⟩
    refine ⟨fields, rfl, fun items hitems => ?_⟩
    rw [hitems] at h
    exact (mapM_flagOf_declared_iff items).mp (endsAsDeclared_of_bind h)
  · rintro ⟨fields, rfl, h⟩
    refine ⟨_, ⟨fields, rfl, rfl⟩, ?_⟩
    cases hflags : (Json.get? fields "flags").getD (.arr []) with
    | arr items =>
      apply (endsAsDeclared_bind_of_forall fun flags => endsAsDeclared_ok _).mpr
      exact (mapM_flagOf_declared_iff items).mpr (h items hflags)
    | _ => exact endsAsDeclared_error.mpr rfl

/-- The node that plans a ticket. -/
theorem blocksOn_plan {state : Dict} {ticket : Json} (hticket : Json.get? state "ticket" = some ticket) :
    BlocksOn (DevAgent.planTicket py actor ticket) (DevAgent.plan py actor state) := by
  rw [DevAgent.plan, Json.field, hticket]
  apply blocksOn_attempt
  intro error hkind
  refine ⟨[("blocked_reason", .str ("plan generation failed: " ++ error.message))], _, ?_, rfl⟩
  simp only [DevAgent.blockedBy, if_pos (List.mem_singleton.mpr hkind)]
  rfl

/-- The node that extracts the fields of an invoice. -/
theorem blocksOn_extractFields {state : Dict} {ocrText : Json} (hocrText : Json.get? state "ocr_text" = some ocrText) :
    BlocksOn (InvoiceAgent.extractInvoiceFields py actor ocrText) (InvoiceAgent.extractFields py actor state) := by
  rw [InvoiceAgent.extractFields, Json.field, hocrText]
  apply blocksOn_attempt
  intro error hkind
  exact ⟨_, _, if_pos hkind, rfl⟩

/-- The node that extracts a brief. -/
theorem blocksOn_extract {unicode : Unicode} {state : Dict} {ocrText : String}
    (hocrText : Json.get? state "ocr_text" = some (.str ocrText)) :
    BlocksOn (VehicleIntake.extractVehicleBrief py unicode actor ocrText) (VehicleIntake.extract py unicode actor state) := by
  rw [VehicleIntake.extract, Json.field, hocrText]
  apply blocksOn_attempt
  intro error hkind
  exact ⟨_, _, if_pos hkind, rfl⟩

/-- The node that checks a listing. -/
theorem blocksOn_visionCheck {checking : ListingQuality.Checking} {state : Dict} {image description price : Json}
    {messages : List Json} (himage : Json.get? state "image_base64" = some image)
    (hdescription : Json.get? state "description" = some description) (hprice : Json.get? state "price" = some price)
    (hmessages : checking.messages image description price ((Json.get? state "currency").getD (.str "TRY"))
      ((Json.get? state "reference_band").getD .null) = .ok messages) :
    BlocksOn (ListingQuality.checkListing checking actor messages) (ListingQuality.visionCheck checking actor state) := by
  simp only [ListingQuality.visionCheck, Json.field, himage, hdescription, hprice, hmessages, Prog.ofExcept_ok, Prog.done_bind]
  apply blocksOn_attempt
  intro error hkind
  exact ⟨_, _, if_pos hkind, rfl⟩

end Extractors

/-- An extractor fails as declared, and its node blocks on the failure, exactly on the replies that are no JSON or values from
which it reads what it asks for or finds it missing: of a plan, a container with an object of readable fields if it has all of
them; of an invoice, the same with an amount that is not too large; of a vehicle, an object whose kilometres are not infinite;
of a listing, an object whose flags are objects. -/
theorem extractors_declared_iff (py : Builtins) (hnumbers : RefusesNumbers py) (unicode : Unicode) (actor : Actor)
    (checking : ListingQuality.Checking) (hflags : checking.parseFlags = ListingQuality.parseFlags py) (content : String) :
    (∀ state ticket, Json.get? state "ticket" = some (.obj ticket) →
      (EndsBlockedOn (DevAgent.planTicket py actor (.obj ticket)) (DevAgent.plan py actor state) content ↔
        Reads (IsPlanReply py) content)) ∧
    (∀ state ocrText, Json.get? state "ocr_text" = some ocrText →
      (EndsBlockedOn (InvoiceAgent.extractInvoiceFields py actor ocrText) (InvoiceAgent.extractFields py actor state) content ↔
        Reads (IsInvoiceReply py) content)) ∧
    (∀ state ocrText, Json.get? state "ocr_text" = some (.str ocrText) →
      (EndsBlockedOn (VehicleIntake.extractVehicleBrief py unicode actor ocrText)
        (VehicleIntake.extract py unicode actor state) content ↔ Reads (IsBriefReply py) content)) ∧
    ∀ state image description price messages, Json.get? state "image_base64" = some image →
      Json.get? state "description" = some description → Json.get? state "price" = some price →
      checking.messages image description price ((Json.get? state "currency").getD (.str "TRY"))
        ((Json.get? state "reference_band").getD .null) = .ok messages →
      (EndsBlockedOn (ListingQuality.checkListing checking actor messages) (ListingQuality.visionCheck checking actor state)
        content ↔ Reads IsFlagsReply content) := by
  refine ⟨?_, ?_, ?_, ?_⟩
  · intro state ticket hticket
    exact (and_iff_left (blocksOn_plan actor hticket)).trans (planTicket_declared_iff hnumbers actor content ticket)
  · intro state ocrText hocrText
    exact (and_iff_left (blocksOn_extractFields actor hocrText)).trans
      (extractInvoiceFields_declared_iff hnumbers actor content ocrText)
  · intro state ocrText hocrText
    exact (and_iff_left (blocksOn_extract actor hocrText)).trans
      (extractVehicleBrief_declared_iff hnumbers actor content unicode ocrText)
  · intro state image description price messages himage hdescription hprice hmessages
    exact (and_iff_left (blocksOn_visionCheck actor himage hdescription hprice hmessages)).trans
      (checkListing_declared_iff actor content hflags messages)

/-- The numbers of whole numbers are refused with a type error. -/
theorem refusesNumbers_wholeNumbers : RefusesNumbers DevAgent.wholeNumbers := by
  rintro value error (hint | hfloat)
  · cases value with
    | int n => cases hint
    | _ =>
      rw [← Except.error.inj hint]
      decide
  · cases hfloat

/-- The check of a listing without messages. -/
def plainCheck : ListingQuality.Checking := ⟨fun _ _ _ _ _ => .ok [], ListingQuality.parseFlags DevAgent.wholeNumbers⟩

/-- The four extractors on the reply of a sentence. -/
theorem extractors_declared_iff_sentence :
    (EndsBlockedOn (DevAgent.planTicket DevAgent.wholeNumbers DevAgent.someRun (.obj []))
      (DevAgent.plan DevAgent.wholeNumbers DevAgent.someRun [("ticket", .obj [])]) "I cannot." ↔
        Reads (IsPlanReply DevAgent.wholeNumbers) "I cannot.") ∧
    (EndsBlockedOn (InvoiceAgent.extractInvoiceFields DevAgent.wholeNumbers DevAgent.someRun (.str ""))
      (InvoiceAgent.extractFields DevAgent.wholeNumbers DevAgent.someRun [("ocr_text", .str "")]) "I cannot." ↔
        Reads (IsInvoiceReply DevAgent.wholeNumbers) "I cannot.") ∧
    (EndsBlockedOn (VehicleIntake.extractVehicleBrief DevAgent.wholeNumbers .asciiOnly DevAgent.someRun "")
      (VehicleIntake.extract DevAgent.wholeNumbers .asciiOnly DevAgent.someRun [("ocr_text", .str "")]) "I cannot." ↔
        Reads (IsBriefReply DevAgent.wholeNumbers) "I cannot.") ∧
    (EndsBlockedOn (ListingQuality.checkListing plainCheck DevAgent.someRun [])
      (ListingQuality.visionCheck plainCheck DevAgent.someRun
        [("image_base64", .str ""), ("description", .str ""), ("price", .int 1)]) "I cannot." ↔ Reads IsFlagsReply "I cannot.") := by
  obtain ⟨hplan, hinvoice, hvehicle, hlisting⟩ := extractors_declared_iff DevAgent.wholeNumbers refusesNumbers_wholeNumbers
    .asciiOnly DevAgent.someRun plainCheck rfl "I cannot."
  exact ⟨hplan _ _ rfl, hinvoice _ _ rfl, hvehicle _ _ rfl, hlisting _ _ _ _ _ rfl rfl rfl rfl⟩

/-- A number is no reply that an extractor reads or refuses. -/
theorem number_not_declared :
    ¬ FailsAsDeclared (DevAgent.planTicket DevAgent.wholeNumbers DevAgent.someRun (.obj [])) "5" ∧
    ¬ FailsAsDeclared (InvoiceAgent.extractInvoiceFields DevAgent.wholeNumbers DevAgent.someRun (.str "")) "5" ∧
    ¬ FailsAsDeclared (VehicleIntake.extractVehicleBrief DevAgent.wholeNumbers .asciiOnly DevAgent.someRun "") "5" ∧
    ¬ FailsAsDeclared (ListingQuality.checkListing plainCheck DevAgent.someRun []) "5" := by
  have hloads : Json.loads (stripCodeFence "5") = .ok (.int 5) := by decide
  rw [planTicket_declared_iff refusesNumbers_wholeNumbers, extractInvoiceFields_declared_iff refusesNumbers_wholeNumbers,
    extractVehicleBrief_declared_iff refusesNumbers_wholeNumbers, checkListing_declared_iff _ _ rfl]
  refine ⟨fun h => ?_, fun h => ?_, fun h => ?_, fun h => ?_⟩
  · cases (h.2 _ hloads).1
  · cases (h.2 _ hloads).1
  · obtain ⟨fields, hnever, -⟩ := h.2 _ hloads
    cases hnever
  · obtain ⟨fields, hnever, -⟩ := h.2 _ hloads
    cases hnever

end FleetWorkflow.Agents
