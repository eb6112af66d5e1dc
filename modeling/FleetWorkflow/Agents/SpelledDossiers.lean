import FleetWorkflow.Agents.CompanyNames
import FleetWorkflow.Agents.DealerEffects
import FleetWorkflow.Core.Identifiers

/-!
# Dossiers that invent nothing

How the reply of the extraction call is read as a dossier: a field that the reply does not hold is missing, a tax number is
the ten digits of its field, and an IBAN has the form of one. Runs of the graph with this reading: an application goes to the
sales only with a name and a tax number that the model has spelled in the run, and whatever is shown to a reviewer is spelled
there as well.
-/

namespace FleetWorkflow.Agents.DealerOnboarding

open Python Async Core Flow

/-- The instruction of the extraction call. -/
def extractionPrompt : String :=
  "You extract fields from a Turkish dealer application document (an authorization certificate \"Yetki " ++
  "Belgesi\" or a tax registration \"Vergi Levhası\"). The text comes from OCR, so it may contain noise.\n" ++
  "\n" ++
  "Respond with exactly one JSON object and nothing else — no markdown, no commentary:\n" ++
  "\x7b\n" ++
  "  \"company_name\": \"<the company / trade name on the document, or null>\",\n" ++
  "  \"tax_no\": \"<the 10-digit tax number (vergi kimlik no), digits only, or null>\",\n" ++
  "  \"iban\": \"<the IBAN, e.g. TR000000000000000000000000, or null>\",\n" ++
  "  \"certificate_no\": \"<the certificate/document number, or null>\"\n" ++
  "\x7d\n" ++
  "\n" ++
  "Use null for any field that is not clearly present in the text. NEVER invent or complete a company " ++
  "name, tax number, IBAN, or certificate number. Copy digits exactly as they appear; do not reformat, " ++
  "pad, or correct them."

/-- `value in (None, "", "null", "None")`. -/
def isAbsent : Json → Bool
  | .null => true
  | .str text => text = "" || text = "null" || text = "None"
  | _ => false

/-- `_TAX_NO_RE.match(digits)` succeeds. -/
def isTaxNo (digits : String) : Bool :=
  let line := dropFinalNewline digits.toList
  line.all isDecimal && line.length = 10

/-- `_IBAN_RE.match(compact)` succeeds. -/
def isIban (compact : String) : Bool :=
  match dropFinalNewline compact.toList with
  | 'T' :: 'R' :: digits => digits.all isDecimal && digits.length = 24
  | _ => false

section Parsing

variable (py : Builtins) (upper : String → String)

/-- `_clean(value)`. -/
def clean (value : Json) : Option String :=
  let text := strip (py.str value)
  if isAbsent value || text = "" then none else some text

/-- A value that is cleaned and rewritten, if the result has its form. -/
def normalized (rewrite : String → String) (hasForm : String → Bool) (value : Json) : Option String :=
  (clean py value).bind fun raw => if hasForm (rewrite raw) then some (rewrite raw) else none

/-- `re.sub(r"\D", "", raw)`. -/
def digitsOf (raw : String) : String := String.ofList (raw.toList.filter isDecimal)

/-- `re.sub(r"\s", "", raw).upper()`. -/
def compactOf (raw : String) : String := upper (String.ofList (raw.toList.filter fun c => !isSpace c))

/-- `_normalize_tax_no(value)`. -/
def normalizeTaxNo : Json → Option String := normalized py digitsOf isTaxNo

/-- `_normalize_iban(value)`. -/
def normalizeIban : Json → Option String := normalized py (compactOf upper) isIban

/-- `parsed.get(key)`. -/
def entry (fields : Dict) (key : String) : Json := (Json.get? fields key).getD .null

/-- The dossier of a reply. -/
def dossierOf (fields : Dict) : DealerDossier where
  companyName := clean py (entry fields "company_name")
  taxNo := normalizeTaxNo py (entry fields "tax_no")
  iban := normalizeIban py upper (entry fields "iban")
  certificateNo := clean py (entry fields "certificate_no")

/-- Parse an extraction response. -/
def parseDossier (content : String) : Except Exc DealerDossier := do
  match ← loadsOr ⟨.parseError, "model did not return valid JSON: " ++ py.repr (.str content)⟩ (stripCodeFence content) with
  | .obj fields => return dossierOf py upper fields
  | parsed => .error ⟨.parseError, "expected a JSON object, got " ++ py.repr parsed⟩

/-- The reading of the extractor and of the cross-check. -/
def dossierReading (database : Unicodedata) : Reading :=
  ⟨extractionPrompt, parseDossier py upper, normalizeCompanyName py database⟩

/-! ## What a reply spells -/

/-- A value says a text: it is that text, without the blanks around it. -/
structure Says (value : Json) (text : String) : Prop where
  present : isAbsent value = false
  stripped : strip (py.str value) = text
  filled : text ≠ ""

/-- A value spells a tax number: its digits are ten, and the number. -/
def SpellsTaxNo (value : Json) (taxNo : String) : Prop :=
  ∃ raw, Says py value raw ∧ digitsOf raw = taxNo ∧ IsDigits 10 taxNo.toList

/-- A value spells an IBAN: without white space and in capitals, it is one. -/
def SpellsIban (value : Json) (iban : String) : Prop :=
  ∃ raw, Says py value raw ∧ compactOf upper raw = iban ∧ IsIban (dropFinalNewline iban.toList)

/-- A dossier has what the entries of a reply spell, and nothing else. -/
structure Spelled (fields : Dict) (dossier : DealerDossier) : Prop where
  companyName : ∀ name, dossier.companyName = some name ↔ Says py (entry fields "company_name") name
  taxNo : ∀ taxNo, dossier.taxNo = some taxNo ↔ SpellsTaxNo py (entry fields "tax_no") taxNo
  iban : ∀ iban, dossier.iban = some iban ↔ SpellsIban py upper (entry fields "iban") iban
  certificateNo : ∀ number, dossier.certificateNo = some number ↔ Says py (entry fields "certificate_no") number

/-- The reply is one object, within a code fence or not. -/
def Holds (content : String) (fields : Dict) : Prop := Json.loads (stripCodeFence content) = .ok (.obj fields)

variable {py upper}

/-- Cleaning keeps what a value says. -/
theorem clean_eq_some {value : Json} {text : String} : clean py value = some text ↔ Says py value text := by
  simp only [clean, Option.ite_none_left_eq_some, Bool.or_eq_true, decide_eq_true_eq, not_or, Bool.not_eq_true,
    Option.some.injEq]
  constructor
  · intro h
    exact ⟨h.1.1, h.2, h.2 ▸ h.1.2⟩
  · intro h
    exact ⟨⟨h.present, h.stripped.symm ▸ h.filled⟩, h.stripped⟩

/-- Digits are a tax number when they are ten. -/
theorem isTaxNo_digitsOf (raw : String) : isTaxNo (digitsOf raw) = true ↔ IsDigits 10 (digitsOf raw).toList := by
  have hline : '\n' ∉ (digitsOf raw).toList := by
    rw [digitsOf, String.toList_ofList]
    exact fun hmem => absurd (List.mem_filter.mp hmem).2 (by decide)
  rw [isTaxNo, dropFinalNewline_of_notMem hline, Bool.and_eq_true, List.all_eq_true, decide_eq_true_eq, IsDigits]

/-- The form of an IBAN. -/
theorem isIban_iff {compact : String} : isIban compact = true ↔ IsIban (dropFinalNewline compact.toList) := by
  rw [isIban, IsIban]
  split
  · rename_i digits hline
    rw [hline, Bool.and_eq_true, List.all_eq_true, decide_eq_true_eq]
    constructor
    · exact fun h => ⟨digits, rfl, h⟩
    · intro h
      obtain ⟨digits', heq, hdigits⟩ := h
      cases heq
      exact hdigits
  · rename_i hline
    constructor
    · exact fun h => by cases h
    · intro h
      obtain ⟨digits, heq, -⟩ := h
      exact absurd heq (hline digits)

/-- What is normalized is what a value says, rewritten, where that has the form. -/
theorem normalized_eq_some {rewrite : String → String} {hasForm : String → Bool} {value : Json} {text : String} :
    normalized py rewrite hasForm value = some text ↔ ∃ raw, Says py value raw ∧ rewrite raw = text ∧ hasForm text = true := by
  rw [normalized, Option.bind_eq_some_iff]
  refine exists_congr fun raw => and_congr clean_eq_some ?_
  rw [Option.ite_none_right_eq_some, Option.some.injEq]
  constructor
  · intro h
    exact ⟨h.2, h.2 ▸ h.1⟩
  · intro h
    exact ⟨h.1.symm ▸ h.2, h.1⟩

/-- A tax number is normalized to the one that is spelled. -/
theorem normalizeTaxNo_eq_some {value : Json} {taxNo : String} :
    normalizeTaxNo py value = some taxNo ↔ SpellsTaxNo py value taxNo := by
  rw [normalizeTaxNo, normalized_eq_some]
  refine exists_congr fun raw => and_congr_right fun _ => and_congr_right fun heq => ?_
  rw [← heq, isTaxNo_digitsOf]

/-- An IBAN is normalized to the one that is spelled. -/
theorem normalizeIban_eq_some {value : Json} {iban : String} :
    normalizeIban py upper value = some iban ↔ SpellsIban py upper value iban := by
  rw [normalizeIban, normalized_eq_some]
  exact exists_congr fun raw => and_congr_right fun _ => and_congr_right fun _ => isIban_iff

/-- The dossier of a reply has what the reply spells. -/
theorem spelled_dossierOf (fields : Dict) : Spelled py upper fields (dossierOf py upper fields) where
  companyName _ := clean_eq_some
  taxNo _ := normalizeTaxNo_eq_some
  iban _ := normalizeIban_eq_some
  certificateNo _ := clean_eq_some

/-- A dossier is parsed from a reply that is an object. -/
theorem parseDossier_eq_ok {content : String} {dossier : DealerDossier} : parseDossier py upper content = .ok dossier ↔
    ∃ fields, Holds content fields ∧ dossierOf py upper fields = dossier := by
  rw [parseDossier, bind_eq_ok, loadsOr]
  constructor
  · intro h
    obtain ⟨parsed, hparsed, hdossier⟩ := h
    split at hparsed
    · rename_i hloads
      cases hparsed
      cases parsed with
      | obj fields => exact ⟨fields, hloads, Except.ok.inj hdossier⟩
      | _ => cases hdossier
    · cases hparsed
    · cases hparsed
  · intro h
    obtain ⟨fields, hloads, rfl⟩ := h
    rw [Holds] at hloads
    rw [hloads]
    exact ⟨.obj fields, rfl, rfl⟩

end Parsing

/-! ## Runs -/

section Runs

variable {py : Builtins} {upper : String → String} {database : Unicodedata}

/-- A dossier is what the last reply of the model in a run spells; without a reply there is nothing to know. -/
def Known (py : Builtins) (upper : String → String) (course : Course) (dossier : DealerDossier) : Prop :=
  (∃ content fields, course.reply = some content ∧ Holds content fields ∧ Spelled py upper fields dossier) ∨
    course.reply = none ∧ dossier = ⟨none, none, none, none⟩

/-- A dossier that a run has is known. -/
theorem Course.HasDossier.known {course : Course} {dossier : DealerDossier}
    (h : course.HasDossier (dossierReading py upper database) dossier) : Known py upper course dossier := by
  rw [Course.HasDossier] at h
  cases hreply : course.reply with
  | none =>
    rw [hreply] at h
    exact .inr ⟨hreply, h⟩
  | some content =>
    rw [hreply] at h
    obtain ⟨fields, hholds, rfl⟩ := parseDossier_eq_ok.mp h
    exact .inl ⟨content, fields, hreply, hholds, spelled_dossierOf fields⟩

/-- A run has seen the model spell the name and the tax number of a dealer, whose application names the same company and
came with both documents. -/
structure Identified (py : Builtins) (database : Unicodedata) (start : Dict) (course : Course) : Prop where
  spelled : ∃ content fields name taxNo, course.reply = some content ∧ Holds content fields ∧
    Says py (entry fields "company_name") name ∧ SpellsTaxNo py (entry fields "tax_no") taxNo ∧
    ∃ application, course.application = some application ∧ ∀ other, applicationName py application = .ok (some other) →
      other = "" ∨ normalizeCompanyName py database name = normalizeCompanyName py database other
  documents : ∃ kinds, documentKinds start = .ok kinds ∧
    Json.str "authorization_certificate" ∈ kinds ∧ Json.str "tax_registration" ∈ kinds

/-- A run that found a complete and consistent dossier has its dealer identified. -/
theorem Found.identified {start : Dict} {course : Course} {application : Json} {kinds : List Json}
    {dossier : DealerDossier} {check : CrossCheck}
    (h : Found py (dossierReading py upper database) start course application kinds dossier check)
    (hcomplete : check.complete = true) (hmismatch : check.nameMismatch = false) :
    Identified py database start course := by
  have hnone := h.checked.complete_iff.mp hcomplete
  have hpresent (item : Item) : ¬ item.Missing kinds dossier := by
    rw [← mem_missingItems, hnone]
    exact List.not_mem_nil
  obtain ⟨name, hname⟩ := Option.ne_none_iff_exists'.mp (hpresent .companyName)
  obtain ⟨taxNo, htaxNo⟩ := Option.ne_none_iff_exists'.mp (hpresent .taxNo)
  refine ⟨?_, kinds, h.submitted, not_not.mp (hpresent .authorizationCertificate), not_not.mp (hpresent .taxRegistration)⟩
  rcases h.extracted.known with ⟨content, fields, hreply, hholds, hspelled⟩ | ⟨-, rfl⟩
  · have hsays := (hspelled.companyName name).mp hname
    refine ⟨content, fields, name, taxNo, hreply, hholds, hsays, (hspelled.taxNo taxNo).mp htaxNo, application, h.fetched, ?_⟩
    intro other hother
    simpa only [dossierReading] using h.checked.names hmismatch hname hsays.filled hother
  · cases hname

variable (py upper database) (actor : Actor) (killswitch : Option KillSwitch)

/-- One run of dealer onboarding on a new thread with the reading of the source, resumed with any decisions, whatever the
replies are and whichever calls fail. Whenever the application is moved to the sales, the last reply of the model in the run
spells a name and a tax number of ten digits, the application names the same company, and both documents were submitted. An
interrupt shows a dossier that has what that reply spells and nothing else, and asks for each item once that the reply does
not spell or that was not submitted. -/
theorem run_invents_nothing (replies : Replies) (input : Dict) (decisions : List Json) (earlier later : List Deed) :
    (∀ caller args reply, runHistory py (dossierReading py upper database) actor killswitch replies input decisions =
        earlier ++ .called ⟨.tool caller crmUpdateStatus args, reply⟩ :: later →
      Json.get? args "status" = some (.str "ready_for_sales") →
        Identified py database (Json.merge [] input) (tracked courseTracker earlier).live) ∧
    (∀ values payload, runHistory py (dossierReading py upper database) actor killswitch replies input decisions =
        earlier ++ .stopped (.ok ⟨values, some payload⟩) :: later →
      ∃ (message : MissingDocsEmail) (dossier : DealerDossier) (kinds : List Json), payload = message.payload dossier ∧
        Known py upper (tracked courseTracker earlier).live dossier ∧ documentKinds (Json.merge [] input) = .ok kinds ∧
          AsksForMissing kinds dossier message.missingItems) := by
  have hstarts : (contract py (dossierReading py upper database) (Json.merge [] input)).Starts courseTracker
      (graph py (dossierReading py upper database) actor killswitch) (Json.merge [] input) := ⟨⟨rfl, rfl⟩, rfl, rfl⟩
  have hfollows := run_follows graph_sound nodeNames actor replies input decisions hstarts
  constructor
  · intro caller args reply hhistory hready
    have hallowed := hfollows _ _ _ hhistory
    obtain ⟨applicationId, status, note, application, kinds, dossier, check, rfl, hfound, hstatus⟩ := hallowed.2 rfl
    obtain rfl : status = "ready_for_sales" := by simpa [Json.get?] using hready
    rcases hstatus with ⟨hreview, -⟩ | ⟨-, hcomplete, hmismatch⟩ | ⟨hwaiting, -⟩
    · exact absurd hreview (by decide)
    · exact hfound.identified hcomplete hmismatch
    · exact absurd hwaiting (by decide)
  · intro values payload hhistory
    have hshows : ∃ message dossier, Asking py (dossierReading py upper database) (Json.merge [] input)
        (tracked courseTracker earlier).live message dossier ∧ payload = message.payload dossier := hfollows _ _ _ hhistory
    obtain ⟨message, dossier, hasking, rfl⟩ := hshows
    obtain ⟨application, kinds, check, hfound, -, -, hitems, -⟩ := hasking
    exact ⟨message, dossier, kinds, rfl, hfound.extracted.known, hfound.submitted, hitems⟩

end Runs

end FleetWorkflow.Agents.DealerOnboarding
