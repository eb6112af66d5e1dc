import FleetWorkflow.Agents.Replies
import FleetWorkflow.Core.PiiScrub
import FleetWorkflow.Flow.Fallible
import FleetWorkflow.Python.CaseFold
import FleetWorkflow.Rag.Words

/-!
# Clause findings

How the reply of the review call becomes findings: the objects of the reply are taken one by one, and each is left out,
becomes a finding that rests on a playbook excerpt and on a quote of the contract, or is reported without a citation.
-/

namespace FleetWorkflow.Agents.LegalReview

open Python Core Flow

/-! ## The schema -/

/-- `RISK_LEVELS`. -/
def riskLevels : List String := ["high", "medium", "low"]

/-- A finding that is cited; the reference is what the retriever returned. -/
structure Finding where
  clause : String
  riskLevel : String
  playbookRef : Json
  contractExcerpt : String
  rationale : String

/-- `Finding.as_dict`. -/
def Finding.asDict (finding : Finding) : Json :=
  .obj [("clause", .str finding.clause), ("risk_level", .str finding.riskLevel), ("playbook_ref", finding.playbookRef),
    ("contract_excerpt", .str finding.contractExcerpt), ("rationale", .str finding.rationale)]

/-- What is reported without a citation, and why. -/
structure Uncited where
  clause : String
  riskLevel : Option String
  reason : String

/-- The dictionary of an uncited entry. -/
def Uncited.asDict (entry : Uncited) : Json :=
  .obj [("clause", .str entry.clause), ("risk_level", (entry.riskLevel.map Json.str).getD .null),
    ("reason", .str entry.reason)]

/-- `Review`. -/
structure Review where
  findings : List Finding
  uncited : List Uncited

/-- The members of an object. -/
def objectOf : Json → Option Dict
  | .obj fields => some fields
  | _ => none

/-- `parse_findings(content)`. -/
def parseFindings (py : Builtins) (content : String) : Except Exc (List Dict) := do
  let parsed ← loadsOr ⟨.parseError, "model did not return valid JSON: " ++ py.repr (.str content)⟩ (stripCodeFence content)
  let listed := match parsed with
    | .obj fields => (Json.get? fields "findings").getD (.arr [])
    | other => other
  match listed with
  | .arr items => return items.filterMap objectOf
  | other => .error ⟨.parseError, "expected a list of findings, got " ++ py.repr other⟩

/-! ## Texts of values -/

mutual

/-- An integer with more digits than `str` writes is somewhere in a value. -/
def holdsLongInt : Json → Bool
  | .int n => 10 ^ Json.maxIntDigits ≤ n.natAbs
  | .arr items => itemsHoldLongInt items
  | .obj fields => fieldsHoldLongInt fields
  | _ => false

/-- One of the items holds such an integer. -/
def itemsHoldLongInt : List Json → Bool
  | [] => false
  | item :: rest => holdsLongInt item || itemsHoldLongInt rest

/-- One of the members holds such an integer. -/
def fieldsHoldLongInt : List (String × Json) → Bool
  | [] => false
  | (_, value) :: rest => holdsLongInt value || fieldsHoldLongInt rest

end

section Validators

variable (py : Builtins)

/-- `str(value)`, which refuses integers of more than 4300 digits. -/
def textOf (value : Json) : Except Exc String := if holdsLongInt value then .error intDigitsError else .ok (py.str value)

/-- `raw.get(key, "") or ""`. -/
def valueOr (raw : Dict) (key : String) : Json :=
  match Json.get? raw key with
  | some value => if value.truthy then value else .str ""
  | none => .str ""

/-- `str(raw.get(key, "") or "").strip()`. -/
def strippedText (raw : Dict) (key : String) : Except Exc String := (textOf py (valueOr raw key)).map strip

/-- The words for a risk that stand for a level of the vocabulary. -/
def riskAliases : List (String × String) :=
  [("yüksek", "high"), ("yuksek", "high"), ("critical", "high"), ("severe", "high"), ("orta", "medium"),
    ("moderate", "medium"), ("düşük", "low"), ("dusuk", "low"), ("minor", "low")]

/-- The level of a risk word. -/
def riskOfWord (word : String) : Option String :=
  let level := ((riskAliases.find? fun entry => entry.1 = word).map Prod.snd).getD word
  if level ∈ riskLevels then some level else none

/-- `_normalize_risk(value)`. -/
def normalizeRisk : Json → Except Exc (Option String)
  | .null => .ok none
  | value => (textOf py value).map fun text => riskOfWord (py.lower (strip text))

/-- The first run of digits of a text. -/
def firstDigits (cs : List Char) : List Char := (cs.dropWhile fun c => !isDecimal c).takeWhile isDecimal

/-- `int(digits)` of the first run of digits. -/
def numberIn (text : String) : Except Exc (Option ℤ) :=
  match firstDigits text.toList with
  | [] => .ok none
  | digits =>
    if Json.maxIntDigits < digits.length then .error intDigitsError
    else .ok (some (digits.foldl (fun n c => n * 10 + decimalValue c) 0 : ℕ))

/-- `_citation_position(value)`. -/
def citationPosition : Json → Except Exc (Option ℤ)
  | .null | .bool _ => .ok none
  | .int n => .ok (some n)
  | value => textOf py value >>= numberIn

/-- `_TR_FOLD`. -/
def foldTurkish : Char → Char
  | 'ı' | 'İ' | 'I' | 'i' => 'i'
  | 'ş' | 'Ş' => 's'
  | 'ğ' | 'Ğ' => 'g'
  | 'ü' | 'Ü' => 'u'
  | 'ö' | 'Ö' => 'o'
  | 'ç' | 'Ç' => 'c'
  | c => c

/-- `_normalize_for_match(text)`. -/
def normalizeForMatch (text : String) : String :=
  casefold (String.intercalate " " (Rag.splitWords (String.ofList (text.toList.map foldTurkish))))

/-- A verdict that says that the clause is as it should be. -/
def isStandart (verdict : String) : Bool := casefold verdict = "standart"

/-- `_is_conforming(raw)`. -/
def isConforming (raw : Dict) : Except Exc Bool := (strippedText py raw "matches").map isStandart

/-- `needle in haystack`. -/
def occursIn (needle haystack : String) : Bool := haystack.toList.tails.any fun rest => needle.toList.isPrefixOf rest

/-- The quote appears in the contract, when there is one to look into. -/
def quoteAppears (haystack : Option String) (excerpt : String) : Bool :=
  match haystack with
  | none => true
  | some haystack => excerpt ≠ "" && occursIn (normalizeForMatch excerpt) haystack

/-- `playbook_refs[position - 1]`, when the position is in range. -/
def resolveRef (playbookRefs : List Json) : Option ℤ → Option Json
  | some position => if 1 ≤ position then playbookRefs[(position - 1).toNat]? else none
  | none => none

/-! ## The review -/

/-- What a raw finding is reported as. -/
abbrev Entry := Finding ⊕ Uncited

variable (playbookRefs : List Json) (contractText : Option String)

/-- The end of the body of the loop of `build_review`: the first thing that is wrong with a finding, or the finding. -/
def report (raw : Dict) (clause excerpt : String) (risk : Option String) (ref : Option Json) (quoted : Bool) :
    Except Exc Entry :=
  match risk, ref, quoted with
  | none, _, _ => .ok (.inr ⟨clause, none, "risk level outside the vocabulary"⟩)
  | some risk, none, _ =>
    .ok (.inr ⟨clause, some risk, "playbook reference does not resolve to a retrieved excerpt"⟩)
  | some risk, some _, false =>
    .ok (.inr ⟨clause, some risk, "quoted clause does not appear in the contract under review"⟩)
  | some risk, some ref, true =>
    (strippedText py raw "rationale").map fun rationale => .inl ⟨clause, risk, ref, excerpt, rationale⟩

/-- The body of the loop of `build_review`. -/
def examine (haystack : Option String) (raw : Dict) : Except Exc (Option Entry) := do
  let clause ← strippedText py raw "clause"
  let risk ← normalizeRisk py ((Json.get? raw "risk_level").getD .null)
  let position ← citationPosition py ((Json.get? raw "playbook_ref").getD .null)
  let excerpt ← strippedText py raw "contract_excerpt"
  if clause = "" then return none
  else if ← isConforming py raw then return none
  else
    let entry ← report py raw clause excerpt risk (resolveRef playbookRefs position) (quoteAppears haystack excerpt)
    return some entry

/-- Append an entry to its list. -/
def Review.add (review : Review) : Option Entry → Review
  | none => review
  | some (.inl finding) => ⟨review.findings ++ [finding], review.uncited⟩
  | some (.inr entry) => ⟨review.findings, review.uncited ++ [entry]⟩

/-- One turn of the loop. -/
def reviewStep (haystack : Option String) (review : Review) (raw : Dict) : Except Exc Review :=
  (examine py playbookRefs haystack raw).map review.add

/-- `build_review(raw_findings, playbook_refs=..., contract_text=...)`. -/
def buildReview (rawFindings : List Dict) : Except Exc Review :=
  rawFindings.foldlM (reviewStep py playbookRefs (contractText.map normalizeForMatch)) ⟨[], []⟩

/-! ## What a raw finding amounts to -/

/-- The text of a field. -/
def cleanText (raw : Dict) (key : String) : String := strip (py.str (valueOr raw key))

/-- A finding that has a clause and is not marked as conforming. -/
def IsReportable (raw : Dict) : Bool := cleanText py raw "clause" ≠ "" && !isStandart (cleanText py raw "matches")

/-- The level of a risk. -/
def riskLevelOf : Json → Option String
  | .null => none
  | value => riskOfWord (py.lower (strip (py.str value)))

/-- The level of the risk of a raw finding. -/
def riskOf (raw : Dict) : Option String := riskLevelOf py ((Json.get? raw "risk_level").getD .null)

/-- The number that a text cites. -/
def citedNumber (text : String) : Option ℤ :=
  match firstDigits text.toList with
  | [] => none
  | digits => some (digits.foldl (fun n c => n * 10 + decimalValue c) 0 : ℕ)

/-- The position that a reference cites. -/
def citedPosition : Json → Option ℤ
  | .null | .bool _ => none
  | .int n => some n
  | value => citedNumber (py.str value)

/-- The reference of a raw finding. -/
def referenceOf (raw : Dict) : Json := (Json.get? raw "playbook_ref").getD .null

/-- What a raw finding is reported as. -/
def entryOf (raw : Dict) : Entry :=
  let clause := cleanText py raw "clause"
  let excerpt := cleanText py raw "contract_excerpt"
  match riskOf py raw, resolveRef playbookRefs (citedPosition py (referenceOf raw)),
      quoteAppears (contractText.map normalizeForMatch) excerpt with
  | none, _, _ => .inr ⟨clause, none, "risk level outside the vocabulary"⟩
  | some risk, none, _ => .inr ⟨clause, some risk, "playbook reference does not resolve to a retrieved excerpt"⟩
  | some risk, some _, false => .inr ⟨clause, some risk, "quoted clause does not appear in the contract under review"⟩
  | some risk, some ref, true => .inl ⟨clause, risk, ref, excerpt, cleanText py raw "rationale"⟩

/-- The entries of raw findings. -/
def entriesOf (rawFindings : List Dict) : List Entry :=
  (rawFindings.filter (IsReportable py)).map (entryOf py playbookRefs contractText)

/-- A reference whose position can be read: its text has no longer number than `int` reads. -/
def IsLegibleReference : Json → Bool
  | .null | .bool _ | .int _ => true
  | value => !holdsLongInt value && (firstDigits (py.str value).toList).length ≤ Json.maxIntDigits

/-- A raw finding whose texts can all be written, as far as they are looked at, and whose reference can be read. -/
structure IsLegible (raw : Dict) : Prop where
  clause : holdsLongInt (valueOr raw "clause") = false
  risk : holdsLongInt ((Json.get? raw "risk_level").getD .null) = false
  reference : IsLegibleReference py (referenceOf raw) = true
  excerpt : holdsLongInt (valueOr raw "contract_excerpt") = false
  verdict : cleanText py raw "clause" ≠ "" → holdsLongInt (valueOr raw "matches") = false
  rationale : IsReportable py raw = true → (entryOf py playbookRefs contractText raw).isLeft = true →
    holdsLongInt (valueOr raw "rationale") = false

section Texts

variable {py}

/-- The text of a value. -/
theorem textOf_eq_ok {value : Json} {text : String} :
    textOf py value = .ok text ↔ holdsLongInt value = false ∧ text = py.str value := by
  rw [textOf, guard_eq_ok, Bool.not_eq_true]

/-- What is made of the text of a value. -/
theorem textOf_map_eq_ok {β : Type} {f : String → β} {value : Json} {result : β} :
    (textOf py value).map f = .ok result ↔ holdsLongInt value = false ∧ result = f (py.str value) := by
  simp only [map_eq_ok, textOf_eq_ok]
  constructor
  · rintro ⟨_, ⟨hvalue, rfl⟩, rfl⟩
    exact ⟨hvalue, rfl⟩
  · rintro ⟨hvalue, rfl⟩
    exact ⟨_, ⟨hvalue, rfl⟩, rfl⟩

/-- The text of a field. -/
theorem strippedText_eq_ok {raw : Dict} {key text : String} :
    strippedText py raw key = .ok text ↔ holdsLongInt (valueOr raw key) = false ∧ text = cleanText py raw key := by
  rw [strippedText, textOf_map_eq_ok, cleanText]

/-- Whether a raw finding is marked as conforming. -/
theorem isConforming_eq_ok {raw : Dict} {conforming : Bool} :
    isConforming py raw = .ok conforming ↔ holdsLongInt (valueOr raw "matches") = false ∧
      conforming = isStandart (cleanText py raw "matches") := by
  simp only [isConforming, map_eq_ok, strippedText_eq_ok]
  constructor
  · rintro ⟨_, ⟨hvalue, rfl⟩, hverdict⟩
    exact ⟨hvalue, hverdict.symm⟩
  · rintro ⟨hvalue, hverdict⟩
    exact ⟨_, ⟨hvalue, rfl⟩, hverdict.symm⟩

/-- The level of a risk. -/
theorem normalizeRisk_eq_ok {value : Json} {risk : Option String} :
    normalizeRisk py value = .ok risk ↔ holdsLongInt value = false ∧ risk = riskLevelOf py value := by
  cases value with
  | null => simp [normalizeRisk, riskLevelOf, holdsLongInt, eq_comm]
  | _ => simp only [normalizeRisk, riskLevelOf, textOf_map_eq_ok]

/-- The number that a text cites. -/
theorem numberIn_eq_ok {text : String} {position : Option ℤ} :
    numberIn text = .ok position ↔ (firstDigits text.toList).length ≤ Json.maxIntDigits ∧ position = citedNumber text := by
  rw [numberIn, citedNumber]
  cases firstDigits text.toList with
  | nil => simp [eq_comm]
  | cons digit digits => rw [guard_eq_ok, Nat.not_lt]

/-- The position that a reference cites. -/
theorem citationPosition_eq_ok {value : Json} {position : Option ℤ} :
    citationPosition py value = .ok position ↔
      IsLegibleReference py value = true ∧ position = citedPosition py value := by
  have htext : textOf py value >>= numberIn = .ok position ↔ (holdsLongInt value = false ∧
      (firstDigits (py.str value).toList).length ≤ Json.maxIntDigits) ∧ position = citedNumber (py.str value) := by
    simp only [bind_eq_ok, textOf_eq_ok, numberIn_eq_ok]
    constructor
    · rintro ⟨_, ⟨hvalue, rfl⟩, hlong, hposition⟩
      exact ⟨⟨hvalue, hlong⟩, hposition⟩
    · rintro ⟨⟨hvalue, hlong⟩, hposition⟩
      exact ⟨_, ⟨hvalue, rfl⟩, hlong, hposition⟩
  cases value with
  | null => simp [citationPosition, IsLegibleReference, citedPosition, eq_comm]
  | bool b => simp [citationPosition, IsLegibleReference, citedPosition, eq_comm]
  | int n => simp [citationPosition, IsLegibleReference, citedPosition, eq_comm]
  | _ => simpa [citationPosition, IsLegibleReference, citedPosition] using htext

end Texts

end Validators

end FleetWorkflow.Agents.LegalReview
