import Mathlib.Data.List.Infix
import FleetWorkflow.Agents.ClauseFindings

/-!
# Reviews that account for their findings

A review that is completed reports every raw finding that has a clause and is not marked as conforming, in order, and what it
reports as a finding is grounded in the playbook and in the contract. It is completed when every raw finding can be read.
-/

namespace FleetWorkflow.Agents.LegalReview

open Python Core Flow

section Reviews

variable {py : Builtins} {playbookRefs : List Json} {contractText : Option String}

/-- What is reported of a raw finding whose fields are read. -/
theorem report_eq_ok {raw : Dict} {entry : Entry} :
    report py raw (cleanText py raw "clause") (cleanText py raw "contract_excerpt") (riskOf py raw)
        (resolveRef playbookRefs (citedPosition py (referenceOf raw)))
        (quoteAppears (contractText.map normalizeForMatch) (cleanText py raw "contract_excerpt")) = .ok entry ↔
      ((entryOf py playbookRefs contractText raw).isLeft = true → holdsLongInt (valueOr raw "rationale") = false) ∧
        entry = entryOf py playbookRefs contractText raw := by
  have hsame (uncited : Uncited) : (Except.ok (.inr uncited) : Except Exc Entry) = .ok entry ↔
      ((.inr uncited : Entry).isLeft = true → holdsLongInt (valueOr raw "rationale") = false) ∧ entry = .inr uncited := by
    rw [Sum.isLeft_inr, Except.ok.injEq]
    exact ⟨fun h => ⟨fun hfalse => absurd hfalse Bool.false_ne_true, h.symm⟩, fun h => h.2.symm⟩
  simp only [report, entryOf]
  cases riskOf py raw with
  | none => exact hsame _
  | some risk =>
    cases resolveRef playbookRefs (citedPosition py (referenceOf raw)) with
    | none => exact hsame _
    | some ref =>
      cases quoteAppears (contractText.map normalizeForMatch) (cleanText py raw "contract_excerpt") with
      | false => exact hsame _
      | true =>
        simp only [map_eq_ok, strippedText_eq_ok, Sum.isLeft_inl, true_imp_iff]
        constructor
        · rintro ⟨_, ⟨hvalue, rfl⟩, rfl⟩
          exact ⟨hvalue, rfl⟩
        · rintro ⟨hvalue, rfl⟩
          exact ⟨_, ⟨hvalue, rfl⟩, rfl⟩

/-- One turn of the loop on a raw finding. -/
theorem examine_eq_ok {raw : Dict} {outcome : Option Entry} :
    examine py playbookRefs (contractText.map normalizeForMatch) raw = .ok outcome ↔
      IsLegible py playbookRefs contractText raw ∧
        outcome = if IsReportable py raw then some (entryOf py playbookRefs contractText raw) else none := by
  simp only [examine, bind_eq_ok, strippedText_eq_ok, normalizeRisk_eq_ok, citationPosition_eq_ok]
  by_cases hblank : cleanText py raw "clause" = ""
  · have hreportable : IsReportable py raw = false := by simp [IsReportable, hblank]
    rw [hreportable, if_neg Bool.false_ne_true]
    constructor
    · rintro ⟨_, ⟨hclause, rfl⟩, _, ⟨hrisk, -⟩, _, ⟨hreference, -⟩, _, ⟨hexcerpt, -⟩, hrest⟩
      rw [if_pos hblank] at hrest
      exact ⟨⟨hclause, hrisk, hreference, hexcerpt, fun hne => absurd hblank hne,
        fun h => absurd (hreportable.symm.trans h) Bool.false_ne_true⟩, (Except.ok.inj hrest).symm⟩
    · rintro ⟨hlegible, rfl⟩
      refine ⟨_, ⟨hlegible.clause, rfl⟩, _, ⟨hlegible.risk, rfl⟩, _, ⟨hlegible.reference, rfl⟩, _,
        ⟨hlegible.excerpt, rfl⟩, ?_⟩
      rw [if_pos hblank]
      rfl
  · cases hstandart : isStandart (cleanText py raw "matches") with
    | true =>
      have hreportable : IsReportable py raw = false := by simp [IsReportable, hstandart]
      rw [hreportable, if_neg Bool.false_ne_true]
      constructor
      · rintro ⟨_, ⟨hclause, rfl⟩, _, ⟨hrisk, -⟩, _, ⟨hreference, -⟩, _, ⟨hexcerpt, -⟩, hrest⟩
        rw [if_neg hblank] at hrest
        obtain ⟨conforming, hconforming, hrest⟩ := bind_eq_ok.mp hrest
        obtain ⟨hverdict, hconforming⟩ := isConforming_eq_ok.mp hconforming
        rw [hconforming, hstandart] at hrest
        exact ⟨⟨hclause, hrisk, hreference, hexcerpt, fun _ => hverdict,
          fun h => absurd (hreportable.symm.trans h) Bool.false_ne_true⟩, (Except.ok.inj hrest).symm⟩
      · rintro ⟨hlegible, rfl⟩
        refine ⟨_, ⟨hlegible.clause, rfl⟩, _, ⟨hlegible.risk, rfl⟩, _, ⟨hlegible.reference, rfl⟩, _,
          ⟨hlegible.excerpt, rfl⟩, ?_⟩
        rw [if_neg hblank]
        exact bind_eq_ok.mpr ⟨true, isConforming_eq_ok.mpr ⟨hlegible.verdict hblank, hstandart.symm⟩, rfl⟩
    | false =>
      have hreportable : IsReportable py raw = true := by simp [IsReportable, hblank, hstandart]
      rw [hreportable, if_pos rfl]
      constructor
      · rintro ⟨_, ⟨hclause, rfl⟩, _, ⟨hrisk, rfl⟩, _, ⟨hreference, rfl⟩, _, ⟨hexcerpt, rfl⟩, hrest⟩
        rw [if_neg hblank] at hrest
        obtain ⟨conforming, hconforming, hrest⟩ := bind_eq_ok.mp hrest
        obtain ⟨hverdict, hconforming⟩ := isConforming_eq_ok.mp hconforming
        rw [hconforming, hstandart] at hrest
        obtain ⟨entry, hentry, hrest⟩ := bind_eq_ok.mp hrest
        obtain ⟨hrationale, hentry⟩ := report_eq_ok.mp hentry
        rw [hentry] at hrest
        exact ⟨⟨hclause, hrisk, hreference, hexcerpt, fun _ => hverdict, fun _ => hrationale⟩, (Except.ok.inj hrest).symm⟩
      · rintro ⟨hlegible, rfl⟩
        refine ⟨_, ⟨hlegible.clause, rfl⟩, _, ⟨hlegible.risk, rfl⟩, _, ⟨hlegible.reference, rfl⟩, _,
          ⟨hlegible.excerpt, rfl⟩, ?_⟩
        rw [if_neg hblank]
        refine bind_eq_ok.mpr ⟨false, isConforming_eq_ok.mpr ⟨hlegible.verdict hblank, hstandart.symm⟩, ?_⟩
        exact bind_eq_ok.mpr ⟨_, report_eq_ok.mpr ⟨hlegible.rationale hreportable, rfl⟩, rfl⟩

/-- The entries of a review, after those of another. -/
structure Review.Extends (review final : Review) (entries : List Entry) : Prop where
  findings : final.findings = review.findings ++ entries.filterMap Sum.getLeft?
  uncited : final.uncited = review.uncited ++ entries.filterMap Sum.getRight?

/-- A review with no more entries. -/
theorem Review.extends_nil {review final : Review} : review.Extends final [] ↔ final = review := by
  constructor
  · intro h
    cases final
    cases review
    simpa [eq_comm] using And.intro h.findings h.uncited
  · rintro rfl
    exact ⟨(List.append_nil _).symm, (List.append_nil _).symm⟩

/-- A review with one more entry, and others after it. -/
theorem Review.extends_cons {review final : Review} {entry : Entry} {entries : List Entry} :
    review.Extends final (entry :: entries) ↔ (review.add (some entry)).Extends final entries := by
  have hfindings : review.findings ++ (entry :: entries).filterMap Sum.getLeft? =
      (review.add (some entry)).findings ++ entries.filterMap Sum.getLeft? := by
    cases entry <;> simp [Review.add, List.filterMap_cons]
  have huncited : review.uncited ++ (entry :: entries).filterMap Sum.getRight? =
      (review.add (some entry)).uncited ++ entries.filterMap Sum.getRight? := by
    cases entry <;> simp [Review.add, List.filterMap_cons]
  constructor
  · exact fun h => ⟨h.findings.trans hfindings, h.uncited.trans huncited⟩
  · exact fun h => ⟨h.findings.trans hfindings.symm, h.uncited.trans huncited.symm⟩

/-- The whole loop. -/
theorem foldlM_reviewStep {rawFindings : List Dict} {review final : Review} :
    rawFindings.foldlM (reviewStep py playbookRefs (contractText.map normalizeForMatch)) review = .ok final ↔
      (∀ raw ∈ rawFindings, IsLegible py playbookRefs contractText raw) ∧
        review.Extends final (entriesOf py playbookRefs contractText rawFindings) := by
  induction rawFindings generalizing review with
  | nil => simp [entriesOf, Review.extends_nil, pure, Except.pure, eq_comm]
  | cons raw rest ih =>
    rw [List.foldlM_cons, bind_eq_ok, List.forall_mem_cons, and_assoc]
    have hrest (outcome : Option Entry) (houtcome : outcome =
        if IsReportable py raw then some (entryOf py playbookRefs contractText raw) else none) :
        (review.add outcome).Extends final (entriesOf py playbookRefs contractText rest) ↔
          review.Extends final (entriesOf py playbookRefs contractText (raw :: rest)) := by
      rw [houtcome]
      cases hreportable : IsReportable py raw with
      | false => simp [entriesOf, hreportable, Review.add]
      | true => simp [entriesOf, hreportable, Review.extends_cons]
    constructor
    · rintro ⟨next, hnext, hfinal⟩
      obtain ⟨outcome, houtcome, rfl⟩ := map_eq_ok.mp hnext
      obtain ⟨hlegible, houtcome⟩ := examine_eq_ok.mp houtcome
      obtain ⟨hlater, hextends⟩ := ih.mp hfinal
      exact ⟨hlegible, hlater, (hrest outcome houtcome).mp hextends⟩
    · rintro ⟨hlegible, hlater, hextends⟩
      exact ⟨_, map_eq_ok.mpr ⟨_, examine_eq_ok.mpr ⟨hlegible, rfl⟩, rfl⟩, ih.mpr ⟨hlater, (hrest _ rfl).mpr hextends⟩⟩

/-- A review is completed exactly when every raw finding is legible, and then it has their entries. -/
theorem buildReview_eq_ok {rawFindings : List Dict} {review : Review} :
    buildReview py playbookRefs contractText rawFindings = .ok review ↔
      (∀ raw ∈ rawFindings, IsLegible py playbookRefs contractText raw) ∧
        Review.Extends ⟨[], []⟩ review (entriesOf py playbookRefs contractText rawFindings) :=
  foldlM_reviewStep

end Reviews

/-! ## What an entry says -/

/-- A quote is in a contract, up to whitespace, case and Turkish diacritics. -/
def IsQuoted (contract excerpt : String) : Prop := (normalizeForMatch excerpt).toList <:+: (normalizeForMatch contract).toList

/-- An entry answers for a raw finding: it has its clause, and what is reported as a finding has a level of the vocabulary,
the reference at its cited position, and a quote of the contract. -/
def Answers (py : Builtins) (playbookRefs : List Json) (contract : String) (raw : Dict) : Entry → Prop
  | .inl finding => finding.clause = cleanText py raw "clause" ∧ finding.riskLevel ∈ riskLevels ∧
      (∃ position : ℕ, citedPosition py (referenceOf raw) = some (position : ℤ) ∧ 1 ≤ position ∧
        playbookRefs[position - 1]? = some finding.playbookRef) ∧
      (∃ c ∈ finding.contractExcerpt.toList, isSpace c = false) ∧ IsQuoted contract finding.contractExcerpt
  | .inr entry => entry.clause = cleanText py raw "clause"

/-- A review accounts for raw findings: those that are reportable are answered for one by one and in order, each in one of
the two lists, and nothing else is in them. -/
def AccountsFor (py : Builtins) (playbookRefs : List Json) (contract : String) (rawFindings : List Dict)
    (review : Review) : Prop :=
  ∃ entries, List.Forall₂ (Answers py playbookRefs contract) (rawFindings.filter (IsReportable py)) entries ∧
    review.findings = entries.filterMap Sum.getLeft? ∧ review.uncited = entries.filterMap Sum.getRight?

/-- What is found in a text is in it. -/
theorem occursIn_iff {needle haystack : String} : occursIn needle haystack = true ↔ needle.toList <:+: haystack.toList := by
  simp only [occursIn, List.any_eq_true, List.mem_tails, List.isPrefixOf_iff_prefix]
  constructor
  · rintro ⟨rest, hsuffix, hprefix⟩
    exact hprefix.isInfix.trans hsuffix.isInfix
  · rintro ⟨before, after, heq⟩
    exact ⟨needle.toList ++ after, ⟨before, by rw [← List.append_assoc, heq]⟩, List.prefix_append _ _⟩

/-- A stripped text that is not empty has a character that is no space. -/
theorem exists_not_isSpace_of_strip {text : String} (h : strip text ≠ "") : ∃ c ∈ (strip text).toList, isSpace c = false := by
  have hne : (text.toList.dropWhile isSpace).reverse.dropWhile isSpace ≠ [] := by
    intro hnil
    exact h (by rw [strip, stripChars, hnil, List.reverse_nil, String.ofList_nil])
  refine ⟨List.head _ hne, ?_, List.head_dropWhile_not isSpace hne⟩
  rw [strip, String.toList_ofList, stripChars, List.mem_reverse]
  exact List.head_mem hne

/-- The level of a risk is one of the vocabulary. -/
theorem riskLevelOf_mem {py : Builtins} {value : Json} {risk : String} (h : riskLevelOf py value = some risk) :
    risk ∈ riskLevels := by
  have hword : ∀ word, riskOfWord word = some risk → risk ∈ riskLevels := by
    intro word hword
    simp only [riskOfWord] at hword
    split at hword
    · rename_i hmem
      exact Option.some.inj hword ▸ hmem
    · cases hword
  cases value with
  | null => cases h
  | _ => exact hword _ h

/-- The reference of a position in range. -/
theorem resolveRef_eq_some {playbookRefs : List Json} {cited : Option ℤ} {ref : Json}
    (h : resolveRef playbookRefs cited = some ref) :
    ∃ position : ℕ, cited = some (position : ℤ) ∧ 1 ≤ position ∧ playbookRefs[position - 1]? = some ref := by
  cases cited with
  | none => cases h
  | some position =>
    rw [resolveRef] at h
    split at h
    · rename_i hpos
      refine ⟨position.toNat, by rw [Int.toNat_of_nonneg (by omega)], by omega, ?_⟩
      rwa [show position.toNat - 1 = (position - 1).toNat by omega]
    · cases h

/-- The entry of a raw finding answers for it. -/
theorem answers_entryOf (py : Builtins) (playbookRefs : List Json) (contract : String) (raw : Dict) :
    Answers py playbookRefs contract raw (entryOf py playbookRefs (some contract) raw) := by
  simp only [entryOf]
  cases hrisk : riskOf py raw with
  | none => rfl
  | some risk =>
    cases href : resolveRef playbookRefs (citedPosition py (referenceOf raw)) with
    | none => rfl
    | some ref =>
      cases hquote : quoteAppears ((some contract).map normalizeForMatch) (cleanText py raw "contract_excerpt") with
      | false => rfl
      | true =>
        simp only [quoteAppears, Option.map_some, Bool.and_eq_true, decide_eq_true_eq] at hquote
        exact ⟨rfl, riskLevelOf_mem hrisk, resolveRef_eq_some href, exists_not_isSpace_of_strip hquote.1,
          occursIn_iff.mp hquote.2⟩

/-- A review accounts for its raw findings exactly when each of them is legible: no integer of more than 4300 digits has to
be written, and no longer number has to be read. -/
theorem buildReview_accountsFor_iff (py : Builtins) (playbookRefs : List Json) (contract : String) (rawFindings : List Dict) :
    (∃ review, buildReview py playbookRefs (some contract) rawFindings = .ok review ∧
      AccountsFor py playbookRefs contract rawFindings review) ↔
    ∀ raw ∈ rawFindings, IsLegible py playbookRefs (some contract) raw := by
  constructor
  · rintro ⟨review, hreview, -⟩
    exact (buildReview_eq_ok.mp hreview).1
  · intro hlegible
    have hreview : buildReview py playbookRefs (some contract) rawFindings = .ok
        ⟨(entriesOf py playbookRefs (some contract) rawFindings).filterMap Sum.getLeft?,
          (entriesOf py playbookRefs (some contract) rawFindings).filterMap Sum.getRight?⟩ :=
      buildReview_eq_ok.mpr ⟨hlegible, ⟨rfl, rfl⟩⟩
    refine ⟨_, hreview, entriesOf py playbookRefs (some contract) rawFindings, ?_, rfl, rfl⟩
    rw [entriesOf, List.forall₂_map_right_iff, List.forall₂_same]
    exact fun raw _ => answers_entryOf py playbookRefs contract raw

/-- The built-in functions on texts that are written as they are. -/
def asWritten : Builtins where
  repr _ := ""
  lower := id
  float _ := .error ⟨.valueError, "could not convert string to float"⟩
  int _ := .error ⟨.valueError, "invalid literal for int() with base 10"⟩

/-- A raw finding that cites a position of 4301 digits. -/
def endlessReference : Dict :=
  [("clause", .str "Fesih"), ("risk_level", .str "high"), ("contract_excerpt", .str "Fesih"),
    ("playbook_ref", .str (String.ofList (List.replicate 4301 '1')))]

/-- Its number is too long. -/
theorem endlessReference_not_legible : IsLegibleReference asWritten (referenceOf endlessReference) = false := by
  have hreference : referenceOf endlessReference = .str (String.ofList (List.replicate 4301 '1')) := rfl
  have hdigits : firstDigits (List.replicate 4301 '1') = List.replicate 4301 '1' := by
    have hdigit : isDecimal '1' = true := by decide
    rw [firstDigits, List.dropWhile_replicate, hdigit, Bool.not_true, if_neg Bool.false_ne_true, List.takeWhile_replicate,
      hdigit, if_pos rfl]
  have hlong : ¬ 4301 ≤ Json.maxIntDigits := by decide
  simp only [hreference, IsLegibleReference, Builtins.str, String.toList_ofList, hdigits, List.length_replicate, hlong,
    decide_false, Bool.and_false]

/-- The review raises instead of reporting it. -/
theorem endlessReference_not_accounted :
    ¬ ∃ review, buildReview asWritten [.str "chunk-1"] (some "Fesih") [endlessReference] = .ok review ∧
      AccountsFor asWritten [.str "chunk-1"] "Fesih" [endlessReference] review := by
  rintro ⟨review, hreview, -⟩
  have hlegible := (buildReview_eq_ok.mp hreview).1 endlessReference (List.mem_singleton.mpr rfl)
  have hreference := hlegible.reference
  rw [endlessReference_not_legible] at hreference
  cases hreference

end FleetWorkflow.Agents.LegalReview
