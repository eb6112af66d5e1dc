import FleetWorkflow.Python.Spans
import FleetWorkflow.Python.Value
import FleetWorkflow.Rag.Chunk

/-!
# The PII policy of a collection

What becomes of a chunk: it passes, passes with its findings masked, passes for local models only,
or is dropped. The scanner is a library.
-/

namespace FleetWorkflow.Rag

open Python

/-- What the scanner found in a text. -/
structure PiiFinding where
  entityType : String
  start : ℕ
  stop : ℕ

/-- What the policy makes of a text. -/
structure PolicyResult where
  text : String
  redacted : Bool
  blocked : Bool
  localOnly : Bool

/-- The policies there are. -/
def knownPolicies : List String := ["redact", "block", "allow-local-only"]

/-- Put the name of a finding in its place. -/
def redactOne (text : String) (finding : PiiFinding) : String :=
  let cs := text.toList
  String.ofList (cs.take finding.start ++ ['['] ++ finding.entityType.toList ++ [']'] ++ cs.drop finding.stop)

/-- Replace the findings from right to left, so that earlier offsets stay valid. -/
def redact (text : String) (findings : List PiiFinding) : String :=
  (findings.mergeSort fun a b => b.start ≤ a.start).foldl redactOne text

/-- Scan a text and apply the policy. -/
def applyPiiPolicy (scanText : String → Except Exc (List PiiFinding)) (policy : String) (text : String) :
    Except Exc PolicyResult :=
  if policy ∉ knownPolicies then .error ⟨.valueError, "unknown pii_policy: " ++ policy⟩
  else do
    let findings ← scanText text
    if policy = "allow-local-only" then return ⟨text, false, false, true⟩
    else if policy = "block" then
      if findings.isEmpty then return ⟨text, false, false, false⟩ else return ⟨"", false, true, false⟩
    else if findings.isEmpty then return ⟨text, false, false, false⟩
    else return ⟨redact text findings, true, false, false⟩

/-!
## When redaction is exact

The findings of a text are replaced from right to left, each at its own offsets. These stay valid as
long as no finding reaches into the one replaced before it.
-/

/-- What stands in the place of a finding. -/
def PiiFinding.placeholder (finding : PiiFinding) : List Char :=
  '[' :: (finding.entityType.toList ++ [']'])

/-- Where a finding is. -/
def PiiFinding.span (finding : PiiFinding) : Span := ⟨finding.start, finding.stop⟩

/-- The replacement of a finding. -/
def PiiFinding.edit (finding : PiiFinding) : Edit Char := ⟨finding.span, finding.placeholder⟩

/-- The redacted text has every character that no finding covers, in order, and no more than
placeholders in between. -/
def RedactsExactly (text : String) (findings : List PiiFinding) : Prop :=
  Edit.Exact text.toList (findings.map PiiFinding.edit) (redact text findings).toList

theorem toList_redactOne (text : String) (finding : PiiFinding) :
    (redactOne text finding).toList = Edit.apply text.toList finding.edit := by
  simp [redactOne, Edit.apply, PiiFinding.edit, PiiFinding.span, PiiFinding.placeholder]

theorem toList_foldl_redactOne (text : String) (findings : List PiiFinding) :
    (findings.foldl redactOne text).toList = (findings.map PiiFinding.edit).foldl Edit.apply text.toList := by
  induction findings generalizing text with
  | nil => rfl
  | cons finding findings ih => rw [List.foldl_cons, ih, toList_redactOne, List.map_cons, List.foldl_cons]

/-- Redaction carries out the replacements of the findings. -/
theorem toList_redact (text : String) (findings : List PiiFinding) :
    (redact text findings).toList = Edit.applyAll text.toList (findings.map PiiFinding.edit) := by
  have hsort : (findings.mergeSort fun a b => decide (b.start ≤ a.start)).map PiiFinding.edit =
      Edit.rightToLeft (findings.map PiiFinding.edit) := List.map_mergeSort fun a _ b _ => rfl
  rw [redact, toList_foldl_redactOne, hsort, Edit.applyAll]

/-- The spans of findings decide whether their replacements keep apart. -/
theorem pairwise_edit (findings : List PiiFinding) :
    ((findings.map PiiFinding.edit).Pairwise fun a b => a.Apart b.toSpan) ↔
      (findings.map PiiFinding.span).Pairwise Span.Apart := by
  rw [List.pairwise_map, List.pairwise_map]
  rfl

/-- Findings that keep apart are redacted exactly, whatever the text and whatever they are called. -/
theorem redactsExactly_of_apart {text : String} {findings : List PiiFinding}
    (hbounds : ∀ finding ∈ findings, finding.span.InBounds text.length)
    (happart : (findings.map PiiFinding.span).Pairwise Span.Apart) : RedactsExactly text findings := by
  rw [RedactsExactly, toList_redact]
  apply Edit.exact_applyAll
  · intro edit hedit
    obtain ⟨finding, hfinding, rfl⟩ := List.mem_map.mp hedit
    rw [String.length_toList]
    exact hbounds finding hfinding
  · exact (pairwise_edit findings).mpr happart

/-- Whatever the text and the names of the findings, redaction is exact: so it is for spans that keep
apart, and for no others. -/
theorem redactsExactly_iff (n : ℕ) (spans : List Span) (hbounds : ∀ span ∈ spans, span.InBounds n) :
    (∀ (text : String) (findings : List PiiFinding), text.length = n →
        findings.map PiiFinding.span = spans → RedactsExactly text findings) ↔
      spans.Pairwise Span.Apart := by
  constructor
  · intro h
    -- Names longer than the text, so that a span that reaches into one cannot cover it.
    let name := String.ofList (List.replicate n 'X')
    let findings := spans.map fun span => PiiFinding.mk name span.start span.stop
    have hspans : findings.map PiiFinding.span = spans := by
      simp [findings, PiiFinding.span, Function.comp_def]
    have hexact := h (String.ofList (List.replicate n 'X')) findings (by simp) hspans
    rw [RedactsExactly, toList_redact, String.toList_ofList] at hexact
    rw [← hspans, ← pairwise_edit]
    have hleft : 'X' ≠ '[' := by decide
    have hright : 'X' ≠ ']' := by decide
    apply Edit.apart_of_exact hleft hright (by decide) _ _ hexact
    · intro edit hedit
      obtain ⟨finding, hfinding, rfl⟩ := List.mem_map.mp hedit
      exact hbounds _ (hspans ▸ List.mem_map_of_mem hfinding)
    · intro edit hedit
      obtain ⟨finding, hfinding, rfl⟩ := List.mem_map.mp hedit
      obtain ⟨span, hspan, rfl⟩ := List.mem_map.mp hfinding
      simp [PiiFinding.edit, PiiFinding.placeholder, Edit.bracketed, name]
  · intro happart text findings hlength hspans
    subst hlength hspans
    apply redactsExactly_of_apart _ happart
    intro finding hfinding
    exact hbounds _ (List.mem_map_of_mem hfinding)

/-- Two findings side by side are redacted exactly. -/
theorem redactsExactly_side_by_side :
    RedactsExactly "ali:a@b.c" [⟨"PERSON", 0, 4⟩, ⟨"EMAIL_ADDRESS", 4, 9⟩] :=
  (redactsExactly_iff 9 [⟨0, 4⟩, ⟨4, 9⟩] (by decide)).mpr (by decide) _ _ (by decide) rfl

/-- A name within an address, both from the start of the text: the end of the address stays. -/
theorem not_redactsExactly_nested :
    ¬ ∀ (text : String) (findings : List PiiFinding),
      (∀ finding ∈ findings, finding.span.InBounds text.length) → RedactsExactly text findings := by
  intro h
  have hexact := h "ali@x.com" [⟨"PERSON", 0, 3⟩, ⟨"EMAIL_ADDRESS", 0, 9⟩] (by decide)
  have hout : (redact "ali@x.com" [⟨"PERSON", 0, 3⟩, ⟨"EMAIL_ADDRESS", 0, 9⟩]).toList =
      "[EMAIL_ADDRESS]x.com".toList := by
    rw [redact, List.mergeSort_of_pairwise (by decide)]
    decide
  rw [RedactsExactly, hout] at hexact
  have hleft := hexact.mem (y := 'x') (by decide)
  revert hleft
  decide

end FleetWorkflow.Rag
