import FleetWorkflow.Core.PiiScrub
import FleetWorkflow.Python.Text
import FleetWorkflow.Rag.Pii
import FleetWorkflow.Rag.Sources

/-!
# The Turkish recognisers

What the three recognisers of the scanner find. Account and identity numbers have no white space, and
telephone numbers no more than one character of it in a row.
-/

namespace FleetWorkflow.Rag

open Python

/-- A recogniser: what it finds, by a pattern and a check of the match. -/
structure Recogniser where
  supportedEntity : String
  pattern : Re
  valid : List Char → Bool

/-- `_TR_IBAN_PATTERN`; recognisers match without regard to case. -/
def trIban : Recogniser where
  supportedEntity := "TR_IBAN"
  pattern := .all [.boundary, .one fun c => c = 'T' || c = 't', .one fun c => c = 'R' || c = 'r',
    .times 2 isDecimal, .times 5 isDecimal, .times 17 isDecimal, .boundary]
  valid _ := true

/-- `_TR_PHONE_PATTERN`, which the scrubber of logs has too. -/
def trPhone : Recogniser := ⟨"TR_PHONE", Core.trPhoneRe, fun _ => true⟩

/-- `TckncRecognizer`, with the checksum of the scrubber. -/
def tckn : Recogniser := ⟨"TR_TCKN", Core.tcknCandidateRe, Core.tcknChecksumValid⟩

/-- The recognisers that are added to the scanner. -/
def turkishRecognisers : List Recogniser := [trIban, trPhone, tckn]

/-- What a recogniser finds in a text. -/
def Recogniser.analyze (isWord : Char → Bool) (recogniser : Recogniser) (text : String) : List PiiFinding :=
  (recogniser.pattern.finditer isWord recogniser.valid text.toList).map fun span =>
    ⟨recogniser.supportedEntity, span.start, span.stop⟩

/-- A finding covers a position. -/
def PiiFinding.Covers (finding : PiiFinding) (k : ℕ) : Prop := finding.start ≤ k ∧ k < finding.stop

instance (finding : PiiFinding) (k : ℕ) : Decidable (finding.Covers k) :=
  inferInstanceAs (Decidable (finding.start ≤ k ∧ k < finding.stop))

/-! ## What they take -/

theorem takesCompact_trIban (isWord : Char → Bool) : trIban.pattern.TakesCompact isWord 1 := by
  apply Re.takesCompact_of_only
  have hletter : ∀ upper lower : Char, isSpace upper = false → isSpace lower = false →
      ∀ c, (decide (c = upper) || decide (c = lower)) = true → isSpace c = false := by
    intro upper lower hupper hlower c hc
    rcases (Bool.or_eq_true _ _).mp hc with hc | hc
    · rwa [of_decide_eq_true hc]
    · rwa [of_decide_eq_true hc]
  exact ⟨trivial, hletter 'T' 't' (by decide) (by decide), hletter 'R' 'r' (by decide) (by decide),
    fun _ => isSpace_of_isDecimal, fun _ => isSpace_of_isDecimal, fun _ => isSpace_of_isDecimal, trivial⟩

theorem takesCompact_tckn (isWord : Char → Bool) : tckn.pattern.TakesCompact isWord 1 :=
  Re.takesCompact_of_only ⟨trivial, fun _ => isSpace_of_isDecimal, trivial⟩

theorem takesCompact_trPhone (isWord : Char → Bool) : trPhone.pattern.TakesCompact isWord 2 := by
  have hdigit : ∀ c, isDecimal c → isSpace c = false := fun _ => isSpace_of_isDecimal
  have hone : ∀ d : Char, isSpace d = false → ∀ c, decide (c = d) = true → isSpace c = false := by
    intro d hd c hc
    rwa [of_decide_eq_true hc]
  have hprefixes : (Re.alt (.alt (.text ['+', '9', '0']) (.text ['0'])) (.all [])).Only fun c => isSpace c = false :=
    ⟨⟨⟨hone '+' (by decide), hone '9' (by decide), hone '0' (by decide)⟩, hone '0' (by decide)⟩, fun _ hc => absurd hc Bool.false_ne_true⟩
  let separator : Char → Bool := fun c => isSpace c || c = '.' || c = '-'
  have hlast := @Re.takesSparse_end isWord isDecimal 2 hdigit Nat.two_pos
  have hnumber := ((hlast.separated hdigit Nat.two_pos separator).separated hdigit (Nat.succ_pos 2)
    separator).separated hdigit Nat.two_pos separator
  have hfive : (Re.one (· = '5')).Only fun c => isSpace c = false := hone '5' (by decide)
  have hboundary : Re.boundary.Only fun c => isSpace c = false := trivial
  exact (((hnumber.after_only hfive).after_only hprefixes).after_only hboundary).compact

end FleetWorkflow.Rag
