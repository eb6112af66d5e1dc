import Mathlib.Data.List.TakeWhile
import FleetWorkflow.Agents.DealerOnboarding
import FleetWorkflow.Async.Runs

/-!
# Dossiers that cannot be read

The text that is read off the documents of a dealer is joined into one, each document under a heading with
its kind, and the model is asked only if that text is not blank. A heading is not blank: as soon as one
document is supplied the model is asked, whatever was read off it.
-/

namespace FleetWorkflow.Agents.DealerOnboarding

open Python Async Core

/-! ## Documents and readings -/

/-- A supplied document: its kind and its image. -/
structure Document where
  kind : String
  imageBase64 : String

/-- The dictionary of a document. -/
def Document.asDict (document : Document) : Json :=
  .obj [("kind", .str document.kind), ("image_base64", .str document.imageBase64)]

/-- A state with the supplied documents. -/
def supplied (state : Dict) (documents : List Document) : Dict :=
  Json.insert state "documents" (.arr (documents.map Document.asDict))

/-- A text that is empty or whitespace. -/
def IsBlankText (text : String) : Prop := strip text = ""

/-- Where a call reads a document, the text that it returns is blank. -/
def ReadsBlank : CallEvent → Prop
  | ⟨.tool _ tool _, reply⟩ =>
    tool = ocrExtractText → ∃ result text, reply = .ok result ∧ result.item "text" = .ok (.str text) ∧ IsBlankText text
  | _ => True

/-- A call of a language model. -/
def asksModel : CallEvent → Bool
  | ⟨.llm _ _ _ _, _⟩ => true
  | _ => false

section Extraction

variable (py : Builtins) (reading : Reading) (actor : Actor) (state : Dict) (documents : List Document)

/-- The reading of the documents and the extraction, in the order of the graph. -/
def readAndExtract : Coroutine NodeOutcome := do
  match ← ocrNode py actor state with
  | .wrote writes => extract reading actor (Json.merge state writes)
  | outcome => return outcome

/-- A node has reported a dossier without any of the required fields. -/
def ReportsAllMissing (result : Except Exc NodeOutcome) : Prop :=
  ∃ dossier : DealerDossier, result = .ok (.wrote [("dossier", dossier.asDict)]) ∧
    dossier.missingFields = ["company_name", "tax_no"]

/-- When nothing can be read, no model is asked and all required fields are reported as missing. -/
def InventsNothing : Prop :=
  ∀ events result, (readAndExtract py reading actor (supplied state documents)).Runs events result →
    (∀ event ∈ events, ReadsBlank event) → (∀ event ∈ events, asksModel event = false) ∧ ReportsAllMissing result

variable {py reading actor state documents} {events : List CallEvent}

/-! ## The joined text -/

/-- A text with a character that is no whitespace is not blank. -/
theorem not_isBlankText {text : String} {c : Char} (hc : c ∈ text.toList) (hspace : isSpace c = false) :
    ¬IsBlankText text := by
  intro h
  have hstripped : stripChars text.toList = [] := String.ofList_eq_empty_iff.mp h
  rw [stripChars, List.reverse_eq_nil_iff, List.dropWhile_eq_nil_iff] at hstripped
  have hall : ∀ d ∈ text.toList.dropWhile isSpace, isSpace d = true := fun d hd =>
    hstripped d (List.mem_reverse.mpr hd)
  have hmem : c ∈ text.toList.dropWhile isSpace := by
    rw [← List.takeWhile_append_dropWhile (p := isSpace) (l := text.toList), List.mem_append] at hc
    rcases hc with hc | hc
    · rw [List.mem_takeWhile_imp hc] at hspace
      cases hspace
    · exact hc
  rw [hall c hmem] at hspace
  cases hspace

/-- The texts of documents that have headings are joined to a text that is not blank. -/
theorem not_isBlankText_join {texts : List String} (hne : texts ≠ []) (htexts : ∀ text ∈ texts, '[' ∈ text.toList) :
    ¬IsBlankText ("\n\n".intercalate texts) := by
  apply not_isBlankText (c := '[') _ (by decide)
  cases texts with
  | nil => exact absurd rfl hne
  | cons text rest =>
    have htext := htexts text List.mem_cons_self
    cases rest with
    | nil => simpa using htext
    | cons next rest => simp [htext]

/-! ## Runs of the two nodes -/

/-- The image of a document. -/
theorem item_image (document : Document) : document.asDict.item "image_base64" = .ok (.str document.imageBase64) := by
  simp [Document.asDict, Json.item, Json.field, Json.get?]

/-- The kind of a document. -/
theorem item_kind (document : Document) : document.asDict.item "kind" = .ok (.str document.kind) := by
  simp [Document.asDict, Json.item, Json.field, Json.get?]

/-- Reading documents off which only blank texts come ends with one headed text for each. -/
theorem ocrDocuments_blank {result : Except Exc (List String)}
    (hruns : (ocrDocuments py actor (documents.map Document.asDict)).Runs events result)
    (hblank : ∀ event ∈ events, ReadsBlank event) :
    ∃ texts, result = .ok texts ∧ texts.length = documents.length ∧ ∀ text ∈ texts, '[' ∈ text.toList := by
  induction documents generalizing events result with
  | nil =>
    obtain ⟨-, rfl⟩ := Prog.runs_done.mp hruns
    exact ⟨[], rfl, rfl, List.forall_mem_nil _⟩
  | cons document rest ih =>
    simp only [List.map_cons, ocrDocuments, item_image, item_kind, Prog.ofExcept_ok, Prog.done_bind] at hruns
    rcases Prog.runs_call_bind.mp hruns with ⟨error, rfl, -⟩ | ⟨value, later, rfl, hlater⟩
    · obtain ⟨_, _, hreply, -⟩ := hblank _ List.mem_cons_self rfl
      cases hreply
    · obtain ⟨_, text, hreply, htext, -⟩ := hblank _ List.mem_cons_self rfl
      rw [← Except.ok.inj hreply] at htext
      simp only [htext, Prog.ofExcept_ok, Prog.done_bind] at hlater
      have hrest : ∀ event ∈ later, ReadsBlank event := fun event hevent =>
        hblank event (List.mem_cons_of_mem _ hevent)
      rcases Prog.runs_bind.mp hlater with ⟨error, hruns, -⟩ | ⟨before, after, texts, rfl, hruns, hend⟩
      · obtain ⟨_, hresult, -⟩ := ih hruns hrest
        cases hresult
      · obtain ⟨_, hresult, hlength, htexts⟩ := ih hruns fun event hevent => hrest event (List.mem_append_left _ hevent)
        cases Except.ok.inj hresult
        obtain ⟨-, rfl⟩ := Prog.runs_done.mp hend
        refine ⟨_, rfl, by simp [hlength], ?_⟩
        intro heading hheading
        rcases List.mem_cons.mp hheading with rfl | hheading
        · simp
        · exact htexts heading hheading

/-- The documents of a state. -/
theorem stateDocuments_supplied : stateDocuments (supplied state documents) = .ok (documents.map Document.asDict) := by
  simp [stateDocuments, supplied, Json.get?_insert, Json.iterate]

/-- The joined text of a state. -/
theorem get?_ocrText (text : String) : Json.get? (Json.merge state [("ocr_text", .str text)]) "ocr_text" = some (.str text) := by
  rw [Json.merge_cons, Json.merge_nil, Json.get?_insert, if_pos rfl]

/-- On a text that is not blank the extraction begins by asking the model. -/
theorem extract_asks {text : String} (htext : ¬IsBlankText text) :
    ∃ messages kwargs next, extract reading actor (Json.merge state [("ocr_text", .str text)]) =
      Prog.await (.llm actor "reasoning" messages kwargs) next := by
  have hblank : isBlank (.str text) = .ok false := by
    have hstrip : strip text ≠ "" := htext
    simp [isBlank, hstrip]
  simp only [extract, get?_ocrText, Option.getD_some, hblank, Json.field, Prog.ofExcept_ok, Prog.done_bind, Bool.false_eq_true,
    if_false]
  exact ⟨_, _, _, rfl⟩

/-- Where documents were supplied and only blank texts were read off them, the model is asked. -/
theorem asksModel_of_documents {result : Except Exc NodeOutcome} (hne : documents ≠ [])
    (hruns : (readAndExtract py reading actor (supplied state documents)).Runs events result)
    (hblank : ∀ event ∈ events, ReadsBlank event) : ∃ event ∈ events, asksModel event = true := by
  simp only [readAndExtract, ocrNode, stateDocuments_supplied, Prog.ofExcept_ok, Prog.done_bind, Prog.bind_assoc] at hruns
  rcases Prog.runs_bind.mp hruns with ⟨error, hread, -⟩ | ⟨before, after, texts, rfl, hread, hextract⟩
  · obtain ⟨_, hresult, -⟩ := ocrDocuments_blank hread hblank
    cases hresult
  · obtain ⟨_, hresult, hlength, htexts⟩ :=
      ocrDocuments_blank hread fun event hevent => hblank event (List.mem_append_left _ hevent)
    cases Except.ok.inj hresult
    have htextsne : texts ≠ [] := by
      intro hnil
      rw [hnil] at hlength
      exact hne (List.length_eq_zero_iff.mp hlength.symm)
    obtain ⟨messages, kwargs, next, hasks⟩ :=
      @extract_asks reading actor (supplied state documents) _ (not_isBlankText_join htextsne htexts)
    simp only [Prog.pure_eq, Prog.done_bind, hasks] at hextract
    obtain ⟨reply, rest, rfl, -⟩ := Prog.runs_await.mp hextract
    exact ⟨_, List.mem_append_right _ List.mem_cons_self, rfl⟩

/-- The replies of a reader that finds nothing on any document, while every other call fails. -/
def readsNothing : (c : Call) → Except Exc (Reply c)
  | .tool _ _ _ => .ok (.obj [("text", .str "")])
  | _ => .error ⟨.external, ""⟩

/-- Such a reader returns blank texts. -/
theorem readsBlank_readsNothing {event : CallEvent} (h : event.reply = readsNothing event.call) : ReadsBlank event := by
  obtain ⟨call, reply⟩ := event
  cases call with
  | tool caller tool args =>
    intro _
    exact ⟨_, "", h, rfl, rfl⟩
  | _ => trivial

/-- Without documents there is nothing to read, and every field is missing. -/
theorem inventsNothing_nil : InventsNothing py reading actor state [] := by
  intro events result hruns _
  have hblank : isBlank (.str "") = .ok true := by
    simp [isBlank, strip, stripChars]
  simp only [readAndExtract, ocrNode, stateDocuments_supplied, Prog.ofExcept_ok, Prog.done_bind, List.map_nil,
    ocrDocuments, Prog.pure_eq, String.intercalate_nil, extract, get?_ocrText, Option.getD_some, hblank, if_true] at hruns
  obtain ⟨rfl, rfl⟩ := Prog.runs_done.mp hruns
  exact ⟨List.forall_mem_nil _, ⟨none, none, none, none⟩, rfl, rfl⟩

/-- As soon as there is a document, there is a run in which nothing was read and the model is asked. -/
theorem not_inventsNothing (hne : documents ≠ []) : ¬InventsNothing py reading actor state documents := by
  intro h
  obtain ⟨events, result, hruns, hreplies⟩ :=
    Prog.exists_runs readsNothing (readAndExtract py reading actor (supplied state documents))
  have hblank : ∀ event ∈ events, ReadsBlank event := fun event hevent =>
    readsBlank_readsNothing (hreplies event hevent)
  obtain ⟨event, hevent, hasks⟩ := asksModel_of_documents hne hruns hblank
  rw [(h events result hruns hblank).1 event hevent] at hasks
  cases hasks

/-- Nothing is invented from unreadable documents exactly when there are none: of any documents at all, however blank
what is read off them, the model is asked. -/
theorem inventsNothing_iff (py : Builtins) (reading : Reading) (actor : Actor) (state : Dict)
    (documents : List Document) : InventsNothing py reading actor state documents ↔ documents = [] := by
  constructor
  · intro h
    by_contra hne
    exact not_inventsNothing hne h
  · intro h
    rw [h]
    exact inventsNothing_nil

end Extraction

/-- Built-in functions of which only the texts matter here. -/
def textsOnly : Builtins where
  repr _ := ""
  lower := id
  float _ := .error ⟨.valueError, ""⟩
  int _ := .error ⟨.valueError, ""⟩

/-- A reading of replies that takes none. -/
def takesNoReply : Reading := ⟨"", fun _ => .error ⟨.parseError, ""⟩, id⟩

/-- One scanned tax registration on which nothing can be read: the model is asked. -/
theorem blankScan_asksModel :
    ¬InventsNothing textsOnly takesNoReply ⟨agentName, "run"⟩ [] [⟨"tax_registration", "aGVsbG8="⟩] :=
  not_inventsNothing (List.cons_ne_nil _ _)

end FleetWorkflow.Agents.DealerOnboarding
