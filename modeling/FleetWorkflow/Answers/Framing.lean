import FleetWorkflow.Answers.Streams
import FleetWorkflow.Web.SseCodec

/-!
# What a chat message emits

Every event that a chat message emits, in whatever run, can be sent: the names are the four of the
protocol, and the data are objects of texts, numbers and citations that name no type. So the reader of
the stream yields them as they are.
-/

namespace FleetWorkflow.Answers

open Python Async Core Llm Web

/-- A call that emits, if anything, an event that the reader can tell apart. -/
def AnswerCall.Framed (c : AnswerCall) : Prop :=
  ∀ event data, c = .yieldEvent event data → ∃ fields, data = .obj fields ∧ Frame.Sendable ⟨event, fields⟩

/-- A call that emits nothing. -/
theorem framed_of_not_emits {c : AnswerCall} (h : c.emits? = none) : c.Framed := by
  rintro event data rfl
  cases h

/-- An emitted event that can be sent. -/
theorem framed_yieldEvent {event : String} {fields : Dict} (h : Frame.Sendable ⟨event, fields⟩) :
    (AnswerCall.yieldEvent event (.obj fields)).Framed := by
  rintro event' data' ⟨⟩
  exact ⟨fields, rfl, h⟩

/-- The names of the events. -/
def eventNames : List String := ["token", "citations", "error", "done"]

/-- Data that name no type can be sent under each of the names. -/
theorem sendable_of_named {event : String} {data : Dict} (hevent : event ∈ eventNames)
    (htype : ∀ field ∈ data, field.1 ≠ "type") (hdata : Web.EncodableFields data) : Frame.Sendable ⟨event, data⟩ := by
  have hline : ∀ name ∈ eventNames, name ≠ "" ∧ '\n' ∉ name.toList ∧ trim name.toList = name.toList := by
    simp only [eventNames, List.forall_mem_cons]
    exact ⟨by decide, by decide, by decide, by decide, fun _ hname => by cases hname⟩
  obtain ⟨hnamed, hnewline, htrimmed⟩ := hline event hevent
  exact ⟨hnamed, hnewline, htrimmed, htype, hdata⟩

/-- Citations are encoded. -/
theorem encodable_citations (citations : List Citation) : Web.Encodable (citationsJson citations) := by
  rw [citationsJson]
  induction citations with
  | nil => trivial
  | cons citation rest ih =>
    refine ⟨⟨?_, trivial, ?_⟩, ih⟩
    · simp
    · simp [Web.EncodableFields, Web.Encodable]

/-- An event with one text. -/
theorem framed_text {event name text : String} (hevent : event ∈ eventNames) (hname : name ≠ "type") :
    (AnswerCall.yieldEvent event (.obj [(name, .str text)])).Framed := by
  apply framed_yieldEvent
  apply sendable_of_named hevent
  · simp [hname]
  · simp [Web.EncodableFields, Web.Encodable]

variable {setting : Setting} {conversation : ConversationRow} {agent : AgentRow}

/-- A reply path emits texts. -/
theorem framed_of_onPath {c : AnswerCall} (h : c.OnPath) : c.Framed := by
  cases c with
  | yieldEvent event data =>
    obtain ⟨rfl, text, rfl⟩ := h
    exact framed_text (by decide) (by decide)
  | _ => exact framed_of_not_emits rfl

/-- What follows a reply emits events that can be sent. -/
theorem framed_closing (traceId : String) (found whole : Bool) (outcome : Except Raised (String × List Citation)) :
    (closing conversation traceId found whole outcome).Only AnswerCall.Framed := by
  have hcitations : ∀ citations,
      (AnswerCall.yieldEvent "citations" (.obj [("citations", citationsJson citations)])).Framed := by
    intro citations
    apply framed_yieldEvent
    apply sendable_of_named (by decide)
    · simp
    · exact ⟨fun _ hfield => (by cases hfield), encodable_citations citations, trivial⟩
  have hdone : ∀ messageId : ℕ,
      (AnswerCall.yieldEvent "done" (.obj [("message_id", .int messageId), ("trace_id", .str traceId)])).Framed := by
    intro messageId
    apply framed_yieldEvent
    apply sendable_of_named (by decide)
    · simp
    · simp [Web.EncodableFields, Web.Encodable]
  apply only_closing
  · exact fun detail => framed_text (by decide) (by decide)
  · exact framed_of_not_emits rfl
  · exact fun text => framed_text (by decide) (by decide)
  · exact hcitations
  · exact fun text citations => framed_of_not_emits rfl
  · exact framed_of_not_emits rfl
  · exact hdone

/-- Every event of a chat message can be sent. -/
theorem framed_streamReply (userContent : String) :
    (streamReply setting conversation agent userContent).Only AnswerCall.Framed := by
  have hquiet : ∀ {c : AnswerCall}, c.emits? = none → (awaitAnswer c).Only AnswerCall.Framed :=
    fun hnone => Prog.only_call (framed_of_not_emits hnone)
  apply (hquiet rfl).bind
  intro traceId
  apply (hquiet rfl).bind
  intro _
  apply (hquiet rfl).bind
  intro _
  apply Prog.Only.bind
  · apply Prog.Only.attempt
    exact (only_chatReply conversation userContent traceId _).mono fun c hc => framed_of_onPath hc.1
  · intro outcome
    exact framed_closing traceId _ _ outcome

end FleetWorkflow.Answers
