import FleetWorkflow.Answers.Attribution

/-!
# Masking of traces

What the proxy records of a request is masked when the request asks for it. Chat looks for identifiers in each
message; of its paths only the plain one asks, and the agent runs of automations never do.
-/

namespace FleetWorkflow.Answers

open Python Async Core Llm

/-- The text of a chat message. -/
def messageText (entry : Json) : Option String :=
  match entry with
  | .obj fields =>
    match Json.get? fields "content" with
    | some (.str text) => some text
    | _ => none
  | _ => none

/-- The texts that a call sends to a model. -/
def AnswerCall.texts : AnswerCall → List String
  | .embeddings texts _ _ => texts
  | .reasoning _ messages _ _ => messages.filterMap messageText
  | .reasoningStream messages _ _ => messages.filterMap messageText
  | _ => []

/-- A text that a call sends contains some content. -/
def Mentions (content : String) (c : AnswerCall) : Prop := ∃ text ∈ c.texts, content.toList <:+: text.toList

/-- The keywords ask for masking. -/
def AsksMasking (kwargs : Dict) : Prop := Json.get? kwargs "redact_langfuse" = some (.bool true)

/-- The requests that send a content with an identifier ask for masking, and no request asks when the content
has none. -/
structure Masked (unicode : Unicode) (content : String) (c : AnswerCall) : Prop where
  asks : (scrub unicode content).found → Mentions content c → ∀ request ∈ c.request?, AsksMasking request.2
  quiet : ¬ (scrub unicode content).found → ∀ request ∈ c.request?, ¬ AsksMasking request.2

variable {setting : Setting} {agent : AgentRow} {conversation : ConversationRow} {unicode : Unicode}

/-- A call that goes elsewhere asks for nothing. -/
theorem masked_of_none {content : String} {c : AnswerCall} (h : c.request? = none) : Masked unicode content c := by
  constructor <;> simp [h]

/-- The keywords of the paths that return a whole answer never ask. -/
theorem not_asksMasking_whole (traceId : String) : ¬ AsksMasking (wholeKwargs agent traceId) := by
  simp [AsksMasking, wholeKwargs, Json.get?]

/-- The keywords of a plain reply ask when they are told to. -/
theorem asksMasking_plain_iff (traceId : String) (redactLangfuse : Bool) :
    AsksMasking (plainKwargs agent conversation traceId redactLangfuse) ↔ redactLangfuse := by
  simp [AsksMasking, plainKwargs, Json.get?]

/-- The first request of a reply sends the content. -/
theorem firstRequest_mentions (content : String) (kwargs : Dict) :
    Mentions content (firstRequest agent content kwargs) := by
  refine ⟨content, ?_, List.infix_rfl⟩
  rw [firstRequest]
  split
  · simp [AnswerCall.texts, messageText, message, Json.get?]
  · split
    · exact List.mem_singleton_self content
    · simp [AnswerCall.texts, messageText, plainMessages, message, Json.get?]

/-- A path whose first request sends an identifier masked asks for masking. -/
theorem asksMasking_of_first {content : String} {kwargs : Dict}
    (h : Masked unicode content (firstRequest agent content kwargs)) (hfound : (scrub unicode content).found) :
    AsksMasking kwargs :=
  h.asks hfound (firstRequest_mentions content kwargs) _ (firstRequest_request content kwargs)

/-- The keywords of a chat message ask exactly on the plain path of a content with an identifier. -/
theorem asksMasking_chat_iff (traceId : String) (found : Bool) :
    AsksMasking (chatKwargs agent conversation traceId found) ↔ Plain agent ∧ found := by
  rw [chatKwargs]
  split
  · rename_i hplain
    rw [asksMasking_plain_iff]
    simp [hplain]
  · rename_i hplain
    simp [hplain, not_asksMasking_whole]

/-- Every chat message is sent masked when it has to be, exactly when contents with identifiers go to agents that
answer plainly; every question of an automation, exactly when no content with an identifier is asked. -/
theorem masked_iff (kcSub agentName content : String) (conversationId : ℕ) :
    ((sendMessage setting kcSub conversationId content).OnlyGiven (Rows conversation agent)
        (Masked setting.unicode content) ↔
      (TakesMessages setting agent → (scrub setting.unicode content).found → Plain agent)) ∧
    ((agentRun setting agentName content).OnlyGiven (Finds agent) (Masked setting.unicode content) ↔
      (TakesQuestions setting agent → ¬ (scrub setting.unicode content).found)) := by
  constructor
  · rw [onlyGiven_sendMessage fun c hc => masked_of_none hc]
    apply imp_congr_right
    intro htakes
    constructor
    · intro h hfound
      exact ((asksMasking_chat_iff "" _).mp (asksMasking_of_first (streamReply_first h "") hfound)).1
    · intro hplain
      apply onlyGiven_streamReply fun c hc => masked_of_none hc
      intro traceId
      apply Prog.Only.given
      apply (only_chatReply conversation content traceId _).mono
      intro c hc
      constructor
      · intro hfound _ request hrequest
        rw [hc.2 request hrequest]
        exact (asksMasking_chat_iff traceId _).mpr ⟨hplain hfound, hfound⟩
      · intro hfound request hrequest hasks
        rw [hc.2 request hrequest] at hasks
        exact hfound ((asksMasking_chat_iff traceId _).mp hasks).2
  · rw [onlyGiven_agentRun fun c hc => masked_of_none hc]
    apply imp_congr_right
    intro htakes
    constructor
    · intro h hfound
      exact not_asksMasking_whole "" (asksMasking_of_first (questionReply_first (h "")) hfound)
    · intro hfound traceId
      apply Prog.Only.given
      apply (only_questionReply content traceId).mono
      intro c hc
      constructor
      · intro hfound'
        exact absurd hfound' hfound
      · intro _ request hrequest
        rw [hc.2 request hrequest]
        exact not_asksMasking_whole traceId

/-- An address in a message. -/
def addressed : String := String.ofList ['a', '@', 'b', '.', 'c', 'o']

/-- The address is found. -/
theorem addressed_found : (scrub .asciiOnly addressed).found := by
  decide

/-- A message with an address to an agent that answers from a collection is sent unmasked from both endpoints. -/
theorem addressed_not_masked :
    ¬ (sendMessage asciiSetting "kc-3" 2 addressed).OnlyGiven (Rows ⟨2, 1, 3⟩ handbookAgent)
        (Masked .asciiOnly addressed) ∧
      ¬ (agentRun asciiSetting "handbook" addressed).OnlyGiven (Finds handbookAgent)
        (Masked .asciiOnly addressed) := by
  constructor
  · intro h
    rw [onlyGiven_sendMessage fun c hc => masked_of_none hc] at h
    have hasks := asksMasking_of_first (streamReply_first (h handbookAgent_takes.1) "") addressed_found
    have hplain : Plain handbookAgent := ((asksMasking_chat_iff "" _).mp hasks).1
    exact absurd hplain (by decide)
  · intro h
    rw [onlyGiven_agentRun fun c hc => masked_of_none hc] at h
    have hfirst := questionReply_first (h handbookAgent_takes.2 "")
    exact not_asksMasking_whole "" (asksMasking_of_first hfirst addressed_found)

end FleetWorkflow.Answers
