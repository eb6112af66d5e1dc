import FleetWorkflow.Answers.Requests

/-!
# Attribution of chat

The gateway client checks budgets and books costs by the ids that a request carries. A reply in chat
carries the id of its agent on every path, and the id of its user on the plain one only.
-/

namespace FleetWorkflow.Answers

open Python Async Core Llm

/-- A request names the user of a conversation and an agent. -/
def Attributed (conversation : ConversationRow) (agent : AgentRow) (c : AnswerCall) : Prop :=
  ∀ request ∈ c.request?, Json.get? request.2 "user_id" = some (.str (Nat.repr conversation.userId)) ∧
    Json.get? request.2 "agent_id" = some (.str (Nat.repr agent.id))

variable {setting : Setting} {agent : AgentRow} {conversation : ConversationRow}

/-- A call that goes elsewhere names nobody. -/
theorem attributed_of_none {c : AnswerCall} (h : c.request? = none) : Attributed conversation agent c := by
  simp [Attributed, h]

/-- The keywords of a plain reply name both. -/
theorem attributed_of_plain {c : AnswerCall} {sensitivity traceId : String} {redactLangfuse : Bool}
    (h : c.Within (sensitivity, plainKwargs agent conversation traceId redactLangfuse)) :
    Attributed conversation agent c := by
  intro request hrequest
  rw [h request hrequest]
  exact ⟨rfl, rfl⟩

/-- The keywords of the other replies name no user. -/
theorem wholeKwargs_user (traceId : String) : Json.get? (wholeKwargs agent traceId) "user_id" = none := rfl

/-- The first request of a reply carries its keywords. -/
theorem firstRequest_request (userContent : String) (kwargs : Dict) :
    (agent.sensitivity, kwargs) ∈ (firstRequest agent userContent kwargs).request? := by
  rw [firstRequest]
  split
  · rfl
  · split <;> rfl

/-- A path whose first request names both is the plain one. -/
theorem plain_of_attributed {userContent traceId : String} {redactLangfuse : Bool}
    (h : Attributed conversation agent
      (firstRequest agent userContent (chatKwargs agent conversation traceId redactLangfuse))) : Plain agent := by
  by_contra hplain
  have huser := (h _ (firstRequest_request userContent _)).1
  dsimp only at huser
  rw [chatKwargs, if_neg hplain, wholeKwargs_user] at huser
  cases huser

/-- All requests for a chat message name the user and the agent exactly when the agent, if it takes
messages, answers plainly. -/
theorem sendMessage_attributed_iff (kcSub content : String) (conversationId : ℕ) :
    (sendMessage setting kcSub conversationId content).OnlyGiven (Rows conversation agent)
      (Attributed conversation agent) ↔ (TakesMessages setting agent → Plain agent) := by
  rw [onlyGiven_sendMessage fun c hc => attributed_of_none hc]
  apply imp_congr_right
  intro htakes
  constructor
  · intro h
    exact plain_of_attributed (streamReply_first h "")
  · intro hplain
    apply onlyGiven_streamReply fun c hc => attributed_of_none hc
    intro traceId
    apply Prog.Only.given
    apply (only_chatReply conversation content traceId _).mono
    intro c hc
    rw [chatKwargs, if_pos hplain] at hc
    exact attributed_of_plain hc.2

/-- Texts in ASCII, with two levels that have a name. -/
def asciiSetting : Setting where
  texts :=
    { py := ⟨fun _ => "", id, fun _ => .error ⟨.typeError, ""⟩, fun _ => .error ⟨.typeError, ""⟩⟩
      upper := fun s => if s = "internal" then "INTERNAL" else if s = "pii" then "PII" else s
      str := fun _ => "" }
  unicode := .asciiOnly

/-- An agent that answers from one collection. -/
def handbookAgent : AgentRow := ⟨1, "handbook", "active", "internal", [4]⟩

/-- It takes messages and questions. -/
theorem handbookAgent_takes : TakesMessages asciiSetting handbookAgent ∧ TakesQuestions asciiSetting handbookAgent :=
  have hread : MayRead asciiSetting handbookAgent := .inr ⟨.internal, rfl⟩
  ⟨⟨by decide, hread⟩, rfl, hread⟩

/-- A question to it is embedded for nobody. -/
theorem handbookAgent_not_attributed :
    ¬ (sendMessage asciiSetting "kc-3" 2 "When is the office closed?").OnlyGiven
      (Rows ⟨2, 1, 3⟩ handbookAgent) (Attributed ⟨2, 1, 3⟩ handbookAgent) := by
  intro h
  rw [onlyGiven_sendMessage fun c hc => attributed_of_none hc] at h
  have hplain : Plain handbookAgent := plain_of_attributed (streamReply_first (h handbookAgent_takes.1) "")
  exact absurd hplain (by decide)

end FleetWorkflow.Answers
