import FleetWorkflow.Answers.Grounding
import FleetWorkflow.Answers.Requests

/-!
# Event streams of chat messages

A stream is tokens and then one error, or tokens, citations and the end; and the message of the user is
committed with it. The stream keeps to this exactly when the reply path returns an answer or raises an
error of the gateway, the two outcomes that are handled, and what is written and emitted around the path
goes through. Every other exception of the path ends the stream after its tokens and drops the message.
-/

namespace FleetWorkflow.Answers

open Python Async Core Llm

/-- The event that a call emits, by its name. -/
def AnswerCall.emits? : AnswerCall → Option String
  | yieldEvent event _ => some event
  | _ => none

/-- A call that commits what is written so far. -/
def AnswerCall.isCommit : AnswerCall → Bool
  | commit => true
  | saveReply .. => true
  | _ => false

/-- The call is answered. -/
def replied (event : Event AnswerCall AnswerCall.Reply Raised) : Bool := event.reply.isOk

/-- The event that the consumer of the stream takes. -/
def taken? (event : Event AnswerCall AnswerCall.Reply Raised) : Option String :=
  if replied event then event.call.emits? else none

/-- What is written so far is committed. -/
def commits (event : Event AnswerCall AnswerCall.Reply Raised) : Bool := replied event && event.call.isCommit

/-- The events of a stream, by their names. -/
def stream (events : AnswerTrace) : List String := events.filterMap taken?

/-- A stream is a sequence of tokens followed by one error, or by citations and the end. -/
def WellFormed : List String → Prop
  | [] => False
  | event :: rest => event = "token" ∧ WellFormed rest ∨ event = "error" ∧ rest = [] ∨
      event = "citations" ∧ rest = ["done"]

/-- The message of the user is written, and committed later on. -/
def Persists (conversationId : ℕ) (userContent : String) (events : AnswerTrace) : Prop :=
  ∃ before after, events = before ++ ⟨.flushMessage conversationId userContent, .ok ()⟩ :: after ∧
    after.any commits

/-- The outcomes of a reply path that are handled: an answer, and an error of the gateway. -/
def Handled : Except Raised (String × List Citation) → Prop
  | .ok _ => True
  | .error (.gateway _) => True
  | .error _ => False

/-- What comes before the reply path: the message of the user is logged, masked, and written. -/
def opening (conversation : ConversationRow) (userContent masked traceId : String) : AnswerTrace :=
  [⟨.newUuid, .ok traceId⟩, ⟨.logMessage conversation.id masked, .ok ()⟩,
    ⟨.flushMessage conversation.id userContent, .ok ()⟩]

/-- The reply path ends with a handled outcome, and the calls before and after it are answered. -/
def Completes (setting : Setting) (conversation : ConversationRow) (agent : AgentRow) (userContent : String)
    (events : AnswerTrace) : Prop :=
  ∃ traceId path outcome after,
    events = opening conversation userContent (scrub setting.unicode userContent).text traceId ++ (path ++ after) ∧
    (chatReply setting agent conversation userContent traceId (scrub setting.unicode userContent).found).Runs
      path outcome ∧ Handled outcome ∧ after.all replied

variable {setting : Setting} {conversation : ConversationRow} {agent : AgentRow} {userContent traceId : String}
  {events path after : AnswerTrace}

@[simp] theorem stream_append (before after : AnswerTrace) : stream (before ++ after) = stream before ++ stream after :=
  List.filterMap_append

@[simp] theorem stream_opening (masked : String) : stream (opening conversation userContent masked traceId) = [] := rfl

/-- Tokens in front of a stream are no fault. -/
theorem wellFormed_append {names rest : List String} (h : ∀ event ∈ names, event = "token") :
    WellFormed (names ++ rest) ↔ WellFormed rest := by
  induction names with
  | nil => rfl
  | cons name names ih =>
    rw [List.cons_append, WellFormed, h name List.mem_cons_self, ih fun event hevent => h event (List.mem_cons_of_mem _ hevent)]
    simp

/-- A reply path emits tokens only. -/
theorem stream_path (h : ∀ event ∈ path, event.call.OnPath) : ∀ event ∈ stream path, event = "token" := by
  intro name hname
  obtain ⟨event, hevent, htaken⟩ := List.mem_filterMap.mp hname
  obtain ⟨-, hemits⟩ := Option.ite_none_right_eq_some.mp htaken
  have hpath := h event hevent
  cases hcall : event.call with
  | yieldEvent other data =>
    rw [hcall] at hemits hpath
    obtain rfl := Option.some.inj hemits
    exact hpath.1
  | _ =>
    rw [hcall] at hemits
    cases hemits

/-- A reply path commits nothing. -/
theorem not_commits_path (h : ∀ event ∈ path, event.call.OnPath) : path.any commits = false := by
  rw [List.any_eq_false]
  intro event hevent hcommits
  have hcommit : event.call.isCommit := (Bool.and_eq_true_iff.mp hcommits).2
  have hpath := h event hevent
  cases hcall : event.call with
  | commit =>
    rw [hcall] at hpath
    exact hpath
  | saveReply =>
    rw [hcall] at hpath
    exact hpath
  | _ =>
    rw [hcall] at hcommit
    cases hcommit

/-- The end of a stream, from its citations on. -/
theorem runs_ending {text : String} {citations : List Citation} {found : Bool} {result : Except Raised Unit}
    (h : (emitEvent "citations" [("citations", citationsJson citations)] >>= fun _ =>
      awaitAnswer (.saveReply conversation.id text citations traceId) >>= fun messageId => do
        if found then awaitAnswer (.redactTrace traceId)
        emitEvent "done" [("message_id", .int messageId), ("trace_id", .str traceId)]).Runs after result) :
    WellFormed (stream after) ∧ after.any commits ↔ after.all replied := by
  rcases Prog.runs_call_bind.mp h with ⟨error, rfl, -⟩ | ⟨_, saving, rfl, hsaving⟩
  · simp [stream, taken?, AnswerCall.emits?, WellFormed, replied, Except.isOk, Except.toBool]
  rcases Prog.runs_call_bind.mp hsaving with ⟨error, rfl, -⟩ | ⟨messageId, redacting, rfl, hredacting⟩
  · simp [stream, taken?, AnswerCall.emits?, WellFormed, replied, Except.isOk, Except.toBool]
  have hdone : ∀ {rest : AnswerTrace}, (emitEvent "done" [("message_id", .int messageId),
      ("trace_id", .str traceId)]).Runs rest result → (stream rest = ["done"] ↔ rest.all replied) := by
    intro rest hrest
    obtain rfl := Prog.runs_call.mp hrest
    cases result <;> simp [stream, taken?, AnswerCall.emits?, replied, Except.isOk, Except.toBool]
  cases found with
  | false =>
    have hlast := hdone hredacting
    simpa [stream, taken?, AnswerCall.emits?, WellFormed, commits, AnswerCall.isCommit, replied, Except.isOk,
      Except.toBool] using hlast
  | true =>
    rcases Prog.runs_call_bind.mp hredacting with ⟨error, rfl, -⟩ | ⟨_, rest, rfl, hrest⟩
    · simp [stream, taken?, AnswerCall.emits?, WellFormed, replied, Except.isOk, Except.toBool]
    · have hlast := hdone hrest
      simpa [stream, taken?, AnswerCall.emits?, WellFormed, commits, AnswerCall.isCommit, replied, Except.isOk, Except.toBool] using hlast

/-- What follows the reply path completes the stream and commits exactly when the outcome is handled and every
call is answered. -/
theorem runs_closing {found whole : Bool} {outcome : Except Raised (String × List Citation)}
    {result : Except Raised Unit} (h : (closing conversation traceId found whole outcome).Runs after result) :
    WellFormed (stream after) ∧ after.any commits ↔ Handled outcome ∧ after.all replied := by
  cases outcome with
  | error error =>
    cases error with
    | gateway detail =>
      rcases Prog.runs_call_bind.mp h with ⟨error, rfl, -⟩ | ⟨_, committing, rfl, hcommit⟩
      · simp [stream, taken?, AnswerCall.emits?, WellFormed, replied, Except.isOk, Except.toBool]
      · obtain rfl := Prog.runs_call.mp hcommit
        cases result <;>
          simp [stream, taken?, AnswerCall.emits?, WellFormed, commits, AnswerCall.isCommit, Handled, replied, Except.isOk, Except.toBool]
    | _ =>
      obtain ⟨rfl, -⟩ := Prog.runs_raise.mp h
      simp [Handled]
  | ok reply =>
    cases whole with
    | false =>
      rw [runs_ending h]
      simp [Handled]
    | true =>
      rcases Prog.runs_call_bind.mp h with ⟨error, rfl, -⟩ | ⟨_, rest, rfl, hrest⟩
      · simp [stream, taken?, AnswerCall.emits?, WellFormed, replied, Except.isOk, Except.toBool]
      · have hending := runs_ending hrest
        simpa [stream, taken?, AnswerCall.emits?, WellFormed, commits, AnswerCall.isCommit, Handled, replied, Except.isOk, Except.toBool] using hending

/-- A message is persisted exactly when something after the reply path commits it. -/
theorem persists_iff {masked : String} (hpath : ∀ event ∈ path, event.call.OnPath) :
    Persists conversation.id userContent (opening conversation userContent masked traceId ++ (path ++ after)) ↔
      after.any commits := by
  have hcommits : (path ++ after).any commits = after.any commits := by
    rw [List.any_append, not_commits_path hpath, Bool.false_or]
  constructor
  · rintro ⟨before, rest, heq, hrest⟩
    have hall : (opening conversation userContent masked traceId ++ (path ++ after)).any commits := by
      rw [heq, List.any_append, List.any_cons, hrest, Bool.or_true, Bool.or_true]
    rw [List.any_append, hcommits] at hall
    exact hall
  · intro h
    exact ⟨[⟨.newUuid, .ok traceId⟩, ⟨.logMessage conversation.id masked, .ok ()⟩], path ++ after, rfl,
      hcommits.trans h⟩

/-- A chat message fails before its content is written, or it takes the reply path and then what follows it. -/
theorem runs_streamReply {result : Except Raised Unit}
    (h : (streamReply setting conversation agent userContent).Runs events result) :
    (events.length ≤ 3 ∧ stream events = [] ∧ ¬ events.all replied) ∨
      ∃ traceId path outcome after, events =
          opening conversation userContent (scrub setting.unicode userContent).text traceId ++ (path ++ after) ∧
        (chatReply setting agent conversation userContent traceId (scrub setting.unicode userContent).found).Runs
          path outcome ∧
        (closing conversation traceId (scrub setting.unicode userContent).found (isWhole agent) outcome).Runs
          after result := by
  rcases Prog.runs_call_bind.mp h with ⟨error, rfl, -⟩ | ⟨traceId, logging, rfl, hlogging⟩
  · simp [stream, taken?, replied, Except.isOk, Except.toBool]
  rcases Prog.runs_call_bind.mp hlogging with ⟨error, rfl, -⟩ | ⟨_, writing, rfl, hwriting⟩
  · simp [stream, taken?, AnswerCall.emits?, replied, Except.isOk, Except.toBool]
  rcases Prog.runs_call_bind.mp hwriting with ⟨error, rfl, -⟩ | ⟨_, rest, rfl, hrest⟩
  · simp [stream, taken?, AnswerCall.emits?, replied, Except.isOk, Except.toBool]
  right
  rcases Prog.runs_bind.mp hrest with ⟨error, hpath, -⟩ | ⟨path, after, caught, rfl, hpath, hafter⟩
  · obtain ⟨outcome, -, hnever⟩ := Prog.runs_attempt.mp hpath
    cases hnever
  · obtain ⟨outcome, houtcome, heq⟩ := Prog.runs_attempt.mp hpath
    obtain rfl := Except.ok.inj heq
    exact ⟨traceId, path, caught, after, rfl, houtcome, hafter⟩

/-- The stream of a chat message is tokens followed by one error, or by citations and the end, and its content is
persisted, exactly when the reply path returns an answer or raises an error of the gateway and the calls before
and after it are answered. -/
theorem streamReply_keeps_iff (setting : Setting) (conversation : ConversationRow) (agent : AgentRow)
    (userContent : String) {events : AnswerTrace} {result : Except Raised Unit}
    (h : (streamReply setting conversation agent userContent).Runs events result) :
    WellFormed (stream events) ∧ Persists conversation.id userContent events ↔
      Completes setting conversation agent userContent events := by
  rcases runs_streamReply h with ⟨hlength, hstream, hfailed⟩ | ⟨traceId, path, outcome, after, rfl, hpath, hafter⟩
  · apply iff_of_false
    · rintro ⟨hwell, -⟩
      rw [hstream] at hwell
      exact hwell
    · rintro ⟨traceId, path, outcome, after, rfl, -⟩
      have hnil : path ++ after = [] := by
        apply List.eq_nil_of_length_eq_zero
        simp only [opening, List.length_append, List.length_cons, List.length_nil] at hlength ⊢
        omega
      rw [hnil] at hfailed
      exact hfailed rfl
  · have honly : ∀ event ∈ path, event.call.OnPath := by
      intro event hevent
      exact ((only_chatReply conversation userContent traceId _).runs hpath event hevent).1
    rw [persists_iff honly, stream_append, stream_opening, List.nil_append, stream_append,
      wellFormed_append (stream_path honly), runs_closing hafter]
    constructor
    · rintro ⟨hhandled, hreplied⟩
      exact ⟨traceId, path, outcome, after, rfl, hpath, hhandled, hreplied⟩
    · rintro ⟨traceId', path', outcome', after', heq, hpath', hhandled, hreplied⟩
      injection heq with hfirst htail
      injection hfirst with _ huuid
      obtain rfl := Except.ok.inj huuid
      injection htail with _ htail
      injection htail with _ htail
      obtain ⟨rfl, rfl⟩ := hpath.unique hpath' htail
      obtain rfl : after = after' := List.append_cancel_left htail
      exact ⟨hhandled, hreplied⟩

/-- An agent that answers plainly. -/
def helpAgent : AgentRow := ⟨2, "help", "active", "internal", []⟩

/-- A conversation with it. -/
def helpConversation : ConversationRow := ⟨2, 2, 3⟩

/-- A message in this conversation whose request fails. -/
def failingRun (error : Raised) (after : AnswerTrace) : AnswerTrace :=
  opening helpConversation "Hi" (scrub asciiSetting.unicode "Hi").text "t1" ++
    ([⟨.reasoningStream (plainMessages "Hi") "internal"
      [("agent_id", .str (Nat.repr 2)), ("user_id", .str (Nat.repr 3)), ("trace_id", .str "t1"),
        ("redact_langfuse", .bool (scrub asciiSetting.unicode "Hi").found)], .error error⟩] ++ after)

/-- What follows when it fails at the gateway. -/
def downRun : AnswerTrace :=
  failingRun (.gateway "down") [⟨.yieldEvent "error" (.obj [("detail", .str "down")]), .ok ()⟩, ⟨.commit, .ok ()⟩]

/-- Nothing follows when the budget is used up. -/
def overspentRun : AnswerTrace := failingRun (.budgetExceeded "global" 10 10) []

/-- When the gateway fails, the stream ends with an error and the message is persisted. -/
theorem downRun_keeps : WellFormed (stream downRun) ∧ Persists 2 "Hi" downRun := by
  have hrun : (streamReply asciiSetting helpConversation helpAgent "Hi").Runs downRun (.ok ()) :=
    .await (.await (.await (.await (.await (.await (.done ()))))))
  have hcompletes : Completes asciiSetting helpConversation helpAgent "Hi" downRun :=
    ⟨"t1", _, .error (.gateway "down"), _, rfl, .await (.raise _), trivial, rfl⟩
  exact (streamReply_keeps_iff asciiSetting helpConversation helpAgent "Hi" hrun).mpr hcompletes

/-- When the budget is used up, the stream ends without an error and the message is dropped. -/
theorem overspentRun_breaks :
    (streamReply asciiSetting helpConversation helpAgent "Hi").Runs overspentRun
        (.error (.budgetExceeded "global" 10 10)) ∧
      stream overspentRun = [] ∧ ¬ WellFormed (stream overspentRun) ∧ ¬ Persists 2 "Hi" overspentRun := by
  have hstream : stream overspentRun = [] := rfl
  refine ⟨.await (.await (.await (.await (.raise _)))), hstream, ?_, ?_⟩
  · rw [hstream]
    exact id
  · rintro ⟨before, after, heq, hafter⟩
    have hnone : overspentRun.any commits = false := rfl
    rw [heq, List.any_append, List.any_cons, hafter, Bool.or_true, Bool.or_true] at hnone
    cases hnone

end FleetWorkflow.Answers
