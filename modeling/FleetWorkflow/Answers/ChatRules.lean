import FleetWorkflow.Answers.Streams
import FleetWorkflow.Async.Simulation

/-!
# The rules of a chat message

What a message may do after what it has done, whatever it is answered. It is written once it is admitted: its user owns the
conversation, and the agent is not paused and may read its collections. Its reply is written once, after the message, with
the text that the stream delivered and the citations that were emitted; the end of the stream names the reply that was
written.
-/

namespace FleetWorkflow.Answers

open Python Async Core Llm

/-- A call returned a value. -/
def Got (seen : AnswerTrace) (c : AnswerCall) (value : c.Reply) : Prop :=
  (⟨c, .ok value⟩ : Event AnswerCall AnswerCall.Reply Raised) ∈ seen

/-- A call that writes rows of messages, or commits them. -/
def AnswerCall.isWrite : AnswerCall → Bool
  | flushMessage .. => true
  | saveReply .. => true
  | commit => true
  | _ => false

/-- The writes of a request, also those that failed. -/
def writes (seen : AnswerTrace) : List AnswerCall := (seen.map Event.call).filter AnswerCall.isWrite

/-- The text of a token event. -/
def AnswerCall.delta : AnswerCall → String
  | yieldEvent event (.obj [(_, .str text)]) => if event = "token" then text else ""
  | _ => ""

/-- The text that an event brings to the consumer of the stream. -/
def deltaOf (event : Event AnswerCall AnswerCall.Reply Raised) : String :=
  if replied event then event.call.delta else ""

/-- The text that a stream delivers. -/
def delivered : AnswerTrace → String
  | [] => ""
  | event :: rest => deltaOf event ++ delivered rest

/-- A message is admitted to a conversation: the user is its owner, and its agent is not paused and may read all its
collections. -/
structure Admitted (setting : Setting) (kcSub : String) (conversationId : ℕ) (seen : AnswerTrace)
    (conversation : ConversationRow) (agent : AgentRow) : Prop where
  found : Got seen (.getConversation conversationId) (some conversation)
  owner : Got seen (.getOrCreateUser kcSub) conversation.userId
  assigned : Got seen (.getAgent conversation.agentId) (some agent)
  status : agent.status ≠ "paused"
  flag : Got seen (.isAgentPaused agent.name) false
  collections : agent.collectionIds = [] ∨ ∃ level rows, Sensitivity.parse setting.texts (.text agent.sensitivity) = .ok level ∧
    Got seen (.selectCollections agent.collectionIds) rows ∧ ∀ row ∈ rows, above setting level row = .ok false

/-- What a message may do after what it has done. -/
def MayCall (setting : Setting) (kcSub : String) (conversationId : ℕ) (content : String) (seen : AnswerTrace) :
    AnswerCall → Prop
  | .flushMessage id text => ∃ conversation agent, Admitted setting kcSub conversationId seen conversation agent ∧
      id = conversation.id ∧ text = content ∧ writes seen = [] ∧ delivered seen = ""
  | .saveReply id text citations traceId => writes seen = [.flushMessage id content] ∧
      Got seen (.flushMessage id content) () ∧ text = delivered seen ∧ Got seen .newUuid traceId ∧
      Got seen (.yieldEvent "citations" (.obj [("citations", citationsJson citations)])) ()
  | .commit => ∃ id, writes seen = [.flushMessage id content] ∧ Got seen (.flushMessage id content) ()
  | .yieldEvent event data => (writes seen).length ≤ 1 ∧ event ≠ "done" ∨
      event = "done" ∧ ∃ id text citations traceId messageId, Got seen (.saveReply id text citations traceId) messageId ∧
        data = .obj [("message_id", .int messageId), ("trace_id", .str traceId)]
  | _ => True

section Messages

variable {setting : Setting} {kcSub content : String} {conversationId : ℕ} {conversation : ConversationRow}
  {agent : AgentRow} {seen path : AnswerTrace} {c : AnswerCall}

@[simp] theorem got_append (seen path : AnswerTrace) (c : AnswerCall) (value : c.Reply) :
    Got (seen ++ path) c value ↔ Got seen c value ∨ Got path c value := List.mem_append

@[simp] theorem got_cons (event : Event AnswerCall AnswerCall.Reply Raised) (rest : AnswerTrace) (c : AnswerCall)
    (value : c.Reply) : Got (event :: rest) c value ↔ event = ⟨c, .ok value⟩ ∨ Got rest c value := by
  rw [Got, List.mem_cons, eq_comm]
  rfl

@[simp] theorem not_got_nil (c : AnswerCall) (value : c.Reply) : ¬ Got [] c value := List.not_mem_nil

@[simp] theorem writes_append (seen path : AnswerTrace) : writes (seen ++ path) = writes seen ++ writes path := by
  rw [writes, List.map_append, List.filter_append]
  rfl

@[simp] theorem delivered_append (seen path : AnswerTrace) : delivered (seen ++ path) = delivered seen ++ delivered path := by
  induction seen with
  | nil => exact (String.empty_append).symm
  | cons event rest ih => rw [List.cons_append, delivered, delivered, ih, String.append_assoc]

/-- A path writes nothing. -/
theorem writes_path (h : ∀ event ∈ path, event.call.OnPath) : writes path = [] := by
  rw [writes, List.filter_eq_nil_iff]
  intro c hc hwrite
  obtain ⟨event, hevent, rfl⟩ := List.mem_map.mp hc
  have hpath := h event hevent
  cases hcall : event.call <;> rw [hcall] at hpath hwrite <;> first | exact hpath | cases hwrite

/-- Nothing is delivered where no token is emitted. -/
theorem delivered_eq_empty (h : ∀ event ∈ path, event.call.delta = "") : delivered path = "" := by
  induction path with
  | nil => rfl
  | cons event rest ih =>
    rw [delivered, deltaOf, h event List.mem_cons_self, ite_self, ih fun event hevent => h event (List.mem_cons_of_mem _ hevent)]
    rfl

/-- Admission lasts. -/
theorem Admitted.append (h : Admitted setting kcSub conversationId seen conversation agent) (path : AnswerTrace) :
    Admitted setting kcSub conversationId (seen ++ path) conversation agent where
  found := List.mem_append_left _ h.found
  owner := List.mem_append_left _ h.owner
  assigned := List.mem_append_left _ h.assigned
  status := h.status
  flag := List.mem_append_left _ h.flag
  collections := h.collections.imp_right fun ⟨level, rows, hlevel, hrows, habove⟩ =>
    ⟨level, rows, hlevel, List.mem_append_left _ hrows, habove⟩

/-! ## What is delivered -/

/-- The loop over a streamed reply returns what it delivers. -/
theorem delivered_collectDeltas {deltas : ℕ} {text whole : String}
    (h : (collectDeltas (fun delta => emitEvent "token" [("delta", delta)]) deltas text).Runs path (.ok whole)) :
    whole = text ++ delivered path := by
  induction deltas generalizing text path with
  | zero =>
    cases h
    exact String.append_empty.symm
  | succ deltas ih =>
    rcases Prog.runs_call_bind.mp h with ⟨error, -, hnever⟩ | ⟨delta, rest, rfl, hrest⟩
    · cases hnever
    · cases delta with
      | str added =>
        rcases Prog.runs_call_bind.mp hrest with ⟨error, -, hnever⟩ | ⟨_, later, rfl, hlater⟩
        · cases hnever
        · rw [ih hlater, String.append_assoc]
          rfl
      | _ => cases hrest

/-- An answer to a query emits nothing. -/
theorem only_answerQuery_silent {question : String} {searcher : Searcher} {config : AgentQueryConfig} {sensitivity : String}
    {keyword : Option String} {kwargs : Dict}
    (h : ∀ vector topK keyword, (searcher vector topK keyword).Only fun c => c.delta = "") :
    (answerQuery setting question searcher config sensitivity keyword kwargs).Only fun c => c.delta = "" := by
  apply Prog.Only.bind
  · exact Prog.only_call rfl
  · intro vectors
    apply (only_lift _).bind
    intro vector
    apply Prog.Only.bind
    · exact (h _ _ _).bind fun _ => Prog.only_pure _
    · intro hits
      exact only_buildAnswer hits (only_generate rfl fun messages => rfl)

/-- A search over collections emits nothing. -/
theorem only_searchAll_silent {queryVector : Json} {topK : ℕ} {keyword : Option String} (names : List String) :
    (searchAll queryVector topK keyword names).Only fun c => c.delta = "" := by
  induction names with
  | nil => exact Prog.only_pure _
  | cons name rest ih =>
    apply Prog.Only.bind
    · exact Prog.only_call rfl
    · intro points
      exact ih.bind fun _ => Prog.only_pure _

/-- A reply delivers its text, or nothing when it is returned whole. -/
theorem delivered_chatReply {userContent traceId text : String} {found : Bool} {citations : List Citation}
    (h : (chatReply setting agent conversation userContent traceId found).Runs path (.ok (text, citations))) :
    delivered path = if isWhole agent then "" else text := by
  rw [chatReply] at h
  by_cases hname : agent.name = analyticsAgentName
  · rw [if_pos hname] at h
    have honly : ((analyticsReply setting agent userContent traceId >>= fun text =>
        (pure (text, []) : Answering (String × List Citation)))).Only fun c => c.delta = "" :=
      (only_analyticsReply (fun messages => rfl) fun sql => rfl).bind fun _ => Prog.only_pure _
    rw [if_pos (by simp [isWhole, hname])]
    exact delivered_eq_empty (honly.runs h)
  · by_cases hids : agent.collectionIds = []
    · rw [if_neg hname, if_neg (not_not.mpr hids)] at h
      rw [if_neg (by simp [isWhole, hname, hids])]
      rcases Prog.runs_bind.mp h with ⟨error, -, hnever⟩ | ⟨before, after, whole, rfl, hplain, hlast⟩
      · cases hnever
      · cases hlast
        rcases Prog.runs_call_bind.mp hplain with ⟨error, -, hnever⟩ | ⟨deltas, rest, rfl, hrest⟩
        · cases hnever
        · rw [delivered_collectDeltas hrest, List.append_nil]
          rfl
    · rw [if_neg hname, if_pos hids] at h
      have honly : (ragReply setting agent userContent traceId).Only fun c => c.delta = "" := by
        apply Prog.Only.bind
        · apply only_answerQuery_silent
          intro vector topK keyword
          exact (only_searchAll_silent _).bind fun _ => Prog.only_pure _
        · intro answer
          exact Prog.only_pure _
      rw [if_pos (by simp [isWhole, hids])]
      exact delivered_eq_empty (honly.runs h)

/-- A written message whose stream has delivered a text. -/
structure Delivered (seen : AnswerTrace) (conversationId : ℕ) (content traceId text : String) : Prop where
  writes : writes seen = [.flushMessage conversationId content]
  flushed : Got seen (.flushMessage conversationId content) ()
  traced : Got seen .newUuid traceId
  delivered : delivered seen = text

/-- An event that is no token delivers nothing more. -/
theorem Delivered.append {id : ℕ} {traceId text : String} (h : Delivered seen id content traceId text) (path : AnswerTrace)
    (hwrites : Answers.writes path = []) :
    Delivered (seen ++ path) id content traceId (text ++ Answers.delivered path) where
  writes := by rw [writes_append, h.writes, hwrites, List.append_nil]
  flushed := List.mem_append_left _ h.flushed
  traced := List.mem_append_left _ h.traced
  delivered := by rw [delivered_append, h.delivered]

/-- The end of a stream keeps to the rules. -/
theorem ensures_ending {found : Bool} {traceId text : String} {citations : List Citation}
    (h : Delivered seen conversation.id content traceId text) :
    (Protocol.history (MayCall setting kcSub conversationId content)).Ensures (fun _ _ => True)
      (emitEvent "citations" [("citations", citationsJson citations)] >>= fun _ =>
        awaitAnswer (.saveReply conversation.id text citations traceId) >>= fun messageId => do
          if found then awaitAnswer (.redactTrace traceId)
          emitEvent "done" [("message_id", .int messageId), ("trace_id", .str traceId)]) seen := by
  apply Protocol.ensures_history_bind
  · left
    rw [h.writes]
    exact ⟨Nat.le_refl _, by decide⟩
  rintro ⟨⟩
  have hcited := h.append [⟨.yieldEvent "citations" (.obj [("citations", citationsJson citations)]), .ok ()⟩] rfl
  rw [show text ++ delivered [⟨.yieldEvent "citations" (.obj [("citations", citationsJson citations)]), .ok ()⟩] = text from
    String.append_empty] at hcited
  apply Protocol.ensures_history_bind
  · exact ⟨hcited.writes, hcited.flushed, hcited.delivered.symm, hcited.traced, by simp⟩
  intro messageId
  have hdone (path : AnswerTrace) : MayCall setting kcSub conversationId content
      ((seen ++ [⟨.yieldEvent "citations" (.obj [("citations", citationsJson citations)]), .ok ()⟩]) ++
        [⟨.saveReply conversation.id text citations traceId, .ok messageId⟩] ++ path)
      (.yieldEvent "done" (.obj [("message_id", .int messageId), ("trace_id", .str traceId)])) :=
    .inr ⟨rfl, _, _, _, _, messageId, List.mem_append_left _ (List.mem_append_right _ (List.mem_singleton.mpr rfl)), rfl⟩
  split
  · apply Protocol.ensures_history_bind trivial
    intro _
    exact Protocol.ensures_history_call (hdone _)
  · have hlast := hdone []
    rw [List.append_nil] at hlast
    exact Protocol.ensures_history_call hlast

/-- What follows the reply keeps to the rules. -/
theorem ensures_closing {found whole : Bool} {traceId delivery : String} {outcome : Except Raised (String × List Citation)}
    (h : Delivered seen conversation.id content traceId delivery)
    (houtcome : ∀ text citations, outcome = .ok (text, citations) → delivery = if whole then "" else text) :
    (Protocol.history (MayCall setting kcSub conversationId content)).Ensures (fun _ _ => True)
      (closing conversation traceId found whole outcome) seen := by
  have htoken {event : String} {data : Json} (hevent : event ≠ "done") :
      MayCall setting kcSub conversationId content seen (.yieldEvent event data) := by
    left
    rw [h.writes]
    exact ⟨Nat.le_refl _, hevent⟩
  rcases outcome with error | ⟨text, citations⟩
  · cases error with
    | gateway detail =>
      apply Protocol.ensures_history_bind (htoken (by decide))
      intro _
      have herror := h.append [⟨.yieldEvent "error" (.obj [("detail", .str detail)]), .ok ()⟩] rfl
      exact Protocol.ensures_history_call ⟨conversation.id, herror.writes, herror.flushed⟩
    | _ => trivial
  · have hdelivery := houtcome text citations rfl
    cases whole with
    | false =>
      obtain rfl : delivery = text := hdelivery
      exact ensures_ending h
    | true =>
      obtain rfl : delivery = "" := hdelivery
      apply Protocol.ensures_history_bind (htoken (by decide))
      rintro ⟨⟩
      have hemitted := h.append [⟨.yieldEvent "token" (.obj [("delta", .str text)]), .ok ()⟩] rfl
      rw [show "" ++ delivered [⟨.yieldEvent "token" (.obj [("delta", .str text)]), .ok ()⟩] = text from by
        rw [String.empty_append]
        exact String.append_empty] at hemitted
      exact ensures_ending hemitted

/-- The calls of a reply are within the rules once the message is written. -/
theorem mayCall_of_onPath (hwrites : (writes seen).length ≤ 1) (hc : c.OnPath) : MayCall setting kcSub conversationId content seen c := by
  cases c with
  | yieldEvent event data =>
    refine .inl ⟨hwrites, ?_⟩
    rw [hc.1]
    decide
  | flushMessage => exact hc.elim
  | saveReply => exact hc.elim
  | commit => exact hc.elim
  | _ => trivial

/-- An admitted message keeps to the rules. -/
theorem ensures_streamReply (hadmitted : Admitted setting kcSub conversationId seen conversation agent)
    (hwrites : writes seen = []) (hdelivered : delivered seen = "") :
    (Protocol.history (MayCall setting kcSub conversationId content)).Ensures (fun _ _ => True)
      (streamReply setting conversation agent content) seen := by
  apply Protocol.ensures_history_bind trivial
  intro traceId
  apply Protocol.ensures_history_bind trivial
  intro _
  apply Protocol.ensures_history_bind
  · exact ⟨conversation, agent, (hadmitted.append _).append _, rfl, rfl, by simp [hwrites]; rfl, by simp [hdelivered]; rfl⟩
  rintro ⟨⟩
  have hstart : Delivered (seen ++ opening conversation content (scrub setting.unicode content).text traceId)
      conversation.id content traceId "" := by
    refine ⟨?_, ?_, ?_, ?_⟩
    · rw [writes_append, hwrites]
      rfl
    · simp [opening]
    · simp [opening]
    · rw [delivered_append, hdelivered]
      rfl
  have hopened : seen ++ [⟨.newUuid, .ok traceId⟩] ++
      [⟨.logMessage conversation.id (scrub setting.unicode content).text, .ok ()⟩] ++
      [⟨.flushMessage conversation.id content, .ok ()⟩] =
      seen ++ opening conversation content (scrub setting.unicode content).text traceId := by
    simp [opening]
  rw [hopened]
  have honly : (chatReply setting agent conversation content traceId (scrub setting.unicode content).found).Only
      AnswerCall.OnPath := (only_chatReply conversation content traceId _).mono fun c hc => hc.1
  apply Protocol.ensures_bind.mpr
  apply Protocol.ensures_attempt.mpr
  apply (Protocol.ensures_history_runs honly fun path c hpath hc => ?_).mono
  · rintro outcome _ ⟨path, rfl, hruns⟩
    apply ensures_closing (hstart.append path (writes_path (honly.runs hruns)))
    rintro text citations rfl
    rw [String.empty_append]
    exact delivered_chatReply hruns
  · apply mayCall_of_onPath _ hc
    rw [writes_append, hstart.writes, writes_path hpath]
    exact Nat.le_refl _

/-- The check of the collections comes before an admitted message. -/
theorem ensures_assert_bind {next : Answering Unit} (hwrites : writes seen = []) (hdelivered : delivered seen = "")
    (hnext : ∀ path, writes (seen ++ path) = [] → delivered (seen ++ path) = "" →
      (agent.collectionIds = [] ∨ ∃ level rows, Sensitivity.parse setting.texts (.text agent.sensitivity) = .ok level ∧
        Got (seen ++ path) (.selectCollections agent.collectionIds) rows ∧ ∀ row ∈ rows, above setting level row = .ok false) →
      (Protocol.history (MayCall setting kcSub conversationId content)).Ensures (fun _ _ => True) next (seen ++ path)) :
    (Protocol.history (MayCall setting kcSub conversationId content)).Ensures (fun _ _ => True)
      (assertAgentMayReadItsCollections setting agent >>= fun _ => next) seen := by
  rw [assertAgentMayReadItsCollections]
  split
  · rename_i hids
    have hnone := hnext []
    rw [List.append_nil] at hnone
    exact hnone hwrites hdelivered (.inl hids)
  · rw [Prog.bind_assoc]
    apply Protocol.ensures_ofExcept_bind
    · exact fun _ _ => trivial
    intro level hlevel
    rw [Prog.bind_assoc]
    apply Protocol.ensures_history_bind trivial
    intro rows
    apply Protocol.ensures_ofExcept_bind
    · exact fun _ _ => trivial
    rintro ⟨⟩ hrefuse
    refine hnext _ ?_ ?_ (.inr ⟨level, rows, hlevel, by simp, above_of_refuseAbove hrefuse⟩)
    · rw [writes_append, hwrites]
      rfl
    · rw [delivered_append, hdelivered]
      rfl

/-- A message keeps to the rules. -/
theorem ensures_sendMessage : (Protocol.history (MayCall setting kcSub conversationId content)).Ensures (fun _ _ => True)
    (sendMessage setting kcSub conversationId content) [] := by
  apply Protocol.ensures_history_bind trivial
  intro found
  cases found with
  | none => trivial
  | some conversation =>
    apply Protocol.ensures_history_bind trivial
    intro userId
    dsimp only
    split
    · trivial
    · rename_i howner
      apply Protocol.ensures_history_bind trivial
      intro found
      cases found with
      | none => trivial
      | some agent =>
        dsimp only
        split
        · trivial
        · rename_i hstatus
          apply Protocol.ensures_history_bind trivial
          intro paused
          split
          · trivial
          · rename_i hpaused
            apply ensures_assert_bind rfl rfl
            intro path hwrites hdelivered hcollections
            apply Protocol.ensures_history_bind trivial
            intro _
            apply ensures_streamReply
            · apply Admitted.append
              refine ⟨?_, ?_, ?_, hstatus, ?_, hcollections⟩
              · simp
              · simp [not_not.mp howner]
              · simp
              · simp [Bool.not_eq_true _ ▸ hpaused]
            · rw [writes_append, hwrites]
              rfl
            · rw [delivered_append, hdelivered]
              rfl

end Messages

end FleetWorkflow.Answers
