import FleetWorkflow.Approvals.AskedWrites

/-!
# The ledger of approvals

Requests to the whole API, interleaved at their calls. What the log tells of an approval is a life: it is filed, decided
once, its handler is started once with the decision, and an approved e-mail is sent once, with the texts of the row as it
was decided. This holds as long as no decision is committed onto a row that is decided already; nothing that the log tells
of approvals is about a row that is not stored.
-/

namespace FleetWorkflow.Approvals

open Python Async Core Agents Store Api

/-! ## Postings -/

/-- What a log tells of approvals. -/
inductive Posting where
  | filed (id : ℕ) (draft : ApprovalDraft)
  | decided (id : ℕ) (editedPayload : Option Dict) (status sub : String)
  | started (agentName runId : String) (approved : Bool)
  | mailed (runId : String) (args : Dict)

/-- What an event tells of approvals: rows that are stored, decisions that are committed, handlers that start, and e-mails
of recipes, also those that fail. -/
def postingOf : CallEvent → Option Posting
  | ⟨.insertApproval draft, .ok row⟩ => some (.filed row.id draft)
  | ⟨.commitDecision id editedPayload status sub, .ok _⟩ => some (.decided id editedPayload status sub)
  | ⟨.resumeStarted agentName runId approved, _⟩ => some (.started agentName runId approved)
  | ⟨.tool caller tool args, _⟩ =>
    if caller.agent = recipeAgentName ∧ tool = emailSend then some (.mailed caller.thread args) else none
  | _ => none

/-- What a log tells of approvals, in order. -/
def postings (log : List CallEvent) : List Posting := log.filterMap postingOf

/-- A posting is about a row: it names the id or the run of the row. -/
def Posting.about (row : ApprovalRow) : Posting → Bool
  | .filed id _ | .decided id _ _ _ => id = row.id
  | .started _ runId _ | .mailed runId _ => runId = row.runId

/-- What a log tells of a row. -/
def postingsOf (row : ApprovalRow) (log : List CallEvent) : List Posting := (postings log).filter (Posting.about row)

/-- The arguments of an e-mail are the texts of a row that queues one, and its recipient is allowed. -/
def MailOf (fleet : Fleet) (row : ApprovalRow) (args : Dict) : Prop :=
  row.action = "email.send" ∧ ∃ recipient subject body, recipeEmail fleet row.payload = .ok (recipient, subject, body) ∧
    isAllowedRecipient recipient allowedEmailDomains = true ∧
      args = [("to", .str recipient), ("subject", .str subject), ("body", .str body)]

/-- The row of a draft after a decision. -/
def decidedRow (draft : ApprovalDraft) (id : ℕ) (editedPayload : Option Dict) (approved : Bool) (sub : String) (time : Time) :
    ApprovalRow := (draft.row id).decided editedPayload (decidedStatus approved) sub time

/-- The life of an approval, with its row and what is told of it. -/
inductive Life (fleet : Fleet) : ApprovalRow → List Posting → Prop where
  | waits (draft : ApprovalDraft) (id : ℕ) : Life fleet (draft.row id) [.filed id draft]
  | decided (draft : ApprovalDraft) (id : ℕ) (editedPayload : Option Dict) (approved : Bool) (sub : String) (time : Time) :
    Life fleet (decidedRow draft id editedPayload approved sub time)
      [.filed id draft, .decided id editedPayload (decidedStatus approved) sub]
  | started (draft : ApprovalDraft) (id : ℕ) (editedPayload : Option Dict) (approved : Bool) (sub : String) (time : Time)
    (agentName : String) : Life fleet (decidedRow draft id editedPayload approved sub time)
      [.filed id draft, .decided id editedPayload (decidedStatus approved) sub, .started agentName draft.runId approved]
  | mailed (draft : ApprovalDraft) (id : ℕ) (editedPayload : Option Dict) (sub : String) (time : Time) (args : Dict)
    (hmail : MailOf fleet (decidedRow draft id editedPayload true sub time) args) :
    Life fleet (decidedRow draft id editedPayload true sub time)
      [.filed id draft, .decided id editedPayload (decidedStatus true) sub, .started recipeAgentName draft.runId true,
        .mailed draft.runId args]

/-- Every approval has a life, and everything that the log tells of approvals is about a stored one. -/
structure Ledger (fleet : Fleet) (w : World) (log : List CallEvent) : Prop where
  lives : ∀ id row, w.stores.approvals.row id = some row → Life fleet row (postingsOf row log)
  covered : ∀ posting ∈ postings log, ∃ id row, w.stores.approvals.row id = some row ∧ posting.about row

/-! ## Requests -/

/-- A request to the API, or one that administers agents. -/
inductive ApiRequest where
  | usual (request : Request)
  | createAgent (body : AgentIn)
  | updateAgent (agentId : ℕ) (body : AgentIn)
  | deleteAgent (agentId : ℕ)

/-- The handler of a request. -/
def ApiRequest.task (fleet : Fleet) : ApiRequest → Coroutine Unit
  | .usual request => request.task fleet
  | .createAgent body => discard (Api.createAgent body)
  | .updateAgent agentId body => discard (Api.updateAgent agentId body)
  | .deleteAgent agentId => Api.deleteAgent agentId

/-- The requests, none of which has started. -/
def apiPool (fleet : Fleet) (requests : List ApiRequest) (agents : Table AgentRow AgentRow.id) :
    Pool Call Reply Exc World ℕ where
  shared := World.withAgents agents
  running task :=
    match requests[task]? with
    | some request => request.task fleet
    | none => .done ()
  trace := []

/-- The log of a pool. -/
def logOf (pool : Pool Call Reply Exc World ℕ) : List CallEvent := pool.trace.map Prod.snd

/-! ## What a request has in hand -/

/-- What a request has in hand: nothing, a run id that it drew, or a row that it decided, whose handler it may have
started. -/
inductive Hand where
  | empty
  | drawn (runId : String)
  | settled (row : ApprovalRow) (approved : Bool)
  | started (agentName : String) (row : ApprovalRow) (approved : Bool)

/-- The run that a request has in hand. -/
def Hand.runId? : Hand → Option String
  | .empty => none
  | .drawn runId => some runId
  | .settled row _ => some row.runId
  | .started _ row _ => some row.runId

/-- The row that a request has in hand. -/
def Hand.row? : Hand → Option ApprovalRow
  | .settled row _ => some row
  | .started _ row _ => some row
  | _ => none

/-- Reading the row in hand gives that row. -/
def Hand.Reads (hand : Hand) : (c : Call) → Except Exc (Reply c) → Prop
  | .getApproval id, .ok found => ∀ row, hand.row? = some row → id = row.id → found = some row
  | .findApprovalByRun runId, .ok found => ∀ row, hand.row? = some row → runId = row.runId → found = some row
  | _, _ => True

/-- What a call leaves in hand. -/
def Hand.Moves (hand : Hand) : (c : Call) → Except Exc (Reply c) → Hand → Prop
  | .uuid4, .ok runId, hand' => hand' = .drawn runId
  | .insertApproval _, _, hand' => hand' = .empty
  | .commitDecision id _ status _, .ok _, hand' => ∃ row approved, hand' = .settled row approved ∧ row.id = id ∧
      status = decidedStatus approved
  | .resumeStarted agentName _ approved, _, hand' => ∃ row, hand = .settled row approved ∧
      hand' = .started agentName row approved
  | .tool caller tool _, _, hand' => hand' = if caller.agent = recipeAgentName ∧ tool = emailSend then .empty else hand
  | _, _, hand' => hand' = hand

/-- What a request may do: file under a run id that it drew, decide once, start the handler of what it decided, and send the
e-mail of a row that it approved. -/
def handProtocol (fleet : Fleet) : Protocol Call Reply Exc Hand where
  allowed hand c :=
    match c with
    | .insertApproval draft => hand = .drawn draft.runId
    | .commitDecision _ _ status _ => hand = .empty ∧ ∃ approved, status = decidedStatus approved
    | .resumeStarted _ runId approved => ∃ row, hand = .settled row approved ∧ runId = row.runId
    | .tool caller tool args => caller.agent = recipeAgentName → tool = emailSend →
        ∃ row, hand = .started recipeAgentName row true ∧ caller.thread = row.runId ∧ MailOf fleet row args
    | _ => True
  answers hand c reply hand' := hand.Reads c reply ∧ hand.Moves c reply hand'

/-- Calls that ask for nothing in hand. -/
def Free : Call → Prop
  | .insertApproval _ | .commitDecision _ _ _ _ | .resumeStarted _ _ _ => False
  | .tool caller tool _ => caller.agent = recipeAgentName → tool ≠ emailSend
  | _ => True

section Requests

variable {fleet : Fleet} {hand : Hand}

/-- A free call is allowed. -/
theorem Free.allowed {c : Call} (hc : Free c) (hand : Hand) : (handProtocol fleet).allowed hand c := by
  cases c with
  | tool caller tool args => exact fun hname htool => absurd htool (hc hname)
  | insertApproval => exact hc.elim
  | commitDecision => exact hc.elim
  | resumeStarted => exact hc.elim
  | _ => trivial

/-- A free call but a new id leaves what is in hand. -/
theorem Free.moves_iff {c : Call} (hc : Free c) (hid : c ≠ .uuid4) (reply : Except Exc (Reply c)) (hand' : Hand) :
    hand.Moves c reply hand' ↔ hand' = hand := by
  cases c with
  | tool caller tool args => rw [Hand.Moves, if_neg fun hsent => hc hsent.1 hsent.2]
  | insertApproval => exact hc.elim
  | commitDecision => exact hc.elim
  | resumeStarted => exact hc.elim
  | uuid4 => exact absurd rfl hid
  | _ => exact Iff.rfl

/-- A request of free calls keeps to the protocol. -/
theorem ensures_free {α : Type} {p : Coroutine α} (hp : p.Only Free) (hand : Hand) :
    (handProtocol fleet).Ensures (fun _ _ => True) p hand :=
  Protocol.ensures_only hp (fun hand _ _ hc => ⟨hc.allowed hand, fun _ _ _ => trivial⟩) trivial

/-- Free calls but a new id leave what is in hand. -/
theorem ensures_plain {α : Type} {p : Coroutine α} (hp : p.Only fun c => Free c ∧ c ≠ .uuid4) :
    (handProtocol fleet).Ensures (fun _ hand' => hand' = hand) p hand :=
  Protocol.ensures_still hp fun _ hc => ⟨hc.1.allowed hand, fun reply hand' hreply =>
    (hc.1.moves_iff hc.2 reply hand').mp hreply.2⟩

/-- One free call at the start of a sequence. -/
theorem ensures_plain_bind {c : Call} {β : Type} {f : Reply c → Coroutine β} {post : Except Exc β → Hand → Prop}
    (hc : Free c) (hid : c ≠ .uuid4) (hraise : ∀ error, post (.error error) hand)
    (hnext : ∀ value, hand.Reads c (.ok value) → (handProtocol fleet).Ensures post (f value) hand) :
    (handProtocol fleet).Ensures post (await c >>= f) hand := by
  refine Protocol.ensures_call_bind (hc.allowed hand) ?_
  rintro reply hand' ⟨hreads, hmoves⟩
  obtain rfl := (hc.moves_iff hid reply hand').mp hmoves
  cases reply with
  | error error => exact hraise error
  | ok value => exact hnext value hreads

/-- The calls of a run are free unless it is one of the recipes. -/
theorem free_runCall {actor : Actor} (hname : actor.agent ≠ recipeAgentName) {c : Call} (h : RunCall actor c) :
    Free c ∧ c ≠ .uuid4 := by
  cases c with
  | tool caller tool args =>
    obtain rfl : caller = actor := h
    exact ⟨fun hrecipe => absurd hrecipe hname, by simp⟩
  | _ => first | exact h.elim | exact ⟨trivial, by simp⟩

/-- The calls of a handler are free unless it is the one of the recipes. -/
theorem free_resumeCall {actor : Actor} (hname : actor.agent ≠ recipeAgentName) {c : Call} (h : ResumeCall actor c) :
    Free c ∧ c ≠ .uuid4 := by
  cases c with
  | buildClient => exact ⟨trivial, by simp⟩
  | findApprovalByRun => exact ⟨trivial, by simp⟩
  | _ => exact free_runCall hname h

/-- Calls that keep away are free. -/
theorem Aloof.free {c : Call} (h : Aloof c) : Free c := by
  cases c with
  | tool caller tool args =>
    rintro - rfl
    exact h rfl
  | insertApproval => exact h.elim
  | commitDecision => exact h.elim
  | resumeStarted => exact h.elim
  | _ => trivial

/-- A request that starts a run files what it stops at under the id that it drew. -/
theorem ensures_drawsRun {agentName : String} (hname : agentName ≠ recipeAgentName) {outcomes : Outcomes}
    (hended : ∀ runId values, (outcomes.ended runId values).Only fun _ => False) {run : String → Coroutine AgentRun}
    (hrun : ∀ runId, (run runId).Only (RunCall ⟨agentName, runId⟩)) (hand : Hand) :
    (handProtocol fleet).Ensures (fun _ _ => True) (startRun agentName outcomes run) hand := by
  apply ensures_plain_bind (show Free (.findAgent agentName) from trivial) (by simp) (fun _ => trivial)
  rintro (_ | agent) -
  · trivial
  · apply ensures_plain_bind (show Free .buildClient from trivial) (by simp) (fun _ => trivial)
    rintro - -
    apply Protocol.ensures_call_bind trivial
    rintro (error | runId) hand₁ ⟨-, hdrawn⟩
    · trivial
    · obtain rfl : hand₁ = .drawn runId := hdrawn
      apply Protocol.ensures_bind.mpr
      apply (ensures_plain ((hrun runId).mono fun _ => free_runCall hname)).mono
      rintro (error | result) _ rfl
      · trivial
      · show Protocol.Ensures _ _ (finishRun outcomes agent.id runId result) _
        rw [finishRun]
        split
        · trivial
        · cases result.interrupt with
          | none => exact (ensures_plain ((hended _ _).mono fun _ hc => hc.elim)).mono fun _ _ _ => trivial
          | some payload =>
            apply Protocol.ensures_bind.mpr
            rw [queueApproval]
            apply Protocol.ensures_ofExcept_bind (fun _ _ => trivial)
            intro action _
            apply Protocol.ensures_ofExcept_bind (fun _ _ => trivial)
            intro args _
            apply Protocol.ensures_call.mpr
            refine ⟨rfl, ?_⟩
            intro reply hand₂ _
            cases reply <;> trivial

/-- The automation's e-mail is filed under the id that its request drew. -/
theorem ensures_drawsEmail (body : EmailSendIn) (hand : Hand) :
    (handProtocol fleet).Ensures (fun _ _ => True) (emailSendRequest fleet body) hand := by
  rw [emailSendRequest]
  split
  · trivial
  · apply ensures_plain_bind (show Free (.findAgent recipeAgentName) from trivial) (by simp) (fun _ => trivial)
    rintro (_ | agent) -
    · trivial
    · apply Protocol.ensures_call_bind trivial
      rintro (error | runId) hand₁ ⟨-, hdrawn⟩
      · trivial
      · obtain rfl : hand₁ = .drawn runId := hdrawn
        apply Protocol.ensures_call_bind rfl
        rintro (error | row) hand₂ -
        · trivial
        · apply ensures_free
          apply Prog.Only.bind
          · apply (Prog.only_call trivial).bind
            intro found
            cases found <;> trivial
          · exact fun _ => Prog.only_pure _

/-- A request that files approvals files under the id that it drew. -/
theorem ensures_drawsFiling (filing : Filing) (hand : Hand) :
    (handProtocol fleet).Ensures (fun _ _ => True) (filing.request fleet) hand := by
  cases filing with
  | devAgent ticketKey =>
    refine Protocol.ensures_discard.mpr (ensures_drawsRun (by decide) ?_ (fun runId =>
      only_ainvoke (DevAgent.only_body fleet.py _ none) _) hand)
    exact fun _ _ => trivial
  | invoiceAgent imageBase64 =>
    refine Protocol.ensures_discard.mpr (ensures_drawsRun (by decide) ?_ (fun runId =>
      only_ainvoke (InvoiceAgent.only_body fleet.py fleet.exceedsTolerance _ none []) _) hand)
    exact fun _ _ => trivial
  | hrAgent imageBase64 criteria =>
    refine Protocol.ensures_discard.mpr (ensures_drawsRun (by decide) ?_ (fun runId =>
      only_ainvoke (HrAgent.only_body fleet.py fleet.hr _ none) _) hand)
    exact fun _ _ => trivial
  | dealerOnboarding applicationId documents =>
    refine Protocol.ensures_discard.mpr (ensures_drawsRun (by decide) ?_ (fun runId =>
      only_ainvoke (DealerOnboarding.only_body fleet.py fleet.dealer _ none) _) hand)
    exact fun _ _ => (Prog.only_ofExcept _).bind fun _ => trivial
  | insightsPublisher =>
    refine Protocol.ensures_discard.mpr (ensures_drawsRun (by decide) ?_ (fun runId =>
      only_ainvoke (InsightsPublisher.only_body fleet.py fleet.insights _ none) _) hand)
    exact fun _ _ => trivial
  | email body => exact Protocol.ensures_discard.mpr (ensures_drawsEmail body hand)

/-- A decision leads to one status. -/
theorem decidedStatus_inj {approved approved' : Bool} (h : decidedStatus approved = decidedStatus approved') :
    approved = approved' := by
  cases approved <;> cases approved' <;> first | rfl | exact absurd h (by decide)

/-- The handler of the recipes sends the e-mail of the row that was approved. -/
theorem ensures_sendsOnce {row : ApprovalRow} {approved : Bool} : (handProtocol fleet).Ensures (fun _ _ => True)
    (resumeAutomationRecipe fleet row.runId approved) (.started recipeAgentName row approved) := by
  rw [resumeAutomationRecipe]
  cases approved with
  | false => trivial
  | true =>
    apply ensures_plain_bind (show Free (.findApprovalByRun row.runId) from trivial) (by simp) (fun _ => trivial)
    intro found hfound
    obtain rfl : found = some row := hfound row rfl rfl
    show Protocol.Ensures _ _ (performRecipeStep fleet row.runId row) _
    rw [performRecipeStep]
    split
    · rename_i haction
      apply ensures_plain_bind (show Free (.enter ⟨recipeAgentName, row.runId⟩ "email.send") from trivial) (by simp)
        (fun _ => trivial)
      rintro - -
      apply Protocol.ensures_ofExcept_bind (fun _ _ => trivial)
      rintro ⟨recipient, subject, body⟩ htexts
      show Protocol.Ensures _ _ (emailSendTool _ _ _ _ _ >>= fun _ => _) _
      rw [emailSendTool]
      split
      · rename_i hallowed
        apply Protocol.ensures_call_bind
        · exact fun _ _ => ⟨row, rfl, rfl, haction, recipient, subject, body, htexts, hallowed, rfl⟩
        · intro reply hand _
          cases reply <;> trivial
      · trivial
    · trivial

/-- A decision starts the handler of the row that it decided. -/
theorem ensures_startsOnce (agentName : String) (row : ApprovalRow) (approved : Bool) :
    (handProtocol fleet).Ensures (fun _ _ => True) (carryOut fleet agentName row.runId approved) (.settled row approved) := by
  rw [carryOut]
  cases hresumer : resumerOf fleet row.runId approved agentName with
  | none => trivial
  | some resumer =>
    apply Protocol.ensures_call_bind
    · exact ⟨row, rfl, rfl⟩
    rintro (error | started) hand ⟨-, row', hsame, hand_eq⟩
    · trivial
    · cases hsame
      subst hand_eq
      by_cases hname : agentName = recipeAgentName
      · subst hname
        rcases resumer_cases fleet row.runId approved hresumer with ⟨hname, -⟩ | ⟨hname, -⟩ | ⟨hname, -⟩ | ⟨hname, -⟩ | ⟨-, rfl⟩
        · exact absurd hname (by decide)
        · exact absurd hname (by decide)
        · exact absurd hname (by decide)
        · exact absurd hname (by decide)
        · exact ensures_sendsOnce
      · exact ensures_free ((only_resumerOf fleet row.runId approved hresumer).mono fun _ hc => (free_resumeCall hname hc).1) _

/-- A decision is committed once, and carried out once. -/
theorem ensures_decidesOnce (approvalId : ℕ) (body : DecisionIn) (sub : String) :
    (handProtocol fleet).Ensures (fun _ _ => True) (decideApproval fleet approvalId body sub) .empty := by
  rw [decideApproval]
  split
  · trivial
  · have hpending : (pendingApproval approvalId).Only fun c => Free c ∧ c ≠ .uuid4 := by
      apply Prog.Only.bind
      · exact Prog.only_call ⟨trivial, by simp⟩
      · rintro (_ | row)
        · trivial
        · show Prog.Only _ (if _ then _ else _)
          split <;> trivial
    apply Protocol.ensures_bind.mpr
    apply (ensures_plain hpending).mono
    rintro (error | approval) _ rfl
    · trivial
    · have hagent : (resumableAgent fleet approval).Only fun c => Free c ∧ c ≠ .uuid4 := by
        apply Prog.Only.bind
        · exact Prog.only_call ⟨trivial, by simp⟩
        · rintro (_ | agent)
          · trivial
          · show Prog.Only _ (if _ then _ else _)
            split <;> trivial
      apply Protocol.ensures_bind.mpr
      apply (ensures_plain hagent).mono
      rintro (error | agentName) _ rfl
      · trivial
      · apply Protocol.ensures_call_bind
        · exact ⟨rfl, body.approves, rfl⟩
        rintro (error | committed) hand ⟨-, hmoves⟩
        · trivial
        · obtain ⟨row, approved, rfl, hid, hstatus⟩ := hmoves
          obtain rfl := decidedStatus_inj hstatus
          apply Protocol.ensures_bind.mpr
          apply ensures_plain_bind (show Free (.getApproval approval.id) from trivial) (by simp) (fun _ => trivial)
          intro found hfound
          obtain rfl : found = some row := hfound row rfl hid.symm
          apply Protocol.ensures_bind.mpr
          apply (ensures_startsOnce agentName row body.approves).mono
          intro result hand _
          cases result <;> trivial

/-- Every request keeps to the protocol. -/
theorem ensures_apiRequest (request : ApiRequest) :
    (handProtocol fleet).Ensures (fun _ _ => True) (request.task fleet) .empty := by
  have haloof {α : Type} {p : Coroutine α} (hp : p.Only Aloof) :
      (handProtocol fleet).Ensures (fun _ _ => True) p .empty := ensures_free (hp.mono fun _ => Aloof.free) _
  have hfound {α : Type} {p : Coroutine α} (hp : p.Only Free) :
      (handProtocol fleet).Ensures (fun _ _ => True) (discard p) .empty :=
    Protocol.ensures_discard.mpr (ensures_free hp _)
  have hvalid (body : AgentIn) : (validate body).Only Free := by
    rw [validate]
    split <;> trivial
  have hrefresh (id : ℕ) : (refreshAgent id).Only Free := by
    apply (Prog.only_call trivial).bind
    intro found
    cases found <;> trivial
  have hagent (id : ℕ) : (agentOr404 id).Only Free := (aloof_agentOr404 id).mono fun _ => Aloof.free
  cases request with
  | usual request =>
    cases request with
    | file filing => exact ensures_drawsFiling filing .empty
    | decide approvalId body sub => exact Protocol.ensures_discard.mpr (ensures_decidesOnce approvalId body sub)
    | checkListing body => exact Protocol.ensures_discard.mpr (haloof (aloof_startListingQuality fleet body))
    | reviewContract contractText => exact Protocol.ensures_discard.mpr (haloof (aloof_startLegalReview fleet contractText))
    | runAgent agentName question => exact Protocol.ensures_discard.mpr (haloof (aloof_agentRun fleet agentName question))
    | sendMessage killswitch conversationId content sub =>
      exact haloof (aloof_sendMessage fleet killswitch conversationId content sub)
    | pauseAgent agentId => exact haloof (aloof_pauseAgent agentId)
    | resumeAgent agentId => exact haloof (aloof_resumeAgent agentId)
    | setGlobalReadOnly enabled => exact haloof (Prog.only_call trivial)
  | createAgent body =>
    apply hfound
    apply (hvalid body).bind
    intro _
    apply (Prog.only_call trivial).bind
    rintro (_ | taken)
    · exact (Prog.only_call trivial).bind fun _ => hrefresh _
    · trivial
  | updateAgent agentId body =>
    have hupdate (id : ℕ) : (await (.updateAgent id body)).Only Free := Prog.only_call trivial
    exact hfound ((hvalid body).bind fun _ => (hagent agentId).bind fun row => (hupdate row.id).bind fun _ => hrefresh _)
  | deleteAgent agentId =>
    have hdelete (id : ℕ) : (await (.deleteAgent id)).Only Free := Prog.only_call trivial
    exact ensures_free ((hagent agentId).bind fun row => hdelete row.id) _

end Requests

/-! ## The joint ledger -/

/-- What a request has in hand is as the stores and the log have it: a run id of no row, or a decided row with its life. -/
def Hand.Stands (w : World) (log : List CallEvent) : Hand → Prop
  | .empty => True
  | .drawn runId => Asker.Issued w runId ∧ ∀ id row, w.stores.approvals.row id = some row → row.runId ≠ runId
  | .settled row approved => w.stores.approvals.row row.id = some row ∧ ∃ draft id editedPayload sub time,
      row = decidedRow draft id editedPayload approved sub time ∧
        postingsOf row log = [.filed id draft, .decided id editedPayload (decidedStatus approved) sub]
  | .started agentName row approved => w.stores.approvals.row row.id = some row ∧ ∃ draft id editedPayload sub time,
      row = decidedRow draft id editedPayload approved sub time ∧ postingsOf row log = [.filed id draft,
        .decided id editedPayload (decidedStatus approved) sub, .started agentName draft.runId approved]

/-- The ledger, and what all requests have in hand: no two of them have the same run. -/
structure Booked (fleet : Fleet) (hands : ℕ → Hand) (w : World) (log : List CallEvent) : Prop where
  ledger : Ledger fleet w log
  issued : ∀ id row, w.stores.approvals.row id = some row → Asker.Issued w row.runId
  unique : ∀ id id' row row', w.stores.approvals.row id = some row → w.stores.approvals.row id' = some row' →
    row.runId = row'.runId → id = id'
  stands : ∀ task, (hands task).Stands w log
  apart : ∀ task other runId, (hands task).runId? = some runId → (hands other).runId? = some runId → task = other

section Joint

variable {fleet : Fleet} {hands : ℕ → Hand} {hand : Hand} {task : ℕ} {w w' : World} {log log' : List CallEvent}
  {row : ApprovalRow} {event : CallEvent} {posting : Posting} {env : Env}

/-- A log with one more event. -/
theorem postings_concat (log : List CallEvent) (event : CallEvent) :
    postings (log ++ [event]) = postings log ++ (postingOf event).toList := by
  rw [postings, List.filterMap_append, postings]
  cases h : postingOf event <;> simp [h]

/-- A log with one more event, and a row. -/
theorem postingsOf_concat (row : ApprovalRow) (log : List CallEvent) (event : CallEvent) :
    postingsOf row (log ++ [event]) = postingsOf row log ++ (postingOf event).toList.filter (Posting.about row) := by
  rw [postingsOf, postings_concat, List.filter_append, postingsOf]

/-- An event that is not about a row. -/
theorem postingsOf_other (h : postingOf event = some posting) (habout : posting.about row = false) :
    postingsOf row (log ++ [event]) = postingsOf row log := by
  rw [postingsOf_concat, h]
  simp [habout]

/-- An event that is about a row. -/
theorem postingsOf_about (h : postingOf event = some posting) (habout : posting.about row = true) :
    postingsOf row (log ++ [event]) = postingsOf row log ++ [posting] := by
  rw [postingsOf_concat, h]
  simp [habout]

/-- What a posting is about is told by the id and the run of a row. -/
theorem about_congr {row' : ApprovalRow} (hid : row'.id = row.id) (hrun : row'.runId = row.runId) (posting : Posting) :
    posting.about row' = posting.about row := by
  cases posting <;> simp [Posting.about, hid, hrun]

/-- Two rows that a posting is about have the same id or the same run. -/
theorem about_same {other : ApprovalRow} (h : posting.about row = true) (h' : posting.about other = true) :
    other.id = row.id ∨ other.runId = row.runId := by
  cases posting <;> simp only [Posting.about, decide_eq_true_eq] at h h'
  · exact .inl (h'.symm.trans h)
  · exact .inl (h'.symm.trans h)
  · exact .inr (h'.symm.trans h)
  · exact .inr (h'.symm.trans h)

/-- Free calls post nothing. -/
theorem postingOf_free {c : Call} (hc : Free c) (reply : Except Exc (Reply c)) : postingOf ⟨c, reply⟩ = none := by
  cases c with
  | tool caller tool args =>
    rw [postingOf, if_neg]
    exact fun hsent => hc hsent.1 hsent.2
  | insertApproval => exact hc.elim
  | commitDecision => exact hc.elim
  | resumeStarted => exact hc.elim
  | _ => rfl

/-- The run in hand was issued. -/
theorem Booked.issued_hand (h : Booked fleet hands w log) {runId : String} (hrun : (hands task).runId? = some runId) :
    Asker.Issued w runId := by
  have hstands := h.stands task
  cases hhand : hands task with
  | empty =>
    rw [hhand] at hrun
    cases hrun
  | drawn drawnId =>
    rw [hhand] at hrun hstands
    cases hrun
    exact hstands.1
  | settled row approved =>
    rw [hhand] at hrun hstands
    cases hrun
    exact h.issued _ _ hstands.1
  | started agentName row approved =>
    rw [hhand] at hrun hstands
    cases hrun
    exact h.issued _ _ hstands.1

/-- A row in hand is stored and decided. -/
theorem Hand.Stands.held (h : hand.Stands w log) (hrow : hand.row? = some row) :
    w.stores.approvals.row row.id = some row ∧ row.status ≠ "pending" ∧ hand.runId? = some row.runId := by
  cases hand with
  | empty => cases hrow
  | drawn runId => cases hrow
  | settled row' approved =>
    cases hrow
    obtain ⟨hstored, draft, id, editedPayload, sub, time, hrow, -⟩ := h
    refine ⟨hstored, ?_, rfl⟩
    rw [hrow]
    exact decidedStatus_ne approved
  | started agentName row' approved =>
    cases hrow
    obtain ⟨hstored, draft, id, editedPayload, sub, time, hrow, -⟩ := h
    refine ⟨hstored, ?_, rfl⟩
    rw [hrow]
    exact decidedStatus_ne approved

/-- What is in hand stands on where its row and its life do. -/
theorem Hand.Stands.frame (h : hand.Stands w log) (huuids : w.stores.uuids ≤ w'.stores.uuids)
    (hrowless : ∀ runId, hand = .drawn runId → ∀ id row, w'.stores.approvals.row id = some row → row.runId ≠ runId)
    (hrows : ∀ row, hand.row? = some row →
      w'.stores.approvals.row row.id = some row ∧ postingsOf row log' = postingsOf row log) : hand.Stands w' log' := by
  cases hand with
  | empty => trivial
  | drawn runId =>
    obtain ⟨⟨n, hn, hrun⟩, -⟩ := h
    exact ⟨⟨n, Nat.lt_of_lt_of_le hn huuids, hrun⟩, hrowless runId rfl⟩
  | settled row approved =>
    obtain ⟨hstored, hlife⟩ := hrows row rfl
    obtain ⟨-, draft, id, editedPayload, sub, time, hrow, hpostings⟩ := h
    exact ⟨hstored, draft, id, editedPayload, sub, time, hrow, hlife.trans hpostings⟩
  | started agentName row approved =>
    obtain ⟨hstored, hlife⟩ := hrows row rfl
    obtain ⟨-, draft, id, editedPayload, sub, time, hrow, hpostings⟩ := h
    exact ⟨hstored, draft, id, editedPayload, sub, time, hrow, hlife.trans hpostings⟩

/-- A pending row is in no hand. -/
theorem Booked.pending_apart (h : Booked fleet hands w log) {id : ℕ} (hrow : w.stores.approvals.row id = some row)
    (hpending : row.status = "pending") : (hands task).runId? ≠ some row.runId := by
  intro hrun
  have hstands := h.stands task
  cases hheld : (hands task).row? with
  | none =>
    cases hhand : hands task with
    | drawn runId =>
      rw [hhand] at hrun hstands
      cases hrun
      exact hstands.2 id row hrow rfl
    | _ => rw [hhand] at hrun hheld; first | cases hrun | cases hheld
  | some held =>
    obtain ⟨hstored, hstatus, hsame⟩ := hstands.held hheld
    have hid := h.unique _ _ _ _ hrow hstored (Option.some.inj (hrun.symm.trans hsame))
    rw [hid] at hrow
    rw [hrow] at hstored
    exact hstatus (Option.some.inj hstored ▸ hpending)

/-- A row in hand is in no other hand. -/
theorem Booked.held_apart (h : Booked fleet hands w log) (hheld : (hands task).row? = some row) (other : ℕ)
    (hother : other ≠ task) : (hands other).runId? ≠ some row.runId := fun hrun =>
  hother (h.apart other task row.runId hrun ((h.stands task).held hheld).2.2)

/-- Hands are apart after one of them moves to a run that no other has. -/
theorem Booked.apart_update (h : Booked fleet hands w log) (hapart : ∀ other runId, other ≠ task →
    hand.runId? = some runId → (hands other).runId? ≠ some runId) (first second : ℕ) (runId : String)
    (hfirst : (Function.update hands task hand first).runId? = some runId)
    (hsecond : (Function.update hands task hand second).runId? = some runId) : first = second := by
  by_cases hone : first = task <;> by_cases htwo : second = task
  · rw [hone, htwo]
  · rw [hone, Function.update_self] at hfirst
    rw [Function.update_of_ne htwo] at hsecond
    exact absurd hsecond (hapart second runId htwo hfirst)
  · rw [htwo, Function.update_self] at hsecond
    rw [Function.update_of_ne hone] at hfirst
    exact absurd hfirst (hapart first runId hone hsecond)
  · rw [Function.update_of_ne hone] at hfirst
    rw [Function.update_of_ne htwo] at hsecond
    exact h.apart first second runId hfirst hsecond

/-- The ledger stands on where nothing is filed, decided, started or mailed. -/
theorem Ledger.still (h : Ledger fleet w log) (happrovals : w'.stores.approvals = w.stores.approvals)
    (hpostings : postings log' = postings log) : Ledger fleet w' log' where
  lives id row hrow := by
    rw [happrovals] at hrow
    rw [postingsOf, hpostings]
    exact h.lives id row hrow
  covered posting hposting := by
    rw [hpostings] at hposting
    rw [happrovals]
    exact h.covered posting hposting

/-- One request moves what it has in hand, where nothing is filed, decided, started or mailed. -/
theorem Booked.still (h : Booked fleet hands w log) (happrovals : w'.stores.approvals = w.stores.approvals)
    (huuids : w.stores.uuids ≤ w'.stores.uuids) (hpostings : postings log' = postings log) (hand : Hand)
    (hstands : hand.Stands w' log') (hapart : ∀ other runId, other ≠ task → hand.runId? = some runId →
      (hands other).runId? ≠ some runId) : Booked fleet (Function.update hands task hand) w' log' where
  ledger := h.ledger.still happrovals hpostings
  issued id row hrow := by
    rw [happrovals] at hrow
    obtain ⟨n, hn, hrun⟩ := h.issued id row hrow
    exact ⟨n, Nat.lt_of_lt_of_le hn huuids, hrun⟩
  unique := by
    rw [happrovals]
    exact h.unique
  stands other := by
    by_cases hother : other = task
    · rw [hother, Function.update_self]
      exact hstands
    · rw [Function.update_of_ne hother]
      apply (h.stands other).frame huuids
      · intro runId hhand
        have hothers := h.stands other
        rw [hhand] at hothers
        rw [happrovals]
        exact hothers.2
      · intro row hrow
        rw [happrovals, postingsOf, hpostings]
        exact ⟨((h.stands other).held hrow).1, rfl⟩
  apart := h.apart_update hapart

/-- A row is written under a run id that no other row has, and the other rows stay. -/
structure Writes (w w' : World) (row : ApprovalRow) : Prop where
  rows : ∀ id, w'.stores.approvals.row id = if id = row.id then some row else w.stores.approvals.row id
  uuids : w'.stores.uuids = w.stores.uuids
  run : ∀ before, w.stores.approvals.row row.id = some before → before.runId = row.runId
  issued : Asker.Issued w row.runId
  unique : ∀ id other, w.stores.approvals.row id = some other → other.runId = row.runId → id = row.id

/-- A row in hand that is stored as it is. -/
theorem Booked.writes_same (h : Booked fleet hands w log) (hheld : (hands task).row? = some row)
    (hstores : w'.stores = w.stores) : Writes w w' row := by
  obtain ⟨hstored, -, hrun⟩ := (h.stands task).held hheld
  refine ⟨fun id => ?_, by rw [hstores], fun before hbefore => ?_, h.issued_hand hrun, fun id other hother hsame => ?_⟩
  · rw [hstores]
    split
    · rename_i hid
      rw [hid, hstored]
    · rfl
  · rw [Option.some.inj (hbefore.symm.trans hstored)]
  · exact h.unique _ _ _ _ hother hstored hsame

/-- The rows that are stored after a row is written, and their runs. -/
theorem Writes.before (h : Writes w w' row) {id : ℕ} {after : ApprovalRow} (hafter : w'.stores.approvals.row id = some after) :
    after = row ∧ id = row.id ∨ w.stores.approvals.row id = some after ∧ id ≠ row.id := by
  rw [h.rows] at hafter
  split at hafter
  · exact .inl ⟨(Option.some.inj hafter).symm, ‹_›⟩
  · exact .inr ⟨hafter, ‹_›⟩

/-- What is posted about a row that is written is not about the other rows. -/
theorem Writes.other (h : Writes w w' row) (habout : posting.about row = true) {id : ℕ} {other : ApprovalRow}
    (hother : w.stores.approvals.row id = some other) (hne : id ≠ row.id) : posting.about other = false := by
  rw [Bool.eq_false_iff]
  intro hconcerns
  rcases about_same habout hconcerns with hid | hrun
  · exact hne ((w.stores.approvals.keyed id other hother).symm.trans hid)
  · exact hne (h.unique id other hother hrun)

/-- The ledger goes on where a row is written, with its life. -/
theorem Ledger.write (h : Ledger fleet w log) (hwrites : Writes w w' row) (hposting : postingOf event = some posting)
    (habout : posting.about row = true) (hlife : Life fleet row (postingsOf row (log ++ [event]))) :
    Ledger fleet w' (log ++ [event]) := by
  have hrow : w'.stores.approvals.row row.id = some row := by rw [hwrites.rows, if_pos rfl]
  constructor
  · intro id after hafter
    rcases hwrites.before hafter with ⟨rfl, -⟩ | ⟨hsame, hne⟩
    · exact hlife
    · rw [postingsOf_other hposting (hwrites.other habout hsame hne)]
      exact h.lives id after hsame
  · intro told htold
    rw [postings_concat, hposting, List.mem_append] at htold
    rcases htold with hold | hnew
    · obtain ⟨id, before, hbefore, htells⟩ := h.covered told hold
      by_cases hid : id = row.id
      · rw [hid] at hbefore
        have hkey := w.stores.approvals.keyed _ _ hbefore
        exact ⟨row.id, row, hrow, (about_congr hkey.symm (hwrites.run before hbefore).symm told).trans htells⟩
      · exact ⟨id, before, by rw [hwrites.rows, if_neg hid, hbefore], htells⟩
    · obtain rfl : told = posting := by simpa using hnew
      exact ⟨row.id, row, hrow, habout⟩

/-- A row is written that no other request has in hand. -/
theorem Booked.write (h : Booked fleet hands w log) (hwrites : Writes w w' row) (hposting : postingOf event = some posting)
    (habout : posting.about row = true) (hlife : Life fleet row (postingsOf row (log ++ [event])))
    (hothers : ∀ other, other ≠ task → (hands other).runId? ≠ some row.runId) (hand : Hand)
    (hstands : hand.Stands w' (log ++ [event])) (hkeeps : ∀ runId, hand.runId? = some runId → runId = row.runId) :
    Booked fleet (Function.update hands task hand) w' (log ++ [event]) where
  ledger := h.ledger.write hwrites hposting habout hlife
  issued id after hafter := by
    have hissued : Asker.Issued w after.runId := by
      rcases hwrites.before hafter with ⟨rfl, -⟩ | ⟨hsame, -⟩
      · exact hwrites.issued
      · exact h.issued id after hsame
    obtain ⟨n, hn, hrepr⟩ := hissued
    exact ⟨n, by rw [hwrites.uuids]; exact hn, hrepr⟩
  unique id id' after after' hafter hafter' hrun := by
    rcases hwrites.before hafter with ⟨rfl, rfl⟩ | ⟨hsame, -⟩ <;> rcases hwrites.before hafter' with ⟨rfl, rfl⟩ | ⟨hsame', -⟩
    · rfl
    · exact (hwrites.unique id' after' hsame' hrun.symm).symm
    · exact hwrites.unique id after hsame hrun
    · exact h.unique id id' after after' hsame hsame' hrun
  stands other := by
    by_cases hother : other = task
    · rw [hother, Function.update_self]
      exact hstands
    · rw [Function.update_of_ne hother]
      have hstood := h.stands other
      apply hstood.frame (Nat.le_of_eq hwrites.uuids.symm)
      · intro runId hdrawn id after hafter
        rcases hwrites.before hafter with ⟨rfl, -⟩ | ⟨hsame, -⟩
        · rintro rfl
          exact hothers other hother (by rw [hdrawn]; rfl)
        · rw [hdrawn] at hstood
          exact hstood.2 id after hsame
      · intro held hheld
        obtain ⟨hstored, -, hrun⟩ := hstood.held hheld
        have hne : held.id ≠ row.id := by
          intro hid
          rw [hid] at hstored
          exact hothers other hother (by rw [hrun, hwrites.run held hstored])
        exact ⟨by rw [hwrites.rows, if_neg hne, hstored], postingsOf_other hposting (hwrites.other habout hstored hne)⟩
  apart := by
    apply h.apart_update
    intro other runId hother hrun hsame
    rw [hkeeps runId hrun] at hsame
    exact hothers other hother hsame

/-! ## One call -/

/-- The one row of a run is found by the run. -/
theorem found_of_unique {runId : String} {found : Option ApprovalRow}
    (hanswer : w.answer env (.findApprovalByRun runId) = (w', .ok found)) (hrow : w.stores.approvals.row row.id = some row)
    (hrun : row.runId = runId)
    (hunique : ∀ id other, w.stores.approvals.row id = some other → other.runId = runId → id = row.id) : found = some row := by
  have hspec := congrArg Prod.snd (World.answer_spec hanswer).2
  have hmem : row ∈ w.stores.approvals.rows.filter fun row => row.runId = runId := by
    rw [List.mem_filter]
    exact ⟨w.stores.approvals.mem_rows.mpr ⟨row.id, hrow⟩, by simpa using hrun⟩
  cases hgiven : env.given w.tick (.findApprovalByRun runId) with
  | error error =>
    rw [hgiven] at hspec
    cases hspec
  | ok value =>
    rw [hgiven] at hspec
    simp only [Stores.respond] at hspec
    split at hspec
    · rename_i hnone
      rw [hnone] at hmem
      cases hmem
    · rename_i other hone
      cases hspec
      have hother : other ∈ w.stores.approvals.rows.filter fun row => row.runId = runId := by
        rw [hone]
        exact List.mem_singleton_self other
      obtain ⟨hrows, hsame⟩ := List.mem_filter.mp hother
      obtain ⟨id, hstored⟩ := w.stores.approvals.mem_rows.mp hrows
      have hid := hunique id other hstored (by simpa using hsame)
      rw [hid, hrow] at hstored
      exact hstored.symm
    · cases hspec

/-- The row in hand is read as it is in hand. -/
theorem Booked.reads (h : Booked fleet hands w log) (task : ℕ) {c : Call} {reply : Except Exc (Reply c)}
    (hanswer : w.answer env c = (w', reply)) : (hands task).Reads c reply := by
  cases c with
  | getApproval id =>
    cases reply with
    | error error => trivial
    | ok found =>
      rintro row hheld rfl
      rw [(World.answer_getApproval hanswer).2 found rfl]
      exact ((h.stands task).held hheld).1
  | findApprovalByRun runId =>
    cases reply with
    | error error => trivial
    | ok found =>
      rintro row hheld rfl
      have hstored := ((h.stands task).held hheld).1
      exact found_of_unique hanswer hstored rfl fun id other hother hrun => h.unique _ _ _ _ hother hstored hrun
  | _ => trivial

/-- What a call makes of the hands, the stores and the log. -/
def Booked.Moved (fleet : Fleet) (hands : ℕ → Hand) (task : ℕ) (w' : World) (log : List CallEvent) (c : Call)
    (reply : Except Exc (Reply c)) : Prop :=
  ∃ hand, (handProtocol fleet).answers (hands task) c reply hand ∧
    Booked fleet (Function.update hands task hand) w' (log ++ [⟨c, reply⟩])

/-- A free call leaves what is in hand, but a new run id is taken in hand. -/
theorem Booked.free (h : Booked fleet hands w log) {c : Call} (hc : Free c) {reply : Except Exc (Reply c)}
    (hanswer : w.answer env c = (w', reply)) : Booked.Moved fleet hands task w' log c reply := by
  have hspec := (World.answer_spec hanswer).2
  have hanswered : (w.stores.respond (env.now w.tick) c (env.given w.tick c)).1 = w'.stores := congrArg Prod.fst hspec
  have hpostings : postings (log ++ [⟨c, reply⟩]) = postings log := by
    rw [postings_concat, postingOf_free hc]
    exact List.append_nil _
  have happrovals : w'.stores.approvals = w.stores.approvals := by
    have hwrites : ¬ Stores.WritesApprovals c := by
      intro hwrites
      cases c <;> first | exact hc.elim | exact hwrites.elim
    rw [← hanswered, Stores.respond_approvals hwrites]
  have huuids : w.stores.uuids ≤ w'.stores.uuids := by
    rw [← hanswered]
    exact Asker.respond_uuids _ _ _ _
  by_cases hid : c = .uuid4
  · subst hid
    obtain ⟨hstores, rfl⟩ := Prod.mk.inj hspec
    refine ⟨.drawn (Nat.repr w.stores.uuids), ⟨trivial, rfl⟩, h.still happrovals huuids hpostings _ ⟨?_, ?_⟩ ?_⟩
    · refine ⟨w.stores.uuids, ?_, rfl⟩
      rw [← hstores]
      exact Nat.lt_succ_self _
    · intro id row hrow hrun
      rw [happrovals] at hrow
      exact Asker.not_issued_next w (hrun ▸ h.issued id row hrow)
    · rintro other runId - hrunId hother
      cases hrunId
      exact Asker.not_issued_next w (h.issued_hand hother)
  · have hmoves : (hands task).Moves c reply (hands task) := (hc.moves_iff hid reply (hands task)).mpr rfl
    refine ⟨hands task, ⟨h.reads task hanswer, hmoves⟩, h.still happrovals huuids hpostings _ ?_ ?_⟩
    · apply (h.stands task).frame huuids
      · intro runId hhand
        have hstands := h.stands task
        rw [hhand] at hstands
        rw [happrovals]
        exact hstands.2
      · intro row hheld
        rw [happrovals, postingsOf, hpostings]
        exact ⟨((h.stands task).held hheld).1, rfl⟩
    · intro other runId hother hrunId hsame
      exact hother (h.apart other task runId hsame hrunId)

/-- What leaves the stores and posts nothing empties a hand. -/
theorem Booked.dropped (h : Booked fleet hands w log) (hstores : w'.stores = w.stores) (hposting : postingOf event = none) :
    Booked fleet (Function.update hands task .empty) w' (log ++ [event]) := by
  refine h.still (by rw [hstores]) (by rw [hstores]) ?_ .empty trivial ?_
  · rw [postings_concat, hposting]
    exact List.append_nil _
  · intro other runId _ hrun
    cases hrun

/-- Nothing is told of an id and a run that no row has. -/
theorem Ledger.blank (h : Ledger fleet w log) (hid : w.stores.approvals.row row.id = none)
    (hrun : ∀ id other, w.stores.approvals.row id = some other → other.runId ≠ row.runId) : postingsOf row log = [] := by
  rw [postingsOf, List.filter_eq_nil_iff]
  intro posting hposting hconcerns
  obtain ⟨id, other, hother, habout⟩ := h.covered posting hposting
  rcases about_same hconcerns habout with hsame | hsame
  · rw [← hsame, w.stores.approvals.keyed id other hother, hother] at hid
    cases hid
  · exact hrun id other hother hsame

/-- A pending row was filed, and nothing more. -/
theorem Life.pending {told : List Posting} (h : Life fleet row told) (hpending : row.status = "pending") :
    ∃ draft id, row = draft.row id ∧ told = [.filed id draft] := by
  cases h with
  | waits draft id => exact ⟨draft, id, rfl, rfl⟩
  | decided => exact absurd hpending (decidedStatus_ne _)
  | started => exact absurd hpending (decidedStatus_ne _)
  | mailed => exact absurd hpending (decidedStatus_ne true)

/-- Filing under the run id in hand. -/
theorem Booked.file (h : Booked fleet hands w log) {draft : ApprovalDraft} (hhand : hands task = .drawn draft.runId)
    {reply : Except Exc ApprovalRow} (hanswer : w.answer env (.insertApproval draft) = (w', reply)) :
    Booked.Moved fleet hands task w' log (.insertApproval draft) reply := by
  refine ⟨.empty, ⟨trivial, rfl⟩, ?_⟩
  have hspec := (World.answer_spec hanswer).2
  have hstands := h.stands task
  rw [hhand] at hstands
  obtain ⟨hissued, hrowless⟩ := hstands
  cases hgiven : env.given w.tick (.insertApproval draft) with
  | error error =>
    rw [hgiven] at hspec
    obtain ⟨hstores, rfl⟩ := Prod.mk.inj hspec
    exact h.dropped hstores.symm rfl
  | ok value =>
    rw [hgiven] at hspec
    simp only [Stores.respond] at hspec
    split at hspec
    · obtain ⟨hstores, rfl⟩ := Prod.mk.inj hspec
      have hwrites : Writes w w' (draft.row w.stores.approvals.next) := by
        refine ⟨fun id => ?_, by rw [← hstores], fun before hbefore => ?_, hissued, fun id other hother hrun => ?_⟩
        · rw [← hstores]
          exact Table.row_insert _ _ (draft.row_id _) _
        · rw [draft.row_id, w.stores.approvals.row_next] at hbefore
          cases hbefore
        · exact absurd hrun (hrowless id other hother)
      have hposting : postingOf ⟨.insertApproval draft, .ok (draft.row w.stores.approvals.next)⟩ =
          some (.filed w.stores.approvals.next draft) := rfl
      have habout : Posting.about (draft.row w.stores.approvals.next) (.filed w.stores.approvals.next draft) = true := by
        simp [Posting.about, ApprovalDraft.row]
      apply h.write hwrites hposting habout
      · rw [postingsOf_about hposting habout, h.ledger.blank w.stores.approvals.row_next hrowless]
        exact .waits draft _
      · intro other hother hrun
        exact hother (h.apart other task draft.runId hrun (by rw [hhand]; rfl))
      · trivial
      · intro runId hrun
        cases hrun
    · obtain ⟨hstores, rfl⟩ := Prod.mk.inj hspec
      exact h.dropped hstores.symm rfl

/-- Committing a decision onto a pending row. -/
theorem Booked.decide (h : Booked fleet hands w log) (hhand : hands task = .empty) {id : ℕ} {editedPayload : Option Dict}
    {approved : Bool} {sub : String} (hpending : ∀ row, w.stores.approvals.row id = some row → row.status = "pending")
    {reply : Except Exc Unit}
    (hanswer : w.answer env (.commitDecision id editedPayload (decidedStatus approved) sub) = (w', reply)) :
    Booked.Moved fleet hands task w' log (.commitDecision id editedPayload (decidedStatus approved) sub) reply := by
  rcases World.answer_commitDecision hanswer with ⟨⟨error, rfl⟩, hstores⟩ | ⟨rfl, row, time, hrow, hstores, hdecided⟩
  · exact ⟨.empty, ⟨trivial, hhand.symm⟩, h.dropped hstores rfl⟩
  · have hstatus := hpending row hrow
    have hid : row.id = id := w.stores.approvals.keyed id row hrow
    obtain ⟨draft, id', rfl, hfiled⟩ := (h.ledger.lives id row hrow).pending hstatus
    obtain rfl : id' = id := hid
    have hwrites : Writes w w' (decidedRow draft id' editedPayload approved sub time) := by
      refine ⟨fun other => ?_, by rw [hstores], fun before hbefore => ?_, ?_, fun other row hother hrun => ?_⟩
      · rw [hstores]
        simp only [Table.row_update, hrow, Option.map_some]
        rfl
      · rw [← Option.some.inj (hrow.symm.trans hbefore)]
        rfl
      · show Asker.Issued w (draft.row id').runId
        exact h.issued id' _ hrow
      · exact h.unique _ _ _ _ hother hrow hrun
    have hposting : postingOf ⟨.commitDecision id' editedPayload (decidedStatus approved) sub, .ok ()⟩ =
        some (.decided id' editedPayload (decidedStatus approved) sub) := rfl
    have habout : Posting.about (decidedRow draft id' editedPayload approved sub time)
        (.decided id' editedPayload (decidedStatus approved) sub) = true := by
      simp [Posting.about, decidedRow, ApprovalRow.decided, ApprovalDraft.row]
    have htold : postingsOf (decidedRow draft id' editedPayload approved sub time)
        (log ++ [⟨.commitDecision id' editedPayload (decidedStatus approved) sub, .ok ()⟩]) =
        [.filed id' draft, .decided id' editedPayload (decidedStatus approved) sub] := by
      have hsame : postingsOf (decidedRow draft id' editedPayload approved sub time) log = postingsOf (draft.row id') log :=
        congrArg (fun about => (postings log).filter about) (funext fun posting => about_congr rfl rfl posting)
      rw [postingsOf_about hposting habout, hsame, hfiled]
      rfl
    refine ⟨.settled (decidedRow draft id' editedPayload approved sub time) approved, ⟨trivial, _, _, rfl, rfl, rfl⟩, ?_⟩
    apply h.write hwrites hposting habout
    · rw [htold]
      exact .decided draft id' editedPayload approved sub time
    · intro other _
      show (hands other).runId? ≠ some (draft.row id').runId
      exact h.pending_apart hrow hstatus
    · exact ⟨hdecided, draft, id', editedPayload, sub, time, rfl, htold⟩
    · rintro runId hrun
      exact (Option.some.inj hrun).symm

/-- Starting the handler of the decision in hand. -/
theorem Booked.start (h : Booked fleet hands w log) {approved : Bool} (hhand : hands task = .settled row approved)
    {agentName : String} {reply : Except Exc Unit}
    (hanswer : w.answer env (.resumeStarted agentName row.runId approved) = (w', reply)) :
    Booked.Moved fleet hands task w' log (.resumeStarted agentName row.runId approved) reply := by
  have hstores : w'.stores = w.stores := (congrArg Prod.fst (World.answer_spec hanswer).2).symm
  have hstands := h.stands task
  rw [hhand] at hstands
  obtain ⟨hstored, draft, id, editedPayload, sub, time, rfl, hfiled⟩ := hstands
  have hposting : postingOf ⟨.resumeStarted agentName draft.runId approved, reply⟩ =
      some (.started agentName draft.runId approved) := rfl
  have habout : Posting.about (decidedRow draft id editedPayload approved sub time)
      (.started agentName draft.runId approved) = true := by
    simp [Posting.about, decidedRow, ApprovalRow.decided, ApprovalDraft.row]
  have hheld : (hands task).row? = some (decidedRow draft id editedPayload approved sub time) := by
    rw [hhand]
    rfl
  refine ⟨.started agentName (decidedRow draft id editedPayload approved sub time) approved, ⟨trivial, _, hhand, rfl⟩, ?_⟩
  apply h.write (h.writes_same hheld hstores) hposting habout
  · rw [postingsOf_about hposting habout, hfiled]
    exact .started draft id editedPayload approved sub time agentName
  · exact h.held_apart hheld
  · refine ⟨by rw [hstores]; exact hstored, draft, id, editedPayload, sub, time, rfl, ?_⟩
    rw [postingsOf_about hposting habout, hfiled]
    rfl
  · rintro runId hrun
    exact (Option.some.inj hrun).symm

/-- Sending the e-mail of the row in hand. -/
theorem Booked.mail (h : Booked fleet hands w log) (hhand : hands task = .started recipeAgentName row true) {args : Dict}
    (hmail : MailOf fleet row args) {reply : Except Exc Json}
    (hanswer : w.answer env (.tool ⟨recipeAgentName, row.runId⟩ emailSend args) = (w', reply)) :
    Booked.Moved fleet hands task w' log (.tool ⟨recipeAgentName, row.runId⟩ emailSend args) reply := by
  have hstores : w'.stores = w.stores := by
    have hspec : (w.stores.respond (env.now w.tick) _ (env.given w.tick _)).1 = w'.stores :=
      congrArg Prod.fst (World.answer_spec hanswer).2
    rw [← hspec]
    cases env.given w.tick (.tool ⟨recipeAgentName, row.runId⟩ emailSend args) <;> rfl
  have hstands := h.stands task
  rw [hhand] at hstands
  obtain ⟨hstored, draft, id, editedPayload, sub, time, rfl, hfiled⟩ := hstands
  have hposting : postingOf ⟨.tool ⟨recipeAgentName, draft.runId⟩ emailSend args, reply⟩ = some (.mailed draft.runId args) := by
    rw [postingOf, if_pos ⟨rfl, rfl⟩]
  have habout : Posting.about (decidedRow draft id editedPayload true sub time) (.mailed draft.runId args) = true := by
    simp [Posting.about, decidedRow, ApprovalRow.decided, ApprovalDraft.row]
  have hheld : (hands task).row? = some (decidedRow draft id editedPayload true sub time) := by
    rw [hhand]
    rfl
  refine ⟨.empty, ⟨trivial, ?_⟩, ?_⟩
  · rw [Hand.Moves, if_pos ⟨rfl, rfl⟩]
  · apply h.write (h.writes_same hheld hstores) hposting habout
    · rw [postingsOf_about hposting habout, hfiled]
      exact .mailed draft id editedPayload sub time args hmail
    · exact h.held_apart hheld
    · trivial
    · rintro runId hrun
      cases hrun

/-- Any call that a request may make, if a decision is committed onto a pending row. -/
theorem Booked.answer (h : Booked fleet hands w log) {c : Call} (hallowed : (handProtocol fleet).allowed (hands task) c)
    (hpending : ∀ id editedPayload status sub, c = .commitDecision id editedPayload status sub →
      ∀ row, w.stores.approvals.row id = some row → row.status = "pending")
    {reply : Except Exc (Reply c)} (hanswer : w.answer env c = (w', reply)) :
    Booked.Moved fleet hands task w' log c reply := by
  cases c with
  | insertApproval draft => exact h.file hallowed hanswer
  | commitDecision id editedPayload status sub =>
    obtain ⟨hhand, approved, rfl⟩ := hallowed
    exact h.decide hhand (hpending id _ _ _ rfl) hanswer
  | resumeStarted agentName runId approved =>
    obtain ⟨row, hhand, rfl⟩ := hallowed
    exact h.start hhand hanswer
  | tool caller tool args =>
    by_cases hsent : caller.agent = recipeAgentName ∧ tool = emailSend
    · obtain ⟨hname, rfl⟩ := hsent
      obtain ⟨row, hhand, hthread, hmail⟩ := hallowed hname rfl
      obtain rfl : caller = ⟨recipeAgentName, row.runId⟩ := by
        cases caller
        simp_all
      exact h.mail hhand hmail hanswer
    · refine h.free ?_ hanswer
      exact fun hname htool => hsent ⟨hname, htool⟩
  | _ =>
    refine h.free ?_ hanswer
    trivial

end Joint

/-! ## All requests -/

section Pool

variable {fleet : Fleet} {env : Env} {pool : Pool Call Reply Exc World ℕ}

/-- Every request keeps to the protocol of what it has in hand, and the ledger is kept. -/
def Tracked (fleet : Fleet) (pool : Pool Call Reply Exc World ℕ) : Prop :=
  ∃ hands, Pool.Follows (handProtocol fleet) hands pool ∧ Booked fleet hands pool.shared (logOf pool)

/-- A step that commits onto a pending row only keeps the ledger. -/
theorem Tracked.step (h : Tracked fleet pool) (task : ℕ) (hcommit : CommitsOnPending pool task) :
    Tracked fleet (pool.step (World.answer env) task) := by
  obtain ⟨hands, hfollows, hbooked⟩ := h
  rcases Pool.step_cases pool task with hsame | ⟨c, next, hawait⟩
  · exact ⟨hands, hsame.symm ▸ hfollows, hsame.symm ▸ hbooked⟩
  · have hpending (id : ℕ) (editedPayload : Option Dict) (status sub : String)
        (hc : c = .commitDecision id editedPayload status sub) (row : ApprovalRow)
        (hrow : pool.shared.stores.approvals.row id = some row) : row.status = "pending" := by
      subst hc
      rw [CommitsOnPending, Pool.pendingCall, hawait] at hcommit
      exact hcommit row hrow
    obtain ⟨hand, hanswers, hmoved⟩ := hbooked.answer (hfollows.allowed hawait) hpending
      (show pool.shared.answer env c = ((pool.shared.answer env c).1, (pool.shared.answer env c).2) from rfl)
    refine ⟨_, hfollows.step hawait hanswers, ?_⟩
    have hlog : logOf (pool.step (World.answer env) task) = logOf pool ++ [⟨c, (pool.shared.answer env c).2⟩] := by
      rw [Pool.step_await hawait, logOf, List.map_append]
      rfl
    rw [hlog, Pool.step_await hawait]
    exact hmoved

/-- At first nothing is in hand and no approval is stored. -/
theorem tracked_apiPool (fleet : Fleet) (requests : List ApiRequest) (agents : Table AgentRow AgentRow.id) :
    Tracked fleet (apiPool fleet requests agents) := by
  refine ⟨fun _ => .empty, ?_, ?_⟩
  · intro task
    simp only [apiPool]
    cases requests[task]? with
    | none => trivial
    | some request => exact ensures_apiRequest request
  · refine ⟨⟨fun id row hrow => ?_, fun posting hposting => ?_⟩, fun id row hrow => ?_, fun id id' row row' hrow => ?_,
      fun _ => trivial, fun task other runId hrun => ?_⟩
    · cases hrow
    · cases hposting
    · cases hrow
    · cases hrow
    · cases hrun

end Pool

/-- However requests to the API interleave at their calls, whatever they are answered and whichever calls fail, as long as
no decision is committed onto a decided row: every approval has a life, in which it is filed, decided once, handed to one
handler with that decision, and, when it was approved, sent as one e-mail with the texts that its row then has; and nothing
is filed, decided, started or sent that is not of a stored approval. -/
theorem approvals_live (fleet : Fleet) (env : Env) (agents : Table AgentRow AgentRow.id) (requests : List ApiRequest)
    (schedule : List ℕ)
    (hcommits : Pool.Along (World.answer env) CommitsOnPending (apiPool fleet requests agents) schedule) :
    Ledger fleet ((apiPool fleet requests agents).exec (World.answer env) schedule).shared
      (logOf ((apiPool fleet requests agents).exec (World.answer env) schedule)) := by
  obtain ⟨hands, -, hbooked⟩ := hcommits.invariant (fun _ task hpool hcommit => hpool.step task hcommit)
    (tracked_apiPool fleet requests agents)
  exact hbooked.ledger

/-- An e-mail is queued, one reviewer approves it with another text, and a second one rejects it. -/
def editedReminder : Pool Call Reply Exc World ℕ :=
  apiPool plainFleet [.usual (.file (.email reminder)),
    .usual (.decide 0 ⟨"approve", some [("to", .str "a@fleet.local"), ("subject", .str "t"), ("body", .str "c")]⟩ "a"),
    .usual (.decide 0 ⟨"reject", none⟩ "b")] (worldWith recipeAgentName).stores.agents

/-- The e-mail is filed, the first decision is carried out, and the second reviewer comes too late. -/
def reminderSchedule : List ℕ := List.replicate 4 0 ++ List.replicate 4 1 ++ List.replicate 2 2 ++ List.replicate 8 1

/-- The life of an e-mail that is edited, approved and sent. -/
theorem editedReminder_lives : Ledger plainFleet (editedReminder.exec (World.answer .calm) reminderSchedule).shared
      (logOf (editedReminder.exec (World.answer .calm) reminderSchedule)) ∧
    (postings (logOf (editedReminder.exec (World.answer .calm) reminderSchedule))).length = 4 :=
  ⟨approvals_live plainFleet .calm _ _ reminderSchedule (by decide), by decide⟩

end FleetWorkflow.Approvals
