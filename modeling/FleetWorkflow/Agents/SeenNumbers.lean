import FleetWorkflow.Agents.InvoiceAgent
import FleetWorkflow.Async.Crew

/-!
# Seen order numbers

Runs of the invoice agent with the sets of order numbers that they have seen. A run looks at its set when it starts to
validate an invoice, then waits for the purchase order, and adds the number when the look-up has come back; other runs may
do the same in between. A set may be shared by any runs.
-/

namespace FleetWorkflow.Agents.InvoiceAgent

open Python Async Core

/-! ## Runs with sets -/

/-- The calls of runs with sets: those of any run, a look at a set for a number, and the addition of a validated number
to a set, with the result of its validation. -/
inductive SeenCall (κ : Type) where
  | base (c : Call)
  | seen (set : κ) (poNumber : String)
  | add (set : κ) (poNumber : String) (result : ValidationResult)

/-- What they return. -/
@[reducible] def SeenReply {κ : Type} : SeenCall κ → Type
  | .base c => Reply c
  | .seen _ _ => List String
  | .add _ _ _ => Unit

/-- A coroutine over them. -/
abbrev SeenCoroutine (κ : Type) := Prog (SeenCall κ) SeenReply Exc

/-- A coroutine that comes near no set. -/
def plain {κ α : Type} (p : Coroutine α) : SeenCoroutine κ α := p.embed .base fun _ reply => reply

/-- Look at a set for a number. -/
def lookAt {κ : Type} (set : κ) (poNumber : String) : SeenCoroutine κ (List String) := Prog.call (SeenCall.seen set poNumber)

/-- `seen.add(po_number)` after a validation. -/
def addNumber {κ : Type} (set : κ) (poNumber : String) (result : ValidationResult) : SeenCoroutine κ Unit :=
  Prog.call (SeenCall.add set poNumber result)

/-- The reason of a number that was seen. -/
def duplicateReason (py : Builtins) (poNumber : String) : String :=
  "duplicate: PO " ++ py.repr (.str poNumber) ++ " already processed"

section Nodes

variable {κ : Type} (py : Builtins) (exceedsTolerance : PyFloat → PyFloat → Bool) (actor : Actor) (set : κ)

/-- The node that validates, with its set. -/
def validateSeen (state : Dict) : SeenCoroutine κ NodeOutcome := do
  let fields ← Prog.ofExcept (stateFields state)
  let seen ← lookAt set fields.poNumber
  let result ← plain (validateInvoice py exceedsTolerance actor seen fields)
  addNumber set fields.poNumber result
  return .wrote [("validation", result.asDict)]

/-- `build_invoice_agent_graph` with a set. -/
def graphSeen (killswitch : Option KillSwitch) :
    StateGraph (SeenCall κ) SeenReply Exc Node Dict Dict Json Json where
  entry := .killswitchGate
  merge := Json.merge
  body node resume state :=
    match node with
    | .validate => validateSeen py exceedsTolerance actor set state
    | node => plain ((graph py exceedsTolerance actor killswitch []).body node resume state)
  route := (graph py exceedsTolerance actor killswitch []).route

/-- The result of a validation for what the look-up found. -/
def judged (seen : List String) (fields : InvoiceFields) : Option PurchaseOrder → ValidationResult
  | none =>
    ⟨false, (if fields.poNumber ∈ seen then [duplicateReason py fields.poNumber] else []) ++
      ["purchase order not found: " ++ py.repr (.str fields.poNumber)], none⟩
  | some po =>
    let reasons := (if fields.poNumber ∈ seen then [duplicateReason py fields.poNumber] else []) ++
      mismatchReasons py exceedsTolerance fields po
    ⟨reasons = [], reasons, some po⟩

/-- A run of the graph with a set. -/
def runSeen (killswitch : Option KillSwitch) (input : Dict) : SeenCoroutine κ AgentRun :=
  (graphSeen py exceedsTolerance actor set killswitch).invoke
    ((threadSaver nodeNames actor).embed .base fun _ reply => reply) graphRecursionError recursionLimit [] input

end Nodes

/-- The sets next to a world, which answers the other calls. -/
def answerSeen {κ σ : Type} [DecidableEq κ] (answer : σ → (c : Call) → σ × Except Exc (Reply c))
    (s : σ × (κ → List String)) : (c : SeenCall κ) → (σ × (κ → List String)) × Except Exc (SeenReply c)
  | .base c => (((answer s.1 c).1, s.2), (answer s.1 c).2)
  | .seen set _ => (s, .ok (s.2 set))
  | .add set poNumber _ => ((s.1, Function.update s.2 set (poNumber :: s.2 set)), .ok ())

/-! ## A set of one run -/

/-- What a coroutine does with a set that nobody else has. -/
def withSet {κ α : Type} : List String → SeenCoroutine κ α → Coroutine α
  | _, .done value => .done value
  | _, .raise error => .raise error
  | seen, .await (.base c) next => .await c fun reply => withSet seen (next reply)
  | seen, .await (.seen _ _) next => withSet seen (next (.ok seen))
  | seen, .await (.add _ poNumber _) next => withSet (poNumber :: seen) (next (.ok ()))

section Alone

variable {κ α β : Type} {seen other : List String}

/-- What comes near no set is done as it is. -/
theorem withSet_plain_bind (p : Coroutine α) (f : α → SeenCoroutine κ β) :
    withSet seen (plain p >>= f) = p >>= fun value => withSet seen (f value) := by
  induction p with
  | done value => rfl
  | raise error => rfl
  | await c next ih =>
    have hreply (reply : Except Exc (Reply c)) : (reply.map fun value => value) = reply := by cases reply <;> rfl
    simp only [plain, Prog.embed, Prog.await_bind, withSet, hreply]
    exact congrArg _ (funext fun reply => ih reply)

/-- What comes near no set at the end of a coroutine. -/
theorem withSet_plain (p : Coroutine α) : withSet seen (plain p : SeenCoroutine κ α) = p := by
  induction p with
  | done value => rfl
  | raise error => rfl
  | await c next ih =>
    have hreply (reply : Except Exc (Reply c)) : (reply.map fun value => value) = reply := by cases reply <;> rfl
    simp only [plain, Prog.embed, withSet, hreply]
    exact congrArg _ (funext fun reply => ih reply)

/-- A lifted computation comes near no set. -/
theorem withSet_ofExcept_bind (result : Except Exc α) (f : α → SeenCoroutine κ β) :
    withSet seen (Prog.ofExcept result >>= f) = Prog.ofExcept result >>= fun value => withSet seen (f value) := by
  cases result with
  | ok value => rfl
  | error error => rfl

/-- The nodes after the validation. -/
def PastValidation (node : Node) : Prop := node = .hitl ∨ node = .createDraftEntry ∨ node = .finish

variable {py : Builtins} {exceedsTolerance : PyFloat → PyFloat → Bool} {actor : Actor} {set : κ}
  {killswitch : Option KillSwitch}

/-- The validating node with a set of its own. -/
theorem withSet_validateSeen_bind (state : Dict) (f : NodeOutcome → SeenCoroutine κ β) {g : NodeOutcome → Coroutine β}
    (h : ∀ seen outcome, withSet seen (f outcome) = g outcome) :
    withSet seen (validateSeen py exceedsTolerance actor set state >>= f) =
      validate py exceedsTolerance actor seen state >>= g := by
  simp only [validateSeen, validate, Prog.bind_assoc, withSet_ofExcept_bind]
  congr
  funext fields
  show withSet seen (plain (validateInvoice py exceedsTolerance actor seen fields) >>= _) = _
  rw [withSet_plain_bind]
  congr
  funext result
  exact h _ _

/-- After the validation come only nodes after it. -/
theorem pastValidation_of_route {node next : Node} {state : Dict}
    (hnode : node = .validate ∨ PastValidation node)
    (h : (graph py exceedsTolerance actor killswitch other).route node state = .ok (some next)) :
    PastValidation next := by
  rcases hnode with rfl | rfl | rfl | rfl
  · exact .inl (Option.some.inj (Except.ok.inj h)).symm
  · rw [← Option.some.inj (Except.ok.inj h)]
    split
    · exact .inr (.inr rfl)
    · exact .inr (.inl rfl)
  · exact .inr (.inr (Option.some.inj (Except.ok.inj h)).symm)
  · cases h

section Steps

variable {failed : Option Exc} {node : Node} {values : Dict}
  {next : StateGraph.Progress Exc Node Dict Json → SeenCoroutine κ β}
  {next' : StateGraph.Progress Exc Node Dict Json → Coroutine β}
  (hstopped : ∀ seen failed result, withSet seen (next (.stopped failed result)) = next' (.stopped failed result))
  (hmoved : ∀ seen failed node values, PastValidation node ∨ seen = other →
    withSet seen (next (.moved failed node values)) = next' (.moved failed node values))

include hstopped hmoved

/-- What follows the body of a node, with a set of its own. -/
theorem withSet_afterBody_bind (h : node = .validate ∨ PastValidation node ∨ seen = other) (outcome : NodeOutcome) :
    withSet seen (StateGraph.afterBody (graphSeen py exceedsTolerance actor set killswitch)
        ((threadSaver nodeNames actor).embed .base fun _ reply => reply) failed node values outcome >>= next) =
      StateGraph.afterBody (graph py exceedsTolerance actor killswitch other) (threadSaver nodeNames actor) failed node
        values outcome >>= next' := by
  cases outcome with
  | interrupted payload => exact hstopped seen _ _
  | wrote writes =>
    simp only [StateGraph.afterBody, Prog.bind_assoc, withSet_ofExcept_bind]
    show Prog.ofExcept ((graph py exceedsTolerance actor killswitch other).route node (Json.merge values writes)) >>= _ = _
    cases hroute : (graph py exceedsTolerance actor killswitch other).route node (Json.merge values writes) with
    | error error =>
      show _ = Prog.ofExcept ((graph py exceedsTolerance actor killswitch other).route node (Json.merge values writes)) >>= _
      rw [hroute]
      rfl
    | ok reached =>
      show _ = Prog.ofExcept ((graph py exceedsTolerance actor killswitch other).route node (Json.merge values writes)) >>= _
      rw [hroute]
      simp only [Prog.ofExcept_ok, Prog.done_bind, StateGraph.saveAfter_embed]
      apply (withSet_plain_bind _ _).trans
      refine congrArg (_ >>= ·) (funext fun saved => ?_)
      cases reached with
      | none => exact hstopped seen saved _
      | some reached =>
        apply hmoved seen saved reached _
        rcases h with h | h | h
        · exact .inl (pastValidation_of_route (.inl h) hroute)
        · exact .inl (pastValidation_of_route (.inr h) hroute)
        · exact .inr h

/-- A superstep with a set of its own. -/
theorem withSet_superstep_bind {resume : Option Json} (h : PastValidation node ∨ seen = other) :
    withSet seen ((graphSeen py exceedsTolerance actor set killswitch).superstep
        ((threadSaver nodeNames actor).embed .base fun _ reply => reply) failed resume node values >>= next) =
      (graph py exceedsTolerance actor killswitch other).superstep (threadSaver nodeNames actor) failed resume node values
        >>= next' := by
  rw [StateGraph.superstep_eq, StateGraph.superstep_eq]
  simp only [Prog.bind_assoc]
  show withSet seen (plain ((threadSaver nodeNames actor).enter node) >>= _) = _
  rw [withSet_plain_bind]
  congr
  funext entered
  by_cases hnode : node = .validate
  · subst hnode
    have hsame : seen = other := by
      rcases h with h | h
      · rcases h with h | h | h <;> cases h
      · exact h
    subst hsame
    exact withSet_validateSeen_bind values _ fun seen outcome =>
      withSet_afterBody_bind hstopped hmoved (.inl rfl) outcome
  · have hbody : (graphSeen py exceedsTolerance actor set killswitch).body node resume values =
        plain ((graph py exceedsTolerance actor killswitch other).body node resume values) := by
      cases node with
      | validate => exact absurd rfl hnode
      | _ => rfl
    rw [hbody, withSet_plain_bind]
    congr
    funext outcome
    exact withSet_afterBody_bind hstopped hmoved (.inr h) outcome

end Steps

section Runs

variable {f : AgentRun → SeenCoroutine κ β} {g : AgentRun → Coroutine β}
  (hrest : ∀ seen result, withSet seen (f result) = g result)

include hrest

/-- From every node on, a run with a set of its own is the run that starts with what the set holds, which is of no matter
after the validation. -/
theorem withSet_advance_bind (fuel : ℕ) (failed : Option Exc) (resume : Option Json) (node : Node) (values : Dict)
    (h : PastValidation node ∨ seen = other) :
    withSet seen ((graphSeen py exceedsTolerance actor set killswitch).advance
        ((threadSaver nodeNames actor).embed .base fun _ reply => reply) graphRecursionError fuel failed resume node values
        >>= f) =
      (graph py exceedsTolerance actor killswitch other).advance (threadSaver nodeNames actor) graphRecursionError fuel
        failed resume node values >>= g := by
  induction fuel generalizing seen failed resume node values with
  | zero => rfl
  | succ fuel ih =>
    rw [StateGraph.advance, StateGraph.advance, Prog.bind_assoc, Prog.bind_assoc]
    apply withSet_superstep_bind
    · intro seen failed result
      cases failed with
      | none => exact hrest seen result
      | some error => rfl
    · exact fun seen failed node values h => ih failed none node values h
    · exact h

/-- A run with a set of its own is the run that starts with what the set holds. -/
theorem withSet_runSeen_bind (input : Dict) :
    withSet seen (runSeen py exceedsTolerance actor set killswitch input >>= f) =
      ainvoke (graph py exceedsTolerance actor killswitch seen) (threadSaver nodeNames actor) input >>= g := by
  simp only [runSeen, ainvoke, StateGraph.invoke, Prog.bind_assoc, StateGraph.saveAfter_embed]
  show withSet seen (plain (threadSaver nodeNames actor).load >>= _) = _
  rw [withSet_plain_bind]
  congr
  funext saved
  apply (withSet_plain_bind _ _).trans
  refine congrArg (_ >>= ·) (funext fun failed => ?_)
  exact withSet_advance_bind hrest recursionLimit failed none .killswitchGate _ (.inr rfl)

end Runs

end Alone

/-! ## What a validation says -/

section Judged

variable {py : Builtins} {exceedsTolerance : PyFloat → PyFloat → Bool} {seen : List String} {fields : InvoiceFields}

/-- The validation looks its order up and judges it. -/
theorem validateInvoice_eq (actor : Actor) : validateInvoice py exceedsTolerance actor seen fields =
    lookupPo py actor fields.poNumber >>= fun found => .done (judged py exceedsTolerance seen fields found) := by
  rw [validateInvoice]
  congr
  funext found
  cases found <;> rfl

/-- A number is reported as a duplicate exactly when it was seen. -/
theorem duplicateReason_mem {found : Option PurchaseOrder} :
    duplicateReason py fields.poNumber ∈ (judged py exceedsTolerance seen fields found).reasons ↔
      fields.poNumber ∈ seen := by
  have hlist : duplicateReason py fields.poNumber ∈
      (if fields.poNumber ∈ seen then [duplicateReason py fields.poNumber] else []) ↔ fields.poNumber ∈ seen := by
    split <;> simp [*]
  cases found with
  | none =>
    have hother : duplicateReason py fields.poNumber ≠ "purchase order not found: " ++ py.repr (.str fields.poNumber) := by
      intro heq
      have hhead := congrArg (fun text => text.toList.head?) heq
      simp [duplicateReason] at hhead
    rw [judged, List.mem_append, hlist]
    simp [hother]
  | some po =>
    have hother : duplicateReason py fields.poNumber ∉ mismatchReasons py exceedsTolerance fields po := by
      intro hmem
      rw [mismatchReasons, List.mem_append] at hmem
      rcases hmem with hmem | hmem
      · split at hmem
        · have hhead := congrArg (fun text => text.toList.head?) (List.mem_singleton.mp hmem)
          simp [duplicateReason] at hhead
        · cases hmem
      · split at hmem
        · have hhead := congrArg (fun text => text.toList.head?) (List.mem_singleton.mp hmem)
          simp [duplicateReason] at hhead
        · cases hmem
    simp only [judged, List.mem_append, hlist]
    simp [hother]

end Judged

/-! ## The protocol of a run -/

/-- How far a run is with its validation; while it validates a number it knows what the set was when it looked. -/
inductive Progress where
  | before
  | validating (poNumber : String) (seen : List String)
  | after

/-- The calls of a run with a set: one look, then the purchase order, then the addition, with the verdict of the look. -/
def SeenCalls {κ : Type} (py : Builtins) (set : κ) : Progress → SeenCall κ → Prop
  | .validating _ _, .base c => ∃ actor args, c = .tool actor pgRoQuery args
  | .validating poNumber seen, .add other number result =>
    other = set ∧ number = poNumber ∧ (duplicateReason py poNumber ∈ result.reasons ↔ poNumber ∈ seen)
  | .before, .seen other _ => other = set
  | .before, .base _ | .after, .base _ => True
  | _, _ => False

/-- A look is made before the validation, at the own set. -/
theorem SeenCalls.look {κ : Type} {py : Builtins} {set other : κ} {progress : Progress} {poNumber : String}
    (h : SeenCalls py set progress (.seen other poNumber)) : progress = .before ∧ other = set := by
  cases progress with
  | before => exact ⟨rfl, h⟩
  | validating number seen => exact h.elim
  | after => exact h.elim

/-- An addition ends the validation, with the verdict of the look. -/
theorem SeenCalls.addition {κ : Type} {py : Builtins} {set other : κ} {progress : Progress} {poNumber : String}
    {result : ValidationResult} (h : SeenCalls py set progress (.add other poNumber result)) :
    other = set ∧ ∃ seen, progress = .validating poNumber seen ∧
      (duplicateReason py poNumber ∈ result.reasons ↔ poNumber ∈ seen) := by
  cases progress with
  | before => exact h.elim
  | validating number seen =>
    obtain ⟨rfl, rfl, hverdict⟩ := h
    exact ⟨rfl, seen, rfl, hverdict⟩
  | after => exact h.elim

/-- How a reply moves a run on. -/
def SeenAnswers {κ : Type} : Progress → (c : SeenCall κ) → Except Exc (SeenReply c) → Progress → Prop
  | progress, .base _, _, next => next = progress
  | _, .seen _ poNumber, .ok seen, next => next = .validating poNumber seen
  | progress, .seen _ _, .error _, next => next = progress
  | _, .add _ _ _, _, next => next = .after

/-- A run is not validating. -/
def Outside (progress : Progress) : Prop := ∀ poNumber seen, progress ≠ .validating poNumber seen

/-- The protocol of a run with a set. -/
def seenProtocol {κ : Type} (py : Builtins) (set : κ) : Protocol (SeenCall κ) SeenReply Exc Progress :=
  ⟨SeenCalls py set, SeenAnswers⟩

section Programs

variable {κ : Type} {py : Builtins} {exceedsTolerance : PyFloat → PyFloat → Bool} {actor : Actor} {set : κ}

/-- What comes near no set leaves a run where it is, before and after the validation. -/
theorem ensures_plain {α : Type} (p : Coroutine α) {progress : Progress} (h : Outside progress) :
    (seenProtocol py set).Ensures (fun _ next => next = progress) (plain p) progress := by
  apply Protocol.ensures_still (Prog.only_any p).embed
  rintro c ⟨base, rfl, -⟩
  refine ⟨?_, fun reply next hnext => hnext⟩
  cases progress with
  | before => trivial
  | validating n seen => exact absurd rfl (h n seen)
  | after => trivial

/-- The rule of what comes near no set at the start of a sequence. -/
theorem ensures_plain_bind {α β : Type} {p : Coroutine α} {f : α → SeenCoroutine κ β}
    {post : Except Exc β → Progress → Prop} {progress : Progress} (h : Outside progress)
    (herror : ∀ error, post (.error error) progress)
    (hok : ∀ value, (seenProtocol py set).Ensures post (f value) progress) :
    (seenProtocol py set).Ensures post (plain p >>= f) progress := by
  apply Protocol.ensures_bind.mpr
  apply (ensures_plain p h).mono
  rintro result next rfl
  cases result with
  | error error => exact herror error
  | ok value => exact hok value

/-- The validation looks its order up and judges it. -/
theorem ensures_validateInvoice {fields : InvoiceFields} {seen : List String} :
    (seenProtocol py set).Ensures (fun result next => next = .validating fields.poNumber seen ∧ ∀ value,
        result = .ok value → (duplicateReason py fields.poNumber ∈ value.reasons ↔ fields.poNumber ∈ seen))
      (plain (validateInvoice py exceedsTolerance actor seen fields)) (.validating fields.poNumber seen) := by
  have honly : (lookupPo py actor fields.poNumber).Only fun c => ∃ actor args, c = .tool actor pgRoQuery args :=
    (Prog.only_call ⟨_, _, rfl⟩).bind fun _ => (Prog.only_ofExcept _).bind fun _ => Prog.only_ofExcept _
  rw [validateInvoice_eq, plain, Prog.embed_bind, Protocol.ensures_bind]
  have hlookup : (seenProtocol py set).Ensures (fun _ next => next = .validating fields.poNumber seen)
      (plain (lookupPo py actor fields.poNumber)) (.validating fields.poNumber seen) := by
    apply Protocol.ensures_still honly.embed
    rintro c ⟨base, rfl, hbase⟩
    exact ⟨hbase, fun reply next hnext => hnext⟩
  apply hlookup.mono
  rintro found next rfl
  cases found with
  | error error => exact ⟨rfl, fun value hvalue => by cases hvalue⟩
  | ok po =>
    refine ⟨rfl, fun value hvalue => ?_⟩
    rw [← Except.ok.inj hvalue]
    exact duplicateReason_mem

/-- The validating node looks at its set, validates and adds the number. -/
theorem ensures_validateSeen (state : Dict) :
    (seenProtocol py set).Ensures (fun result next => ∀ value, result = .ok value →
      next = .after ∧ ∃ writes, value = .wrote writes) (validateSeen py exceedsTolerance actor set state) .before := by
  apply Protocol.ensures_ofExcept_bind
  · exact fun error _ value hvalue => by cases hvalue
  · intro fields hfields
    apply Protocol.ensures_call_bind rfl
    intro reply progress hprogress
    cases reply with
    | error error => exact fun value hvalue => by cases hvalue
    | ok seen =>
      obtain rfl : progress = .validating fields.poNumber seen := hprogress
      apply Protocol.ensures_bind.mpr
      apply ensures_validateInvoice.mono
      rintro result next ⟨rfl, hreasons⟩
      cases result with
      | error error => exact fun value hvalue => by cases hvalue
      | ok result =>
        have hallowed : (seenProtocol py set).allowed (.validating fields.poNumber seen)
            (.add set fields.poNumber result) := ⟨rfl, rfl, hreasons result rfl⟩
        apply Protocol.ensures_call_bind hallowed
        intro reply next hnext
        cases reply with
        | error error => exact fun value hvalue => by cases hvalue
        | ok value => exact fun outcome houtcome => ⟨hnext, _, (Except.ok.inj houtcome).symm⟩

/-- The progress with which a node is reached. -/
def Reached : Node → Progress → Prop
  | .hitl, progress | .createDraftEntry, progress => progress = .after
  | .finish, progress => Outside progress
  | _, progress => progress = .before

/-- A node other than the validating one is reached outside of a validation. -/
theorem Reached.outside {node : Node} {progress : Progress} (h : Reached node progress) : Outside progress := by
  cases node with
  | finish => exact h
  | hitl | createDraftEntry =>
    obtain rfl : progress = .after := h
    exact fun n seen heq => by cases heq
  | killswitchGate | ocr | extractFields | validate =>
    obtain rfl : progress = .before := h
    exact fun n seen heq => by cases heq

/-- A run that ends is not validating. -/
def EndsOutside {α : Type} (result : Except Exc α) (progress : Progress) : Prop := ∀ value, result = .ok value → Outside progress

/-- Every node leads on with the progress of the next one. -/
theorem ensures_body (killswitch : Option KillSwitch) (node : Node) (resume : Option Json) (values : Dict)
    {progress : Progress} (h : Reached node progress) :
    (seenProtocol py set).Ensures (fun result next =>
        StateGraph.Leads (graphSeen py exceedsTolerance actor set killswitch)
          (fun _ _ next _ progress => Reached next progress) EndsOutside node values result next ∧ EndsOutside result next)
      ((graphSeen py exceedsTolerance actor set killswitch).body node resume values) progress := by
  have hplain (p : Coroutine NodeOutcome) (hnext : ∀ state next,
        (graphSeen py exceedsTolerance actor set killswitch).route node state = .ok (some next) → Reached next progress) :
      (seenProtocol py set).Ensures (fun result next =>
          StateGraph.Leads (graphSeen py exceedsTolerance actor set killswitch)
            (fun _ _ next _ progress => Reached next progress) EndsOutside node values result next ∧
          EndsOutside result next) (plain p) progress := by
    apply (ensures_plain p h.outside).mono
    rintro result next rfl
    refine ⟨?_, fun _ _ => h.outside⟩
    cases result with
    | error error => exact fun value hvalue => by cases hvalue
    | ok outcome =>
      cases outcome with
      | interrupted payload => exact fun _ _ _ => h.outside
      | wrote writes =>
        rw [StateGraph.Leads]
        split
        · exact fun value hvalue => by cases hvalue
        · exact fun _ _ _ => h.outside
        · rename_i next hroute
          exact fun _ => hnext _ next hroute
  cases node with
  | validate =>
    obtain rfl : progress = .before := h
    apply (ensures_validateSeen values).mono
    intro result next hresult
    cases result with
    | error error => exact ⟨fun value hvalue => (by cases hvalue), fun value hvalue => by cases hvalue⟩
    | ok value =>
      obtain ⟨rfl, writes, rfl⟩ := hresult value rfl
      exact ⟨fun _ => rfl, fun _ _ n seen heq => by cases heq⟩
  | killswitchGate =>
    apply hplain
    intro state next hroute
    simp only [graphSeen, graph, Except.ok.injEq] at hroute
    split at hroute
    · cases hroute
    · rw [← Option.some.inj hroute]
      exact h
  | ocr =>
    apply hplain
    intro state next hroute
    rw [← Option.some.inj (Except.ok.inj hroute)]
    exact h
  | extractFields =>
    apply hplain
    intro state next hroute
    rw [← Option.some.inj (Except.ok.inj hroute)]
    split
    · exact h.outside
    · exact h
  | hitl =>
    apply hplain
    intro state next hroute
    rw [← Option.some.inj (Except.ok.inj hroute)]
    split
    · exact h.outside
    · exact h
  | createDraftEntry =>
    apply hplain
    intro state next hroute
    rw [← Option.some.inj (Except.ok.inj hroute)]
    exact h.outside
  | finish =>
    apply hplain
    intro state next hroute
    cases hroute

/-- A run validates at most once, with the verdict of its look. -/
theorem ensures_runSeen (killswitch : Option KillSwitch) (input : Dict) :
    (seenProtocol py set).Ensures EndsOutside (runSeen py exceedsTolerance actor set killswitch input) .before := by
  have hbefore : Outside .before := fun n seen heq => by cases heq
  have hfails {α : Type} (error : Exc) (progress : Progress) : EndsOutside (.error error : Except Exc α) progress :=
    fun value hvalue => by cases hvalue
  have hstep (failed : Option Exc) (resume : Option Json) (node : Node) (values : Dict) (progress : Progress)
      (h : Reached node progress) :
      (seenProtocol py set).Ensures
        (StateGraph.Steps (fun _ (_ : Option Json) next _ progress => Reached next progress) EndsOutside)
        (StateGraph.superstep (graphSeen py exceedsTolerance actor set killswitch)
          ((threadSaver nodeNames actor).embed .base fun _ reply => reply) failed resume node values) progress := by
    apply StateGraph.ensures_superstep Outside
    · exact ensures_plain _ h.outside
    · exact fun checkpoint progress hprogress => ensures_plain _ hprogress
    · exact fun error => hfails error progress
    · exact ensures_body killswitch node resume values h
  apply StateGraph.ensures_invoke
  · exact ensures_plain _ hbefore
  · exact fun checkpoint => ensures_plain _ hbefore
  · exact fun error => hfails error .before
  · intro failed values
    exact StateGraph.ensures_advance hstep (fun _ _ _ _ progress _ => hfails _ progress) recursionLimit failed none _
      values .before rfl

end Programs

end FleetWorkflow.Agents.InvoiceAgent
