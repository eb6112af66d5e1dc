import FleetWorkflow.Agents.InvoiceValidation
import FleetWorkflow.Agents.SeenNumbers
import FleetWorkflow.Api.StartRuns

/-!
# Duplicate invoices

Runs of the invoice agent in every interleaving: batches whose runs share a set of seen order numbers, and requests to the
API, each of which builds its graph with an empty set of its own. A number is looked for in a set before the purchase order
is awaited and added after it, so that only validations that do not overlap see each other.
-/

namespace FleetWorkflow.Api

open Python Async Core Agents InvoiceAgent

/-! ## Requests and runs -/

/-- `POST /v1/invoice-agent/runs` with the set of its graph. -/
def startSeen {κ : Type} (fleet : Fleet) (set : κ) (imageBase64 : String) : SeenCoroutine κ RunOut := do
  match ← plain (await (.findAgent agentName)) with
  | none => plain (httpError 500 (agentName ++ " not seeded — run `make seed`"))
  | some agentRow =>
    plain (await .buildClient)
    let runId ← plain (await .uuid4)
    let result ← runSeen fleet.py fleet.exceedsTolerance ⟨agentName, runId⟩ set none [("image_base64", .str imageBase64)]
    plain (finishRun (usualOutcomes fleet) agentRow.id runId result)

/-- A request whose set nobody else has is the request whose graph starts with nothing seen. -/
theorem withSet_startSeen {κ : Type} (fleet : Fleet) (set : κ) (imageBase64 : String) :
    withSet [] (startSeen fleet set imageBase64) = startInvoiceAgent fleet imageBase64 := by
  rw [startSeen, withSet_plain_bind, startInvoiceAgent, startRun]
  congr
  funext found
  cases found with
  | none => exact withSet_plain _
  | some agentRow =>
    simp only [withSet_plain_bind]
    congr
    funext built
    congr
    funext runId
    exact withSet_runSeen_bind (fun seen result => withSet_plain _) _

/-- What validates an invoice: a run of a graph, or a request. -/
inductive Intake where
  | run (actor : Actor) (killswitch : Option KillSwitch) (input : Dict)
  | request (imageBase64 : String)

/-- The coroutine of an intake with its set. -/
def Intake.task {κ : Type} (fleet : Fleet) (set : κ) : Intake → SeenCoroutine κ Unit
  | .run actor killswitch input => discard (runSeen fleet.py fleet.exceedsTolerance actor set killswitch input)
  | .request imageBase64 => discard (startSeen fleet set imageBase64)

/-- Intakes with their sets, in surroundings that answer everything else. The set of a request is empty at first, and
nobody else has it. -/
structure Intakes (ι κ σ : Type) where
  fleet : Fleet
  answer : σ → (c : Call) → σ × Except Exc (Reply c)
  world : σ
  intake : ι → Intake
  setOf : ι → κ
  seenBefore : κ → List String
  fresh : ∀ task imageBase64, intake task = .request imageBase64 →
    seenBefore (setOf task) = [] ∧ ∀ other, setOf other = setOf task → other = task

namespace Intakes

variable {ι κ σ : Type} [DecidableEq ι] [DecidableEq κ] (intakes : Intakes ι κ σ)

/-- One task for each intake. -/
def crew : Crew (SeenCall κ) SeenReply Exc (σ × (κ → List String)) ι Unit :=
  ⟨(intakes.world, intakes.seenBefore), fun task => (intakes.intake task).task intakes.fleet (intakes.setOf task)⟩

/-- The tasks and what they share at a moment. -/
def crewAt (moment : List ι) : Crew (SeenCall κ) SeenReply Exc (σ × (κ → List String)) ι Unit :=
  intakes.crew.exec (answerSeen intakes.answer) moment

/-- A set at a moment. -/
def seenAt (moment : List ι) (set : κ) : List String := (intakes.crewAt moment).shared.2 set

/-- The call that a task waits for at a moment. -/
def callAt (moment : List ι) (task : ι) : Option (SeenCall κ) :=
  match (intakes.crewAt moment).running task with
  | .await c _ => some c
  | _ => none

/-- A task has validated a number, with a result. -/
def Validated (schedule : List ι) (task : ι) (poNumber : String) (result : ValidationResult) : Prop :=
  ∃ moment, moment ++ [task] <+: schedule ∧
    intakes.callAt moment task = some (.add (intakes.setOf task) poNumber result)

/-- A task has validated a number as not a duplicate. -/
def ValidatedAsNew (schedule : List ι) (task : ι) (poNumber : String) : Prop :=
  ∃ result, intakes.Validated schedule task poNumber result ∧
    duplicateReason intakes.fleet.py poNumber ∉ result.reasons

/-- At most one task has validated each number as not a duplicate. -/
def AtMostOneNew (schedule : List ι) : Prop :=
  ∀ task other poNumber, intakes.ValidatedAsNew schedule task poNumber →
    intakes.ValidatedAsNew schedule other poNumber → task = other

/-- All are runs of graphs that share one set. -/
def AllShare : Prop :=
  (∀ task, ∃ actor killswitch input, intakes.intake task = .run actor killswitch input) ∧
    ∀ task other, intakes.setOf task = intakes.setOf other

/-- All are requests. -/
def AllRequests : Prop := ∀ task, ∃ imageBase64, intakes.intake task = .request imageBase64

/-- A task has looked for a number and waits for the purchase order, or to add the number. -/
def Validating (moment : List ι) (task : ι) (poNumber : String) : Prop :=
  (∃ earlier, earlier ++ [task] <+: moment ∧
    intakes.callAt earlier task = some (.seen (intakes.setOf task) poNumber)) ∧
    ((∃ actor args, intakes.callAt moment task = some (.base (.tool actor pgRoQuery args))) ∨
      ∃ result, intakes.callAt moment task = some (.add (intakes.setOf task) poNumber result))

/-- No task looks for a number while another one with the same set is validating it. -/
def NoOverlap (schedule : List ι) : Prop :=
  ∀ moment task other poNumber, moment ++ [task] <+: schedule →
    intakes.callAt moment task = some (.seen (intakes.setOf task) poNumber) → other ≠ task →
      intakes.setOf other = intakes.setOf task → ¬ intakes.Validating moment other poNumber

/-! ## What every step keeps -/

variable {intakes}

/-- A request keeps to the protocol of a run. -/
theorem ensures_startSeen {κ : Type} (fleet : Fleet) (set : κ) (imageBase64 : String) :
    (seenProtocol fleet.py set).Ensures (fun _ _ => True) (startSeen fleet set imageBase64) .before := by
  have hbefore : Outside .before := fun n seen heq => by cases heq
  have hfails : ∀ error : Exc, True := fun _ => trivial
  apply ensures_plain_bind hbefore hfails
  intro found
  cases found with
  | none => exact (ensures_plain _ hbefore).mono fun _ _ _ => trivial
  | some agentRow =>
    apply ensures_plain_bind hbefore hfails
    intro built
    apply ensures_plain_bind hbefore hfails
    intro runId
    apply Protocol.ensures_bind.mpr
    apply (ensures_runSeen none _).mono
    intro result progress hends
    cases result with
    | error error => trivial
    | ok result => exact (ensures_plain _ (hends result rfl)).mono fun _ _ _ => trivial

omit [DecidableEq ι] [DecidableEq κ] in
/-- Every intake keeps to the protocol of a run. -/
theorem ensures_task (task : ι) : (seenProtocol intakes.fleet.py (intakes.setOf task)).Ensures (fun _ _ => True)
    (intakes.crew.running task) .before := by
  show (seenProtocol intakes.fleet.py (intakes.setOf task)).Ensures (fun _ _ => True)
    ((intakes.intake task).task intakes.fleet (intakes.setOf task)) .before
  cases intakes.intake task with
  | run actor killswitch input =>
    apply Protocol.ensures_discard.mpr
    exact (ensures_runSeen killswitch input).mono fun _ _ _ => trivial
  | request imageBase64 => exact Protocol.ensures_discard.mpr (ensures_startSeen _ _ imageBase64)

/-- The step after a moment. -/
theorem crewAt_concat (schedule : List ι) (task : ι) :
    intakes.crewAt (schedule ++ [task]) = (intakes.crewAt schedule).step (answerSeen intakes.answer) task :=
  Crew.exec_concat schedule task

/-- A call at the moment of a step. -/
theorem callAt_of_running {schedule : List ι} {task : ι} {c : SeenCall κ}
    {next : Except Exc (SeenReply c) → SeenCoroutine κ Unit}
    (h : (intakes.crewAt schedule).running task = .await c next) : intakes.callAt schedule task = some c := by
  rw [callAt, h]

/-- A task that waits for a call has it left. -/
theorem running_of_callAt {schedule : List ι} {task : ι} {c : SeenCall κ} (h : intakes.callAt schedule task = some c) :
    ∃ next, (intakes.crewAt schedule).running task = .await c next := by
  rw [callAt] at h
  split at h
  · rename_i next hrun
    rw [← Option.some.inj h]
    exact ⟨next, hrun⟩
  · cases h

/-- What a set is after a step. -/
theorem seenAt_concat {schedule : List ι} {task : ι} {c : SeenCall κ} (h : intakes.callAt schedule task = some c)
    (set : κ) : intakes.seenAt (schedule ++ [task]) set =
      (answerSeen intakes.answer (intakes.crewAt schedule).shared c).1.2 set := by
  obtain ⟨next, hrun⟩ := running_of_callAt h
  rw [seenAt, crewAt_concat, Crew.step_of_await _ hrun]

/-- Other tasks wait for what they waited for. -/
theorem callAt_of_ne {schedule : List ι} {task other : ι} (h : other ≠ task) :
    intakes.callAt (schedule ++ [task]) other = intakes.callAt schedule other := by
  rw [callAt, crewAt_concat, Crew.running_step_of_ne h, callAt]

/-- What was validated is what was validated before, or what the last step adds. -/
theorem validated_concat {schedule : List ι} {last task : ι} {poNumber : String} {result : ValidationResult} :
    intakes.Validated (schedule ++ [last]) task poNumber result ↔ intakes.Validated schedule task poNumber result ∨
      task = last ∧ intakes.callAt schedule last = some (.add (intakes.setOf last) poNumber result) := by
  constructor
  · rintro ⟨moment, hmoment, hcall⟩
    rcases List.prefix_concat_iff.mp hmoment with heq | hprefix
    · obtain ⟨rfl, hlast⟩ := List.append_inj' heq rfl
      obtain rfl : task = last := by simpa using hlast
      exact .inr ⟨rfl, hcall⟩
    · exact .inl ⟨moment, hprefix, hcall⟩
  · rintro (⟨moment, hmoment, hcall⟩ | ⟨rfl, hcall⟩)
    · exact ⟨moment, hmoment.trans (List.prefix_append _ _), hcall⟩
    · exact ⟨schedule, List.prefix_rfl, hcall⟩

/-- A step that adds nothing validates nothing. -/
theorem validated_concat_of_call {schedule : List ι} {last task : ι} {poNumber : String} {result : ValidationResult}
    (h : ∀ poNumber result, intakes.callAt schedule last ≠ some (.add (intakes.setOf last) poNumber result)) :
    intakes.Validated (schedule ++ [last]) task poNumber result ↔ intakes.Validated schedule task poNumber result := by
  rw [validated_concat]
  exact or_iff_left fun hlast => h poNumber result hlast.2

variable (intakes)

/-- A task waits for something. -/
def Waiting (schedule : List ι) (task : ι) : Prop := intakes.callAt schedule task ≠ none

/-- What is kept while validations do not overlap: a task that validates has looked, the membership of its number is what
it looked at, no other task with the set validates the number, a validated number is in the set, and at most one
validation of a number with the set found it new. -/
structure Kept (schedule : List ι) (states : ι → Progress) : Prop where
  looked : ∀ task poNumber seen, states task = .validating poNumber seen → ∃ earlier, earlier ++ [task] <+: schedule ∧
    intakes.callAt earlier task = some (.seen (intakes.setOf task) poNumber)
  same : ∀ task poNumber seen, states task = .validating poNumber seen → intakes.Waiting schedule task →
    (poNumber ∈ seen ↔ poNumber ∈ intakes.seenAt schedule (intakes.setOf task))
  alone : ∀ task other poNumber seen seen', states task = .validating poNumber seen →
    states other = .validating poNumber seen' → intakes.Waiting schedule task → intakes.Waiting schedule other →
      intakes.setOf other = intakes.setOf task → other = task
  noted : ∀ task poNumber result, intakes.Validated schedule task poNumber result →
    states task = .after ∧ poNumber ∈ intakes.seenAt schedule (intakes.setOf task)
  news : ∀ task other poNumber, intakes.setOf other = intakes.setOf task →
    intakes.ValidatedAsNew schedule task poNumber → intakes.ValidatedAsNew schedule other poNumber → other = task

variable {intakes} {schedule : List ι} {states : ι → Progress} {task : ι}

/-- Whoever waits after a step waited before it. -/
theorem Waiting.before {c : SeenCall κ} (hcall : intakes.callAt schedule task = some c) {other : ι}
    (h : intakes.Waiting (schedule ++ [task]) other) : intakes.Waiting schedule other := by
  by_cases hother : other = task
  · rw [hother, Waiting, hcall]
    exact Option.some_ne_none c
  · rwa [Waiting, callAt_of_ne hother] at h

/-- A step that leaves the sets and validates nothing keeps everything. -/
theorem Kept.still (h : intakes.Kept schedule states)
    (hseen : ∀ set, intakes.seenAt (schedule ++ [task]) set = intakes.seenAt schedule set)
    (hcall : ∀ poNumber result, intakes.callAt schedule task ≠ some (.add (intakes.setOf task) poNumber result))
    (hwaits : ∀ other, intakes.Waiting (schedule ++ [task]) other → intakes.Waiting schedule other) :
    intakes.Kept (schedule ++ [task]) states := by
  constructor
  · intro other poNumber seen hstate
    obtain ⟨earlier, hearlier, hlook⟩ := h.looked other poNumber seen hstate
    exact ⟨earlier, hearlier.trans (List.prefix_append _ _), hlook⟩
  · intro other poNumber seen hstate hwaiting
    rw [hseen]
    exact h.same other poNumber seen hstate (hwaits other hwaiting)
  · intro one other poNumber seen seen' hone hother hwaiting hwaiting' hset
    exact h.alone one other poNumber seen seen' hone hother (hwaits one hwaiting) (hwaits other hwaiting') hset
  · intro other poNumber result hother
    rw [hseen]
    exact h.noted other poNumber result ((validated_concat_of_call hcall).mp hother)
  · rintro one other poNumber hset ⟨result, hone, hnew⟩ ⟨result', hother, hnew'⟩
    exact h.news one other poNumber hset ⟨result, (validated_concat_of_call hcall).mp hone, hnew⟩
      ⟨result', (validated_concat_of_call hcall).mp hother, hnew'⟩

/-- A call beside the sets keeps everything. -/
theorem Kept.base (h : intakes.Kept schedule states) {c : Call} (hcall : intakes.callAt schedule task = some (.base c)) :
    intakes.Kept (schedule ++ [task]) states := by
  apply h.still (seenAt_concat hcall)
  · intro poNumber result heq
    rw [hcall] at heq
    cases heq
  · exact fun other hwaiting => hwaiting.before hcall

/-- A task that is over keeps everything. -/
theorem Kept.idle (h : intakes.Kept schedule states)
    (hsame : intakes.crewAt (schedule ++ [task]) = intakes.crewAt schedule)
    (hover : ∀ c next, (intakes.crewAt schedule).running task ≠ .await c next) :
    intakes.Kept (schedule ++ [task]) states := by
  apply h.still
  · intro set
    rw [seenAt, hsame, seenAt]
  · intro poNumber result heq
    obtain ⟨next, hrun⟩ := running_of_callAt heq
    exact hover _ next hrun
  · intro other hwaiting
    rwa [Waiting, callAt, hsame] at hwaiting

/-- A look keeps everything, if no other task with the set is validating the number. -/
theorem Kept.look (h : intakes.Kept schedule states) {poNumber : String} (hstate : states task = .before)
    (hcall : intakes.callAt schedule task = some (.seen (intakes.setOf task) poNumber))
    (halone : ∀ other seen, other ≠ task → intakes.setOf other = intakes.setOf task →
      states other = .validating poNumber seen → ¬ intakes.Waiting schedule other) :
    intakes.Kept (schedule ++ [task]) (Function.update states task
      (.validating poNumber (intakes.seenAt schedule (intakes.setOf task)))) := by
  have hseen (set : κ) : intakes.seenAt (schedule ++ [task]) set = intakes.seenAt schedule set := seenAt_concat hcall set
  have hvalidated {other : ι} {poNumber : String} {result : ValidationResult} :
      intakes.Validated (schedule ++ [task]) other poNumber result ↔ intakes.Validated schedule other poNumber result :=
    validated_concat_of_call fun poNumber result heq => by rw [hcall] at heq; cases heq
  constructor
  · intro other number seen hother
    by_cases hsame : other = task
    · subst hsame
      rw [Function.update_self] at hother
      obtain ⟨rfl, -⟩ := Progress.validating.inj hother
      exact ⟨schedule, List.prefix_rfl, hcall⟩
    · rw [Function.update_of_ne hsame] at hother
      obtain ⟨earlier, hearlier, hlook⟩ := h.looked other number seen hother
      exact ⟨earlier, hearlier.trans (List.prefix_append _ _), hlook⟩
  · intro other number seen hother hwaiting
    rw [hseen]
    by_cases hsame : other = task
    · subst hsame
      rw [Function.update_self] at hother
      obtain ⟨rfl, rfl⟩ := Progress.validating.inj hother
      exact Iff.rfl
    · rw [Function.update_of_ne hsame] at hother
      exact h.same other number seen hother (hwaiting.before hcall)
  · intro one other number seen seen' hone hother hwaiting hwaiting' hset
    by_contra hne
    by_cases hsame : one = task
    · subst hsame
      rw [Function.update_self] at hone
      rw [Function.update_of_ne hne] at hother
      obtain ⟨rfl, -⟩ := Progress.validating.inj hone
      exact halone other seen' hne hset hother (hwaiting'.before hcall)
    · rw [Function.update_of_ne hsame] at hone
      by_cases hsame' : other = task
      · subst hsame'
        rw [Function.update_self] at hother
        obtain ⟨rfl, -⟩ := Progress.validating.inj hother
        exact halone one seen hsame hset.symm hone (hwaiting.before hcall)
      · rw [Function.update_of_ne hsame'] at hother
        exact hne (h.alone one other number seen seen' hone hother (hwaiting.before hcall) (hwaiting'.before hcall) hset)
  · intro other number result hother
    obtain ⟨hafter, hmem⟩ := h.noted other number result (hvalidated.mp hother)
    have hne : other ≠ task := by
      rintro rfl
      rw [hstate] at hafter
      cases hafter
    rw [Function.update_of_ne hne, hseen]
    exact ⟨hafter, hmem⟩
  · rintro one other number hset ⟨result, hone, hnew⟩ ⟨result', hother, hnew'⟩
    exact h.news one other number hset ⟨result, hvalidated.mp hone, hnew⟩ ⟨result', hvalidated.mp hother, hnew'⟩

/-- The addition of a number, with the verdict of the look, keeps everything. -/
theorem Kept.add (h : intakes.Kept schedule states) {poNumber : String} {seen : List String} {result : ValidationResult}
    (hstate : states task = .validating poNumber seen)
    (hcall : intakes.callAt schedule task = some (.add (intakes.setOf task) poNumber result))
    (hverdict : duplicateReason intakes.fleet.py poNumber ∈ result.reasons ↔ poNumber ∈ seen) :
    intakes.Kept (schedule ++ [task]) (Function.update states task .after) := by
  have hwaits : intakes.Waiting schedule task := by
    rw [Waiting, hcall]
    exact Option.some_ne_none _
  have hadded : poNumber ∈ intakes.seenAt (schedule ++ [task]) (intakes.setOf task) := by
    rw [seenAt_concat hcall]
    simp [answerSeen]
  have hgrown {number : String} {set : κ} (hmem : number ∈ intakes.seenAt schedule set) :
      number ∈ intakes.seenAt (schedule ++ [task]) set := by
    rw [seenAt_concat hcall]
    by_cases hset : set = intakes.setOf task
    · subst hset
      simpa [answerSeen] using .inr hmem
    · simp only [answerSeen, Function.update_of_ne hset]
      exact hmem
  -- The last step validates its number, and nothing else.
  have hold {other : ι} {number : String} (hother : intakes.ValidatedAsNew (schedule ++ [task]) other number) :
      intakes.ValidatedAsNew schedule other number ∨ other = task ∧ number = poNumber ∧ poNumber ∉ seen := by
    obtain ⟨result', hvalidated, hnew⟩ := hother
    rcases validated_concat.mp hvalidated with hvalidated | ⟨rfl, hlast⟩
    · exact .inl ⟨result', hvalidated, hnew⟩
    · rw [hcall] at hlast
      obtain ⟨-, rfl, rfl⟩ := SeenCall.add.inj (Option.some.inj hlast)
      exact .inr ⟨rfl, rfl, fun hmem => hnew (hverdict.mpr hmem)⟩
  have hfirst {other : ι} (hset : intakes.setOf other = intakes.setOf task) (hnew : poNumber ∉ seen) :
      ¬ intakes.ValidatedAsNew schedule other poNumber := by
    rintro ⟨result', hvalidated, -⟩
    have hmem := (h.noted other poNumber result' hvalidated).2
    rw [hset] at hmem
    exact hnew ((h.same task poNumber seen hstate hwaits).mpr hmem)
  constructor
  · intro other number seen' hother
    have hne : other ≠ task := by
      rintro rfl
      rw [Function.update_self] at hother
      cases hother
    rw [Function.update_of_ne hne] at hother
    obtain ⟨earlier, hearlier, hlook⟩ := h.looked other number seen' hother
    exact ⟨earlier, hearlier.trans (List.prefix_append _ _), hlook⟩
  · intro other number seen' hother hwaiting
    have hne : other ≠ task := by
      rintro rfl
      rw [Function.update_self] at hother
      cases hother
    rw [Function.update_of_ne hne] at hother
    rw [h.same other number seen' hother (hwaiting.before hcall)]
    refine ⟨hgrown, fun hmem => ?_⟩
    rw [seenAt_concat hcall] at hmem
    by_cases hset : intakes.setOf other = intakes.setOf task
    · rw [hset] at hmem ⊢
      simp only [answerSeen, Function.update_self, List.mem_cons] at hmem
      rcases hmem with rfl | hmem
      · exact absurd (h.alone task other number seen seen' hstate hother hwaits (hwaiting.before hcall) hset) hne
      · exact hmem
    · simp only [answerSeen, Function.update_of_ne hset] at hmem
      exact hmem
  · intro one other number seen' seen'' hone hother hwaiting hwaiting' hset
    have hne : one ≠ task := by
      rintro rfl
      rw [Function.update_self] at hone
      cases hone
    have hne' : other ≠ task := by
      rintro rfl
      rw [Function.update_self] at hother
      cases hother
    rw [Function.update_of_ne hne] at hone
    rw [Function.update_of_ne hne'] at hother
    exact h.alone one other number seen' seen'' hone hother (hwaiting.before hcall) (hwaiting'.before hcall) hset
  · intro other number result' hother
    rcases validated_concat.mp hother with hvalidated | ⟨rfl, hlast⟩
    · obtain ⟨hafter, hmem⟩ := h.noted other number result' hvalidated
      have hne : other ≠ task := by
        rintro rfl
        rw [hstate] at hafter
        cases hafter
      rw [Function.update_of_ne hne]
      exact ⟨hafter, hgrown hmem⟩
    · rw [hcall] at hlast
      obtain ⟨-, rfl, -⟩ := SeenCall.add.inj (Option.some.inj hlast)
      exact ⟨Function.update_self _ _ _, hadded⟩
  · intro one other number hset hone hother
    rcases hold hone with hbefore | ⟨rfl, rfl, hnew⟩
    · rcases hold hother with hbefore' | ⟨rfl, rfl, hnew⟩
      · exact h.news one other number hset hbefore hbefore'
      · exact absurd hbefore (hfirst hset.symm hnew)
    · rcases hold hother with hbefore' | ⟨rfl, -, -⟩
      · exact absurd hbefore' (hfirst hset hnew)
      · rfl

/-- A task that has looked for a number and still waits is validating it. -/
theorem validating_of_state {poNumber : String} {seen : List String}
    (hlooked : ∃ earlier, earlier ++ [task] <+: schedule ∧
      intakes.callAt earlier task = some (.seen (intakes.setOf task) poNumber))
    (h : (seenProtocol intakes.fleet.py (intakes.setOf task)).Ensures (fun _ _ => True)
      ((intakes.crewAt schedule).running task) (.validating poNumber seen)) (hwaits : intakes.Waiting schedule task) :
    intakes.Validating schedule task poNumber := by
  refine ⟨hlooked, ?_⟩
  cases hcall : intakes.callAt schedule task with
  | none => exact absurd hcall hwaits
  | some c =>
    obtain ⟨next, hrun⟩ := running_of_callAt hcall
    rw [hrun] at h
    have hallowed : SeenCalls intakes.fleet.py (intakes.setOf task) (.validating poNumber seen) c := h.1
    cases c with
    | base c =>
      obtain ⟨actor, args, rfl⟩ := hallowed
      exact .inl ⟨actor, args, rfl⟩
    | seen set number => exact hallowed.elim
    | add set number result =>
      obtain ⟨rfl, rfl, -⟩ := hallowed
      exact .inr ⟨result, rfl⟩

/-- A step does not make an overlap good again. -/
theorem NoOverlap.before (h : intakes.NoOverlap (schedule ++ [task])) : intakes.NoOverlap schedule :=
  fun moment one other poNumber hmoment => h moment one other poNumber (hmoment.trans (List.prefix_append _ _))

/-- While validations do not overlap everything is kept. -/
theorem kept_of_noOverlap (h : intakes.NoOverlap schedule) : ∃ states, intakes.Kept schedule states := by
  have hstart : intakes.Kept [] fun _ => .before := by
    constructor
    · intro task poNumber seen heq
      cases heq
    · intro task poNumber seen heq
      cases heq
    · intro task other poNumber seen seen' heq
      cases heq
    · rintro task poNumber result ⟨moment, hmoment, -⟩
      simp at hmoment
    · rintro task other poNumber - ⟨result, ⟨moment, hmoment, -⟩, -⟩
      simp at hmoment
  have hcall (schedule : List ι) (states : ι → Progress) (task : ι) (c : SeenCall κ)
      (next : Except Exc (SeenReply c) → SeenCoroutine κ Unit) (hoverlap : intakes.NoOverlap (schedule ++ [task]))
      (hkept : intakes.Kept schedule states)
      (htasks : ∀ other, (seenProtocol intakes.fleet.py (intakes.setOf other)).Ensures (fun _ _ => True)
        ((intakes.crewAt schedule).running other) (states other))
      (hrun : (intakes.crewAt schedule).running task = .await c next) :
      ∃ progress, SeenAnswers (states task) c (answerSeen intakes.answer (intakes.crewAt schedule).shared c).2 progress ∧
        intakes.Kept (schedule ++ [task]) (Function.update states task progress) := by
    have hwaits := callAt_of_running hrun
    have hallowed := htasks task
    rw [hrun] at hallowed
    have hallowed : SeenCalls intakes.fleet.py (intakes.setOf task) (states task) c := hallowed.1
    cases c with
    | base c =>
      refine ⟨states task, rfl, ?_⟩
      rw [Function.update_eq_self]
      exact hkept.base hwaits
    | seen set poNumber =>
      obtain ⟨hstate, rfl⟩ := hallowed.look
      refine ⟨_, rfl, hkept.look hstate hwaits ?_⟩
      intro other seen hne hset hother hpending
      exact hoverlap schedule task other poNumber List.prefix_rfl hwaits hne hset
        (validating_of_state (hkept.looked other poNumber seen hother) (hother ▸ htasks other) hpending)
    | add set poNumber result =>
      obtain ⟨rfl, seen, hstate, hverdict⟩ := hallowed.addition
      exact ⟨.after, rfl, hkept.add hstate hwaits hverdict⟩
  obtain ⟨states, hkept, -⟩ := Crew.exec_ensures_jointly (fun task => seenProtocol intakes.fleet.py (intakes.setOf task))
    (fun _ _ _ => True) intakes.NoOverlap intakes.Kept (fun _ => .before) (fun _ _ => NoOverlap.before) hstart
    (fun task => ensures_task task) hcall (fun _ _ _ hsame hover hkept => hkept.idle hsame hover) schedule h
  exact ⟨states, hkept⟩

/-! ## Sets of requests -/

variable (intakes)

/-- What is kept of a task with an empty set of its own: the set is empty until the task adds to it, so that it looks at an
empty set and validates no number as a duplicate. -/
structure KeptOwn (task : ι) (schedule : List ι) (states : ι → Progress) : Prop where
  empty : states task = .before → intakes.seenAt schedule (intakes.setOf task) = []
  looked : ∀ poNumber seen, states task = .validating poNumber seen → seen = []
  verdict : ∀ poNumber result, intakes.Validated schedule task poNumber result →
    duplicateReason intakes.fleet.py poNumber ∉ result.reasons

variable {intakes}

/-- A request validates no number as a duplicate. -/
theorem new_of_request {imageBase64 : String} (hrequest : intakes.intake task = .request imageBase64) {poNumber : String}
    {result : ValidationResult} (hvalidated : intakes.Validated schedule task poNumber result) :
    duplicateReason intakes.fleet.py poNumber ∉ result.reasons := by
  obtain ⟨hempty, hown⟩ := intakes.fresh task imageBase64 hrequest
  have hstart : intakes.KeptOwn task [] fun _ => .before := by
    refine ⟨fun _ => hempty, fun poNumber seen heq => (by cases heq), ?_⟩
    rintro number result' ⟨moment, hmoment, -⟩
    simp at hmoment
  have hcall (schedule : List ι) (states : ι → Progress) (last : ι) (c : SeenCall κ)
      (next : Except Exc (SeenReply c) → SeenCoroutine κ Unit) (hkept : intakes.KeptOwn task schedule states)
      (htasks : ∀ other, (seenProtocol intakes.fleet.py (intakes.setOf other)).Ensures (fun _ _ => True)
        ((intakes.crewAt schedule).running other) (states other))
      (hrun : (intakes.crewAt schedule).running last = .await c next) :
      ∃ progress, SeenAnswers (states last) c (answerSeen intakes.answer (intakes.crewAt schedule).shared c).2 progress ∧
        intakes.KeptOwn task (schedule ++ [last]) (Function.update states last progress) := by
    have hwaits := callAt_of_running hrun
    have hallowed := htasks last
    rw [hrun] at hallowed
    have hallowed : SeenCalls intakes.fleet.py (intakes.setOf last) (states last) c := hallowed.1
    cases c with
    | base c =>
      refine ⟨states last, rfl, ?_⟩
      rw [Function.update_eq_self]
      refine ⟨fun hstate => (seenAt_concat hwaits _).trans (hkept.empty hstate), hkept.looked, ?_⟩
      intro number result' hnumber
      rw [validated_concat_of_call (by simp [hwaits])] at hnumber
      exact hkept.verdict number result' hnumber
    | seen set number =>
      obtain ⟨hstate, rfl⟩ := hallowed.look
      refine ⟨_, rfl, ?_, ?_, ?_⟩
      · intro hbefore
        rw [seenAt_concat hwaits]
        apply hkept.empty
        by_cases hlast : task = last
        · rw [hlast, hstate]
        · rwa [Function.update_of_ne hlast] at hbefore
      · intro other seen hother
        by_cases hlast : task = last
        · subst hlast
          rw [Function.update_self] at hother
          obtain ⟨-, rfl⟩ := Progress.validating.inj hother
          exact hkept.empty hstate
        · rw [Function.update_of_ne hlast] at hother
          exact hkept.looked other seen hother
      · intro other result' hother
        rw [validated_concat_of_call (by simp [hwaits])] at hother
        exact hkept.verdict other result' hother
    | add set number result' =>
      obtain ⟨rfl, seen, hstate, hverdict⟩ := hallowed.addition
      refine ⟨.after, rfl, ?_, ?_, ?_⟩
      · intro hbefore
        have hlast : task ≠ last := by
          rintro rfl
          rw [Function.update_self] at hbefore
          cases hbefore
        rw [Function.update_of_ne hlast] at hbefore
        rw [seenAt_concat hwaits]
        simp only [answerSeen, Function.update_of_ne fun hset => hlast (hown last hset.symm).symm]
        exact hkept.empty hbefore
      · intro other seen' hother
        have hlast : task ≠ last := by
          rintro rfl
          rw [Function.update_self] at hother
          cases hother
        rw [Function.update_of_ne hlast] at hother
        exact hkept.looked other seen' hother
      · intro other result'' hother
        rcases validated_concat.mp hother with hbefore | ⟨rfl, hlast⟩
        · exact hkept.verdict other result'' hbefore
        · rw [hwaits] at hlast
          obtain ⟨-, rfl, rfl⟩ := SeenCall.add.inj (Option.some.inj hlast)
          rw [hverdict, hkept.looked number seen hstate]
          exact List.not_mem_nil
  have hidle (schedule : List ι) (states : ι → Progress) (last : ι)
      (hsame : intakes.crewAt (schedule ++ [last]) = intakes.crewAt schedule)
      (hover : ∀ c next, (intakes.crewAt schedule).running last ≠ .await c next)
      (hkept : intakes.KeptOwn task schedule states) : intakes.KeptOwn task (schedule ++ [last]) states := by
    refine ⟨fun hstate => ?_, hkept.looked, fun number result' hnumber => ?_⟩
    · rw [seenAt, hsame]
      exact hkept.empty hstate
    · apply hkept.verdict number result'
      rcases validated_concat.mp hnumber with hbefore | ⟨rfl, hlast⟩
      · exact hbefore
      · obtain ⟨next, hrun⟩ := running_of_callAt hlast
        exact absurd hrun (hover _ next)
  obtain ⟨states, hkept, -⟩ := Crew.exec_ensures_jointly (fun task => seenProtocol intakes.fleet.py (intakes.setOf task))
    (fun _ _ _ => True) (fun _ => True) (intakes.KeptOwn task) (fun _ => .before) (fun _ _ _ => trivial) hstart
    (fun task => ensures_task task) (fun schedule states last c next _ => hcall schedule states last c next) hidle schedule
    trivial
  exact hkept.verdict poNumber result hvalidated

/-- Runs that share a set validate each number as not a duplicate at most once, as long as none of them looks for a number
while another one is validating it; requests never find a duplicate. -/
theorem atMostOneNew_of_noOverlap (intakes : Intakes ι κ σ) (schedule : List ι) :
    (intakes.AllShare → intakes.NoOverlap schedule → intakes.AtMostOneNew schedule) ∧
      ∀ task imageBase64 poNumber result, intakes.intake task = .request imageBase64 →
        intakes.Validated schedule task poNumber result →
          duplicateReason intakes.fleet.py poNumber ∉ result.reasons := by
  constructor
  · intro hshare hoverlap task other poNumber htask hother
    obtain ⟨states, hkept⟩ := kept_of_noOverlap hoverlap
    exact (hkept.news task other poNumber (hshare.2 other task) htask hother).symm
  · exact fun task imageBase64 poNumber result hrequest hvalidated => new_of_request hrequest hvalidated

end Intakes

/-! ## Two invoices of one order -/

/-- A fleet in which only the invoice agent reads anything. -/
def invoiceFleet : Fleet where
  py := wholeAmounts
  exceedsTolerance _ _ := false
  detectInjection _ := .ok false
  hr := ⟨"", fun _ => .ok [], fun _ _ => .ok []⟩
  dealer := ⟨"", fun _ => .error ⟨.parseError, ""⟩, id⟩
  insights := ⟨fun _ _ => .ok [], fun _ => .ok ("", ""), fun _ _ => .ok []⟩
  listing := ⟨fun _ _ _ _ _ => .ok [], fun _ => .ok []⟩
  legal := ⟨fun _ _ => .ok [], fun _ _ _ => .ok ([], [])⟩
  analyticsReply _ _ _ := return ""
  ragReply _ _ _ := return ""
  analyticsReply_only _ _ _ := trivial
  ragReply_only _ _ _ := trivial

/-- Every image shows the invoice of five liras, and its order is there. -/
def oneInvoice (_ : Unit) : (c : Call) → Unit × Except Exc (Reply c)
  | .findAgent _ => ((), .ok (some ⟨1, agentName, "active", "confidential", []⟩))
  | .uuid4 => ((), .ok "run")
  | .loadCheckpoint _ => ((), .ok none)
  | .tool _ tool _ => ((), .ok (if tool = pgRoQuery then .arr (orderRows "TRY") else .obj [("text", .str "")]))
  | .llm _ _ _ _ => ((), .ok ⟨liraReply, .null⟩)
  | .buildClient | .enter _ _ | .putCheckpoint _ _ => ((), .ok ())
  | _ => ((), .error ⟨.typeError, ""⟩)

/-- Two requests with the same invoice. -/
def twoRequests : Intakes Bool Bool Unit where
  fleet := invoiceFleet
  answer := oneInvoice
  world := ()
  intake _ := .request "image"
  setOf := id
  seenBefore _ := []
  fresh _ _ _ := ⟨rfl, fun _ h => h⟩

/-- Two runs with the same invoice and a set that they share. -/
def twoRuns : Intakes Bool Unit Unit where
  fleet := invoiceFleet
  answer := oneInvoice
  world := ()
  intake _ := .run ⟨agentName, "run"⟩ none [("image_base64", .str "image")]
  setOf _ := ()
  seenBefore _ := []
  fresh _ _ h := by cases h

/-- A task waits to add the number of the invoice, which was not found to be a duplicate. -/
def Intakes.addsNew {κ : Type} [DecidableEq κ] (intakes : Intakes Bool κ Unit) (moment : List Bool) (task : Bool) : Bool :=
  match intakes.callAt moment task with
  | some (.add set poNumber result) =>
    set = intakes.setOf task && poNumber = "1" && !result.reasons.contains (duplicateReason intakes.fleet.py "1")
  | _ => false

/-- A task that does so validates the number as not a duplicate with its next step. -/
theorem Intakes.validatedAsNew_of_addsNew {κ : Type} [DecidableEq κ] {intakes : Intakes Bool κ Unit}
    {moment schedule : List Bool} {task : Bool} (hmoment : moment ++ [task] <+: schedule)
    (h : intakes.addsNew moment task = true) : intakes.ValidatedAsNew schedule task "1" := by
  rw [addsNew] at h
  split at h
  · rename_i set poNumber result hcall
    simp only [Bool.and_eq_true, decide_eq_true_eq, Bool.not_eq_true', List.contains_eq_mem, decide_eq_false_iff_not] at h
    obtain ⟨⟨rfl, rfl⟩, hnew⟩ := h
    exact ⟨result, ⟨moment, hmoment, hcall⟩, hnew⟩
  · cases h

/-- One request after the other. -/
def inTurn : List Bool := List.replicate 17 false ++ List.replicate 17 true

/-- One run while the other one waits for the purchase order. -/
def overlapping : List Bool := List.replicate 12 false ++ List.replicate 14 true ++ List.replicate 2 false

set_option maxRecDepth 20000 in
/-- Two requests one after the other, and two overlapping runs with one set, validate the same number as not a
duplicate. -/
theorem not_atMostOneNew : (twoRequests.AllRequests ∧ ¬ twoRequests.AtMostOneNew inTurn) ∧
    twoRuns.AllShare ∧ ¬ twoRuns.AtMostOneNew overlapping := by
  have hrequest : twoRequests.addsNew (List.replicate 16 false) false = true := by decide +kernel
  have hrequest' : twoRequests.addsNew (List.replicate 17 false ++ List.replicate 16 true) true = true := by decide +kernel
  have hrun : twoRuns.addsNew (List.replicate 12 false ++ List.replicate 13 true) true = true := by decide +kernel
  have hrun' : twoRuns.addsNew (List.replicate 12 false ++ List.replicate 14 true ++ [false]) false = true := by
    decide +kernel
  refine ⟨⟨fun _ => ⟨_, rfl⟩, fun h => ?_⟩, ⟨fun _ => ⟨_, _, _, rfl⟩, fun _ _ => rfl⟩, fun h => ?_⟩
  · have hsame := h false true "1" (Intakes.validatedAsNew_of_addsNew (by decide) hrequest)
      (Intakes.validatedAsNew_of_addsNew (by decide) hrequest')
    cases hsame
  · have hsame := h false true "1" (Intakes.validatedAsNew_of_addsNew (by decide) hrun')
      (Intakes.validatedAsNew_of_addsNew (by decide) hrun)
    cases hsame

end FleetWorkflow.Api
