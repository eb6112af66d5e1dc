import FleetWorkflow.N8n.Acknowledgements
import FleetWorkflow.N8n.Deployment
import FleetWorkflow.Recipes.Scoping

/-!
# Activation in Fleet and in n8n

When the workflow of an active recipe is active in n8n. A request restores the agreement unless it
recreates the workflow of an active recipe, which starts inactive, or the answer of n8n to an
activation or a deactivation does not tell what n8n did.
-/

namespace FleetWorkflow.N8n

open Python Async Recipes Api Store

/-- Every active recipe has a workflow that exists and was last set active, the ids of a list excepted. -/
def World.Agrees (w : World) (excepted : List String) : Prop :=
  ∀ row ∈ w.recipes.rows, row.active = true →
    ∃ id, row.n8nWorkflowId = some id ∧ (w.workflows id = some true ∨ id ∈ excepted)

/-- The occurrences that keep the two systems together: no update of an active recipe is answered as
if its workflow were gone, n8n activates what it refuses to activate without a reason, or has it
active already, and n8n does not deactivate a workflow and then report an error. -/
def Occurrence.Plain (w : World) : Occurrence → Prop
  | .request (.update recipeId _) events =>
    ∀ row, w.recipes.row recipeId = some row → row.active = true →
      ∀ id payload answer turn, (asked (.updateWorkflow id payload) answer, turn) ∈ events → answer.gone = false
  | .request (.activate _) events =>
    ∀ id answer turn, (asked (.setActive id true) answer, turn) ∈ events → answer.silentRefusal = true →
      turn.carriedOut = true ∨ w.workflows id = some true
  | .request (.deactivate recipeId) events =>
    ∀ row, w.recipes.row recipeId = some row → row.active = true →
      ∀ id answer turn, (asked (.setActive id false) answer, turn) ∈ events → turn.carriedOut = true →
        looksSuccessful answer
  | _ => True

/-- A request takes back the active flag of a recipe: it deletes the recipe, or deactivates it with
an answer that looks like a success. -/
def RecipeRequest.TakesBack (recipeId : ℕ) (events : List Event) : RecipeRequest → Prop
  | .delete deleted => deleted = recipeId
  | .deactivate deactivated => deactivated = recipeId ∧
      ∃ id answer turn, (asked (.setActive id false) answer, turn) ∈ events ∧ looksSuccessful answer
  | _ => False

/-- No workflow of an active recipe was deleted inside n8n between the start of the last request and
that of the next one, unless the next one takes back the flag. -/
def Occurrence.Undisturbed (w : World) : Occurrence → Prop
  | .request made events =>
    ∀ row ∈ w.recipes.rows, row.active = true → ¬ made.TakesBack row.id events →
      ∀ id, row.n8nWorkflowId = some id → id ∉ w.recent
  | .deletedInside _ => True

/-! ## What one call preserves -/

/-- The request makes a workflow inactive or deletes it. -/
def N8nRequest.Stops (id : String) : N8nRequest → Prop
  | .deleteWorkflow other => other = id
  | .setActive other active => other = id ∧ active = false
  | _ => False

/-- The workflow of an id is active or excepted. -/
def World.Runs (w : World) (base : List String) (id : String) : Prop :=
  w.workflows id = some true ∨ id ∈ base ++ w.recent

/-- An active row has a workflow that is active or excepted. -/
def World.RowAgrees (w : World) (base : List String) (row : RecipeRow) : Prop :=
  row.active = true → ∃ id, storedId row.n8nWorkflowId = some id ∧ w.Runs base id

/-- The stored ids have been issued, each to one row, and every row that is not spared agrees. -/
structure World.Tracks (w : World) (base : List String) (spared : Option ℕ) : Prop where
  issued : ∀ recipeId row, w.recipes.row recipeId = some row →
    ∀ id, storedId row.n8nWorkflowId = some id → id ∈ w.issued
  distinct : ∀ recipeId recipeId' row row', w.recipes.row recipeId = some row →
    w.recipes.row recipeId' = some row' → ∀ id, storedId row.n8nWorkflowId = some id →
      storedId row'.n8nWorkflowId = some id → recipeId = recipeId'
  agrees : ∀ recipeId row, w.recipes.row recipeId = some row → some recipeId ≠ spared → w.RowAgrees base row

namespace World

variable {w : World} {base : List String} {spared : Option ℕ}

/-- A deletion inside n8n excepts the workflows that it deletes. -/
theorem Runs.deleteInside {id : String} (h : w.Runs base id) (ids : List String) :
    (w.deleteInside ids).Runs base id := by
  rcases h with hactive | hexcepted
  · by_cases hid : id ∈ ids
    · right
      simp [World.deleteInside, hid, hactive]
    · left
      simp [World.deleteInside, hid, hactive]
  · right
    simp only [List.mem_append, World.deleteInside] at hexcepted ⊢
    rcases hexcepted with hbase | hrecent
    · exact .inl hbase
    · exact .inr (.inl hrecent)

/-- A request that n8n carries out leaves a workflow active unless it stops it. -/
theorem Runs.carryOut {id created : String} {request : N8nRequest} (h : w.Runs base id)
    (hcreated : ∀ payload, request = .createWorkflow payload → id ≠ created) (hstops : ¬ request.Stops id) :
    (w.carryOut created request).Runs base id := by
  rw [Runs, carryOut_recent]
  rcases h with hactive | hexcepted
  · left
    cases request with
    | createWorkflow payload =>
      simp only [World.carryOut]
      rw [Function.update_of_ne (hcreated payload rfl)]
      exact hactive
    | deleteWorkflow other =>
      simp only [World.carryOut]
      rw [Function.update_of_ne (fun heq => hstops heq.symm)]
      exact hactive
    | setActive other active =>
      simp only [World.carryOut, Function.update_apply]
      split
      · rename_i heq
        cases active with
        | true => rfl
        | false => exact absurd ⟨heq.symm, rfl⟩ hstops
      · exact hactive
    | _ => exact hactive
  · exact .inr hexcepted

/-- What a call to n8n leaves active. -/
theorem Runs.act_asked {id : String} {turn : Turn} {request : N8nRequest} {answer : HttpAnswer}
    (h : w.Runs base id) (hissued : id ∈ w.issued) (hhonest : HonestAnswer w turn request answer)
    (hstops : turn.carriedOut = true → ¬ request.Stops id) : (w.act turn (asked request answer)).Runs base id := by
  simp only [act, asked]
  split
  · rename_i hcarried
    apply h.carryOut
    · intro payload hrequest heq
      have hnew := hhonest.possible hcarried
      rw [hrequest] at hnew
      exact hnew (heq ▸ hissued)
    · exact hstops hcarried
  · exact h

/-- No call forgets an id. -/
theorem act_asked_issued {id : String} (turn : Turn) (request : N8nRequest) (answer : HttpAnswer)
    (h : id ∈ w.issued) : id ∈ (w.act turn (asked request answer)).issued := by
  simp only [act, asked]
  split
  · cases request with
    | createWorkflow payload => exact List.mem_cons_of_mem _ h
    | _ => exact h
  · exact h

/-- Deletions inside n8n. -/
theorem Tracks.deleteInside (h : w.Tracks base spared) (ids : List String) :
    (w.deleteInside ids).Tracks base spared where
  issued := h.issued
  distinct := h.distinct
  agrees := by
    intro recipeId row hrow hspared hactive
    obtain ⟨id, hid, hruns⟩ := h.agrees recipeId row hrow hspared hactive
    exact ⟨id, hid, hruns.deleteInside ids⟩

/-- A call to n8n that stops no workflow but one of the spared row. -/
theorem Tracks.act_asked {turn : Turn} {request : N8nRequest} {answer : HttpAnswer} (h : w.Tracks base spared)
    (hhonest : HonestAnswer w turn request answer)
    (hstops : ∀ recipeId row, w.recipes.row recipeId = some row → some recipeId ≠ spared →
      ∀ id, storedId row.n8nWorkflowId = some id → ¬ request.Stops id) :
    (w.act turn (asked request answer)).Tracks base spared where
  issued := by
    intro recipeId row hrow id hid
    rw [act_asked_recipes] at hrow
    exact act_asked_issued turn request answer (h.issued recipeId row hrow id hid)
  distinct := by
    rw [act_asked_recipes]
    exact h.distinct
  agrees := by
    intro recipeId row hrow hspared hactive
    rw [act_asked_recipes] at hrow
    obtain ⟨id, hid, hruns⟩ := h.agrees recipeId row hrow hspared hactive
    exact ⟨id, hid, hruns.act_asked (h.issued recipeId row hrow id hid) hhonest
      fun _ => hstops recipeId row hrow hspared id hid⟩

/-- A row that agrees stands in for the spared one. -/
theorem Tracks.unspare {recipeId : ℕ} (h : w.Tracks base (some recipeId))
    (hrow : ∀ row, w.recipes.row recipeId = some row → w.RowAgrees base row) : w.Tracks base none where
  issued := h.issued
  distinct := h.distinct
  agrees := by
    intro recipeId' row hrow' _
    by_cases heq : recipeId' = recipeId
    · subst heq
      exact hrow row hrow'
    · exact h.agrees recipeId' row hrow' (by simpa using heq)

/-- Sparing a row asks for less. -/
theorem Tracks.spare (h : w.Tracks base none) (recipeId : ℕ) : w.Tracks base (some recipeId) where
  issued := h.issued
  distinct := h.distinct
  agrees recipeId row hrow _ := h.agrees recipeId row hrow (by simp)

/-- A commit of a row that agrees, under an id of n8n that no other row holds. -/
theorem Tracks.store {row : RecipeRow} (h : w.Tracks base (some row.id))
    (hrow : row.id = w.recipes.next ∨ ∃ old, w.recipes.row row.id = some old)
    (hissued : ∀ id, storedId row.n8nWorkflowId = some id → id ∈ w.issued)
    (hdistinct : ∀ recipeId other, w.recipes.row recipeId = some other → recipeId ≠ row.id →
      ∀ id, storedId row.n8nWorkflowId = some id → storedId other.n8nWorkflowId ≠ some id)
    (hagrees : w.RowAgrees base row) : (w.store row).Tracks base none where
  issued := by
    intro recipeId other hother
    rw [store_row hrow] at hother
    split at hother
    · cases hother
      exact hissued
    · exact h.issued recipeId other hother
  distinct := by
    intro recipeId recipeId' other other' hother hother' id hid hid'
    rw [store_row hrow] at hother hother'
    split at hother
    · rename_i heq
      split at hother'
      · rename_i heq'
        rw [heq, heq']
      · rename_i hne
        cases hother
        exact absurd hid' (hdistinct recipeId' other' hother' hne id hid)
    · rename_i hne
      split at hother'
      · cases hother'
        exact absurd hid (hdistinct recipeId other hother hne id hid')
      · exact h.distinct recipeId recipeId' other other' hother hother' id hid hid'
  agrees := by
    intro recipeId other hother _
    rw [store_row hrow] at hother
    split at hother
    · cases hother
      exact hagrees
    · rename_i hne
      exact h.agrees recipeId other hother (by simpa using hne)

/-- A deletion of the spared row. -/
theorem Tracks.delete {recipeId : ℕ} (h : w.Tracks base (some recipeId)) :
    ({ w with recipes := w.recipes.delete recipeId } : World).Tracks base none where
  issued := by
    intro other row hrow
    rw [Table.row_delete] at hrow
    split at hrow
    · cases hrow
    · exact h.issued other row hrow
  distinct := by
    intro other other' row row' hrow hrow' id hid hid'
    rw [Table.row_delete] at hrow hrow'
    split at hrow
    · cases hrow
    · split at hrow'
      · cases hrow'
      · exact h.distinct other other' row row' hrow hrow' id hid hid'
  agrees := by
    intro other row hrow _
    rw [Table.row_delete] at hrow
    split at hrow
    · cases hrow
    · rename_i hne
      exact h.agrees other row hrow (by simpa using hne)

/-- One call to n8n, the deletions inside n8n included. -/
theorem Tracks.serve_asked {turn : Turn} {request : N8nRequest} {answer : HttpAnswer} (h : w.Tracks base spared)
    (hhonest : HonestAnswer (w.deleteInside turn.deleted) turn request answer)
    (hstops : ∀ recipeId row, w.recipes.row recipeId = some row → some recipeId ≠ spared →
      ∀ id, storedId row.n8nWorkflowId = some id → ¬ request.Stops id) :
    (w.serve (asked request answer, turn)).Tracks base spared :=
  (h.deleteInside turn.deleted).act_asked hhonest hstops

/-- What one call to n8n leaves active. -/
theorem Runs.serve_asked {id : String} {turn : Turn} {request : N8nRequest} {answer : HttpAnswer}
    (h : w.Runs base id) (hissued : id ∈ w.issued)
    (hhonest : HonestAnswer (w.deleteInside turn.deleted) turn request answer)
    (hstops : turn.carriedOut = true → ¬ request.Stops id) :
    (w.serve (asked request answer, turn)).Runs base id :=
  (h.deleteInside turn.deleted).act_asked hissued hhonest hstops

end World

/-! ## What a deploy preserves -/

/-- The first call of a trace was served in its own turn. -/
theorem follows_of_cons {w : World} {events : List Event} {served : Served RecipeCall RecipeCall.Reply}
    {rest : RecipeTrace} (h : events.map Prod.fst = served :: rest) (hfollows : Follows w events) :
    ∃ turn events', events = (served, turn) :: events' ∧ events'.map Prod.fst = rest ∧
      Honest (w.deleteInside turn.deleted) turn served ∧ Follows (w.serve (served, turn)) events' := by
  obtain ⟨⟨served', turn⟩, events', rfl, rfl, hrest⟩ := List.map_eq_cons_iff.mp h
  exact ⟨turn, events', rfl, hrest, hfollows.1, hfollows.2⟩

/-- The calls of a trace in two parts. -/
theorem follows_append {w : World} {events events' : List Event} :
    Follows w (events ++ events') ↔ Follows w events ∧ Follows (w.after events) events' := by
  induction events generalizing w with
  | nil => simp [Follows, World.after]
  | cons event events ih =>
    simp only [List.cons_append, Follows, ih, World.after, List.foldl_cons]
    exact and_assoc.symm

/-- The world after a trace in two parts. -/
theorem World.after_append (w : World) (events events' : List Event) :
    w.after (events ++ events') = (w.after events).after events' := List.foldl_append

/-- The id has been issued and no row but one stores it. -/
def World.Holds (w : World) (recipeId : ℕ) (workflowId : Option String) : Prop :=
  ∀ id, storedId workflowId = some id → id ∈ w.issued ∧
    ∀ other row, w.recipes.row other = some row → other ≠ recipeId → storedId row.n8nWorkflowId ≠ some id

section Deploy

variable {w : World} {base : List String} {recipeId : ℕ}

/-- A call to n8n takes no id from a row. -/
theorem World.Holds.serve_asked {workflowId : Option String} {turn : Turn} {request : N8nRequest}
    {answer : HttpAnswer} (h : w.Holds recipeId workflowId) :
    (w.serve (asked request answer, turn)).Holds recipeId workflowId := by
  intro id hid
  refine ⟨World.act_asked_issued turn request answer (h id hid).1, ?_⟩
  intro other row hrow
  rw [World.serve, World.act_asked_recipes] at hrow
  exact (h id hid).2 other row hrow

/-- A new workflow has an id of its own. -/
theorem World.Tracks.holds_created {texts : RecipeTexts} {turn : Turn} {payload : Workflow} {answer : HttpAnswer}
    {fields : Dict} (h : w.Tracks base (some recipeId))
    (hhonest : HonestAnswer (w.deleteInside turn.deleted) turn (.createWorkflow payload) answer)
    (hobject : answer.object = some fields) :
    (w.serve (asked (.createWorkflow payload) answer, turn)).Holds recipeId
      (some (texts.py.str ((Json.get? fields "id").getD .null))) := by
  have hcarried : turn.carriedOut = true := hhonest.success (success_of_object hobject)
  have hnew : turn.created ∉ w.issued := hhonest.possible hcarried
  intro id hid
  rw [hhonest.created payload rfl fields hobject] at hid
  obtain ⟨rfl, -⟩ : turn.created = id ∧ id ≠ "" := by
    simpa [storedId, Builtins.str, Option.filter_eq_some_iff] using hid
  constructor
  · simp [World.serve, World.act, asked, hcarried, World.carryOut]
  · intro other row hrow _ hother
    rw [World.serve, World.act_asked_recipes] at hrow
    exact hnew (h.issued other row hrow _ hother)

/-- A deploy stops no workflow, and the id to store afterwards belongs to its recipe alone. -/
theorem deploy_tracks {texts : RecipeTexts} {workflowId workflowId' error : Option String} {course : RecipeTrace}
    {events : List Event} (h : DeployCourse texts workflowId course (.ok (error, workflowId')))
    (hevents : events.map Prod.fst = course) (hfollows : Follows w events)
    (htracks : w.Tracks base (some recipeId)) (hholds : w.Holds recipeId workflowId) :
    (w.after events).Tracks base (some recipeId) ∧ (w.after events).Holds recipeId workflowId' ∧
      (w.after events).recipes = w.recipes := by
  cases h with
  | updated hid =>
    obtain ⟨turn, rest, rfl, hrest, hhonest, hfollows⟩ := follows_of_cons hevents hfollows
    obtain rfl := List.map_eq_nil_iff.mp hrest
    exact ⟨htracks.serve_asked hhonest (by simp [N8nRequest.Stops]), hholds.serve_asked,
      by simp [World.after, World.serve]⟩
  | created hid hobject =>
    obtain ⟨turn, rest, rfl, hrest, hhonest, hfollows⟩ := follows_of_cons hevents hfollows
    obtain rfl := List.map_eq_nil_iff.mp hrest
    exact ⟨htracks.serve_asked hhonest (by simp [N8nRequest.Stops]), htracks.holds_created hhonest hobject,
      by simp [World.after, World.serve]⟩
  | notCreated hid =>
    obtain ⟨turn, rest, rfl, hrest, hhonest, hfollows⟩ := follows_of_cons hevents hfollows
    obtain rfl := List.map_eq_nil_iff.mp hrest
    exact ⟨htracks.serve_asked hhonest (by simp [N8nRequest.Stops]), hholds.serve_asked,
      by simp [World.after, World.serve]⟩
  | recreated hid hgone hobject =>
    obtain ⟨turn, rest, rfl, hrest, hhonest, hfollows⟩ := follows_of_cons hevents hfollows
    have hmissed := htracks.serve_asked hhonest (by simp [N8nRequest.Stops])
    obtain ⟨turn', rest', rfl, hrest', hhonest', hfollows'⟩ := follows_of_cons hrest hfollows
    obtain rfl := List.map_eq_nil_iff.mp hrest'
    refine ⟨hmissed.serve_asked hhonest' (by simp [N8nRequest.Stops]), hmissed.holds_created hhonest' hobject, ?_⟩
    simp [World.after, World.serve]
  | notRecreated hid hgone =>
    obtain ⟨turn, rest, rfl, hrest, hhonest, hfollows⟩ := follows_of_cons hevents hfollows
    have hmissed := htracks.serve_asked hhonest (by simp [N8nRequest.Stops])
    obtain ⟨turn', rest', rfl, hrest', hhonest', hfollows'⟩ := follows_of_cons hrest hfollows
    obtain rfl := List.map_eq_nil_iff.mp hrest'
    refine ⟨hmissed.serve_asked hhonest' (by simp [N8nRequest.Stops]), fun id hid => by simp [storedId] at hid, ?_⟩
    simp [World.after, World.serve]

/-- A deploy that does not find its workflow gone leaves it active. -/
theorem deploy_runs {texts : RecipeTexts} {workflowId workflowId' error : Option String} {course : RecipeTrace}
    {events : List Event} {id : String} (h : DeployCourse texts workflowId course (.ok (error, workflowId')))
    (hevents : events.map Prod.fst = course) (hfollows : Follows w events) (hid : storedId workflowId = some id)
    (hplain : ∀ id payload answer turn, (asked (.updateWorkflow id payload) answer, turn) ∈ events →
      answer.gone = false)
    (hissued : id ∈ w.issued) (hruns : w.Runs base id) :
    workflowId' = workflowId ∧ (w.after events).Runs base id := by
  cases h with
  | updated _ =>
    obtain ⟨turn, rest, rfl, hrest, hhonest, hfollows⟩ := follows_of_cons hevents hfollows
    obtain rfl := List.map_eq_nil_iff.mp hrest
    exact ⟨rfl, hruns.serve_asked hissued hhonest (by simp [N8nRequest.Stops])⟩
  | created hnone _ => simp [hid] at hnone
  | notCreated hnone => simp [hid] at hnone
  | recreated _ hgone _ =>
    obtain ⟨turn, rest, rfl, -, -, -⟩ := follows_of_cons hevents hfollows
    rw [hplain _ _ _ turn List.mem_cons_self] at hgone
    cases hgone
  | notRecreated _ hgone =>
    obtain ⟨turn, rest, rfl, -, -, -⟩ := follows_of_cons hevents hfollows
    rw [hplain _ _ _ turn List.mem_cons_self] at hgone
    cases hgone

end Deploy

/-! ## What a request preserves -/

section Requests

variable {texts : RecipeTexts} {w : World} {base : List String} {recipeId : ℕ} {events : List Event}

/-- A commit, the deletions inside n8n included. -/
theorem World.Tracks.serve_committed {turn : Turn} {row : RecipeRow} (h : w.Tracks base (some row.id))
    (hrow : row.id = w.recipes.next ∨ ∃ old, w.recipes.row row.id = some old)
    (hholds : w.Holds row.id row.n8nWorkflowId) (hagrees : w.RowAgrees base row) :
    (w.serve (committed row, turn)).Tracks base none := by
  apply (h.deleteInside turn.deleted).store hrow
  · exact fun id hid => (hholds id hid).1
  · exact fun other stored hother hne id hid => (hholds id hid).2 other stored hother hne
  · intro hactive
    obtain ⟨id, hid, hruns⟩ := hagrees hactive
    exact ⟨id, hid, hruns.deleteInside turn.deleted⟩

/-- A row keeps its own id for itself. -/
theorem World.Tracks.holds {spared : Option ℕ} {row : RecipeRow} (h : w.Tracks base spared)
    (hrow : w.recipes.row recipeId = some row) : w.Holds recipeId row.n8nWorkflowId := by
  intro id hid
  refine ⟨h.issued recipeId row hrow id hid, ?_⟩
  intro other row' hrow' hne hid'
  exact hne (h.distinct other recipeId row' row hrow' hrow id hid' hid)

/-- Only the row that stores a workflow is concerned when it is stopped. -/
theorem World.Tracks.not_stops {spared : Option ℕ} {row : RecipeRow} {request : N8nRequest} {id : String}
    (h : w.Tracks base spared) (hrow : w.recipes.row recipeId = some row)
    (hid : storedId row.n8nWorkflowId = some id) (hrequest : ∀ other, request.Stops other → other = id) :
    ∀ recipeId' row', w.recipes.row recipeId' = some row' → some recipeId' ≠ some recipeId →
      ∀ other, storedId row'.n8nWorkflowId = some other → ¬ request.Stops other := by
  intro recipeId' row' hrow' hne other hother hstops
  rw [hrequest other hstops] at hother
  exact hne (congrArg some (h.distinct recipeId' recipeId row' row hrow' hrow id hother hid))

/-- Creating a recipe. -/
theorem create_tracks {sub : String} {body : RawRecipe} {result : Except Exc RecipeOut}
    (hgoes : (createRecipe texts sub body).Goes (events.map Prod.fst) result) (hfollows : Follows w events)
    (htracks : w.Tracks base none) : (w.after events).Tracks base none := by
  rcases createRecipe_goes hgoes with htrace | ⟨name, row, htrace⟩ | ⟨name, id, htrace⟩ |
    ⟨name, id, course, error, row, htrace, hcourse, rfl, hinactive⟩
  · obtain rfl := List.map_eq_nil_iff.mp htrace
    exact htracks
  · obtain ⟨turn, rest, rfl, hrest, -, -⟩ := follows_of_cons htrace hfollows
    obtain rfl := List.map_eq_nil_iff.mp hrest
    exact htracks.deleteInside turn.deleted
  · obtain ⟨turn, rest, rfl, hrest, -, hfollows⟩ := follows_of_cons htrace hfollows
    obtain ⟨turn', rest', rfl, hrest', -, -⟩ := follows_of_cons hrest hfollows
    obtain rfl := List.map_eq_nil_iff.mp hrest'
    exact (htracks.deleteInside turn.deleted).deleteInside turn'.deleted
  · obtain ⟨turn, rest, rfl, hrest, -, hfollows⟩ := follows_of_cons htrace hfollows
    obtain ⟨turn', rest', rfl, hrest', hnext, hfollows⟩ := follows_of_cons hrest hfollows
    obtain ⟨deploying, committing, rfl, hdeploying, hcommitting⟩ := List.map_eq_append_iff.mp hrest'
    obtain ⟨hfollows, hcommit⟩ := follows_append.mp hfollows
    have hread := ((htracks.deleteInside turn.deleted).deleteInside turn'.deleted).spare row.id
    obtain ⟨hdeployed, hholds, hrecipes⟩ :=
      deploy_tracks hcourse hdeploying hfollows hread (fun id hid => by simp [storedId] at hid)
    obtain ⟨last, rest, rfl, hlast, -, -⟩ := follows_of_cons hcommitting hcommit
    obtain rfl := List.map_eq_nil_iff.mp hlast
    change (World.after _ (deploying ++ [(committed row, last)])).Tracks base none
    rw [World.after_append]
    apply hdeployed.serve_committed
    · left
      rw [hrecipes]
      exact hnext
    · exact hholds
    · intro hactive
      rw [hinactive] at hactive
      cases hactive

/-- Updating a recipe. -/
theorem update_tracks {body : RawRecipe} {result : Except Exc RecipeOut}
    (hgoes : (updateRecipe texts recipeId body).Goes (events.map Prod.fst) result) (hfollows : Follows w events)
    (hplain : ∀ row, w.recipes.row recipeId = some row → row.active = true → ∀ id payload answer turn,
      (asked (.updateWorkflow id payload) answer, turn) ∈ events → answer.gone = false)
    (htracks : w.Tracks base none) : (w.after events).Tracks base none := by
  rcases updateRecipe_goes hgoes with ⟨row, htrace⟩ | ⟨row, row', course, error, htrace, hcourse, hsame, hflag⟩
  · obtain ⟨turn, rest, rfl, hrest, -, -⟩ := follows_of_cons htrace hfollows
    obtain rfl := List.map_eq_nil_iff.mp hrest
    exact htracks.deleteInside turn.deleted
  · obtain ⟨turn, rest, rfl, hrest, hfound, hfollows⟩ := follows_of_cons htrace hfollows
    obtain ⟨deploying, committing, rfl, hdeploying, hcommitting⟩ := List.map_eq_append_iff.mp hrest
    obtain ⟨hdeploy, hcommit⟩ := follows_append.mp hfollows
    replace hdeploy : Follows (w.deleteInside turn.deleted) deploying := hdeploy
    have hrow : w.recipes.row recipeId = some row := hfound.symm
    obtain rfl : row.id = recipeId := w.recipes.keyed recipeId row hrow
    have hread := htracks.deleteInside turn.deleted
    have hown : (w.deleteInside turn.deleted).Holds row.id row.n8nWorkflowId := hread.holds hrow
    obtain ⟨hdeployed, hholds, hrecipes⟩ := deploy_tracks hcourse hdeploying hdeploy (hread.spare row.id) hown
    obtain ⟨last, rest, rfl, hlast, -, -⟩ := follows_of_cons hcommitting hcommit
    obtain rfl := List.map_eq_nil_iff.mp hlast
    change (World.after _ (deploying ++ [(committed row', last)])).Tracks base none
    rw [World.after_append]
    rw [← hsame] at hdeployed hholds
    apply hdeployed.serve_committed
    · right
      rw [hsame]
      exact ⟨row, hrecipes ▸ hrow⟩
    · exact hholds
    · intro hactive
      rw [hflag] at hactive
      obtain ⟨id, hid, hruns⟩ := hread.agrees row.id row hrow (by simp) hactive
      have hplain' := hplain row hrow hactive
      obtain ⟨hsameId, hruns'⟩ := deploy_runs hcourse hdeploying hdeploy hid
        (fun id payload answer turn hmem => hplain' id payload answer turn (by simp [hmem])) (hown id hid).1 hruns
      exact ⟨id, by rw [hsameId]; exact hid, hruns'⟩

/-- A workflow that n8n activates runs afterwards, and so does one that was active before. -/
theorem World.Runs.of_setActive {turn : Turn} {id : String} {answer : HttpAnswer} (hissued : id ∈ w.issued)
    (hhonest : HonestAnswer (w.deleteInside turn.deleted) turn (.setActive id true) answer)
    (h : turn.carriedOut = true ∨ w.workflows id = some true) :
    (w.serve (asked (.setActive id true) answer, turn)).Runs base id := by
  rcases h with hcarried | hactive
  · left
    simp [World.serve, World.act, asked, hcarried, World.carryOut]
  · have hruns : w.Runs base id := .inl hactive
    exact hruns.serve_asked hissued hhonest (by simp [N8nRequest.Stops])

/-- Activating a recipe. -/
theorem activate_tracks {result : Except Exc RecipeActionOut}
    (hgoes : (activateRecipe recipeId).Goes (events.map Prod.fst) result) (hfollows : Follows w events)
    (hplain : ∀ id answer turn, (asked (.setActive id true) answer, turn) ∈ events →
      answer.silentRefusal = true → turn.carriedOut = true ∨ w.workflows id = some true)
    (htracks : w.Tracks base none) : (w.after events).Tracks base none := by
  rcases setRecipeActive_goes hgoes with ⟨row, htrace, -⟩ |
    ⟨row, id, answer, hid, ⟨htrace, -, -⟩ | ⟨htrace, hsuccess, -⟩⟩
  · obtain ⟨turn, rest, rfl, hrest, -, -⟩ := follows_of_cons htrace hfollows
    obtain rfl := List.map_eq_nil_iff.mp hrest
    exact htracks.deleteInside turn.deleted
  · obtain ⟨turn, rest, rfl, hrest, -, hfollows⟩ := follows_of_cons htrace hfollows
    obtain ⟨turn', rest', rfl, hrest', hhonest, -⟩ := follows_of_cons hrest hfollows
    obtain rfl := List.map_eq_nil_iff.mp hrest'
    exact (htracks.deleteInside turn.deleted).serve_asked hhonest (by simp [N8nRequest.Stops])
  · obtain ⟨turn, rest, rfl, hrest, hfound, hfollows⟩ := follows_of_cons htrace hfollows
    obtain ⟨turn', rest', rfl, hrest', hhonest, hfollows⟩ := follows_of_cons hrest hfollows
    obtain ⟨last, rest, rfl, hlast, -, -⟩ := follows_of_cons hrest' hfollows
    obtain rfl := List.map_eq_nil_iff.mp hlast
    have hrow : w.recipes.row recipeId = some row := hfound.symm
    obtain rfl : row.id = recipeId := w.recipes.keyed recipeId row hrow
    have hread := htracks.deleteInside turn.deleted
    have hown : (w.deleteInside turn.deleted).Holds row.id row.n8nWorkflowId := hread.holds hrow
    have hactive : turn'.carriedOut = true ∨ (w.deleteInside turn.deleted).Runs base id := by
      rcases hsuccess with hsuccess | hsilent
      · exact .inl (hhonest.success hsuccess)
      · rcases hplain id answer turn' (by simp) hsilent with hcarried | hactive
        · exact .inl hcarried
        · have hruns : w.Runs base id := .inl hactive
          exact .inr (hruns.deleteInside turn.deleted)
    have hasked := hread.serve_asked hhonest (by simp [N8nRequest.Stops])
    have hspared : World.Tracks _ base (some ({ row with active := true } : RecipeRow).id) := hasked.spare row.id
    apply hspared.serve_committed
    · right
      exact ⟨row, by simpa [World.serve] using hrow⟩
    · exact hown.serve_asked
    · intro _
      refine ⟨id, hid, ?_⟩
      rcases hactive with hcarried | hruns
      · exact .of_setActive (hown id hid).1 hhonest (.inl hcarried)
      · exact hruns.serve_asked (hown id hid).1 hhonest (by simp [N8nRequest.Stops])

/-- Deactivating a recipe: its row only has to agree when the flag is not taken back. -/
theorem deactivate_tracks {result : Except Exc RecipeActionOut}
    (hgoes : (deactivateRecipe recipeId).Goes (events.map Prod.fst) result) (hfollows : Follows w events)
    (hplain : ∀ row, w.recipes.row recipeId = some row → row.active = true →
      ∀ id answer turn, (asked (.setActive id false) answer, turn) ∈ events → turn.carriedOut = true →
        looksSuccessful answer)
    (htracks : w.Tracks base (some recipeId))
    (hrow : ¬ (RecipeRequest.deactivate recipeId).TakesBack recipeId events →
      ∀ row, w.recipes.row recipeId = some row → w.RowAgrees base row) : (w.after events).Tracks base none := by
  rcases setRecipeActive_goes hgoes with ⟨row, htrace, -⟩ |
    ⟨row, id, answer, hid, ⟨htrace, hfailed, -⟩ | ⟨htrace, hsuccess, -⟩⟩
  · obtain ⟨turn, rest, rfl, hrest, -, -⟩ := follows_of_cons htrace hfollows
    obtain rfl := List.map_eq_nil_iff.mp hrest
    apply (htracks.deleteInside turn.deleted).unspare
    intro row' hrow' hactive
    have hkept : ¬ (RecipeRequest.deactivate recipeId).TakesBack recipeId [(readRow recipeId row, turn)] := by
      rintro ⟨-, id, answer, turn', hmem, -⟩
      simp at hmem
    obtain ⟨id, hid, hruns⟩ := hrow hkept row' hrow' hactive
    exact ⟨id, hid, hruns.deleteInside turn.deleted⟩
  · obtain ⟨turn, rest, rfl, hrest, hfound, hfollows⟩ := follows_of_cons htrace hfollows
    obtain ⟨turn', rest', rfl, hrest', hhonest, -⟩ := follows_of_cons hrest hfollows
    obtain rfl := List.map_eq_nil_iff.mp hrest'
    have hat : w.recipes.row recipeId = some row := hfound.symm
    have hread := htracks.deleteInside turn.deleted
    have hasked := hread.serve_asked hhonest
      (hread.not_stops hat hid fun other hstops => hstops.1.symm)
    apply hasked.unspare
    intro row' hrow' hactive
    obtain rfl : row = row' := by
      rw [World.serve, World.act_asked_recipes] at hrow'
      exact Option.some.inj (hat.symm.trans hrow')
    have hkept : ¬ (RecipeRequest.deactivate recipeId).TakesBack recipeId
        [(readRow recipeId (some row), turn), (asked (.setActive id false) answer, turn')] := by
      rintro ⟨-, id', answer', turn'', hmem, hlooks⟩
      obtain ⟨⟨rfl, rfl⟩, rfl⟩ : (id' = id ∧ answer' = answer) ∧ turn'' = turn' := by simpa using hmem
      exact hfailed hlooks
    obtain ⟨id', hid', hruns⟩ := hrow hkept row hat hactive
    refine ⟨id', hid', ?_⟩
    apply (hruns.deleteInside turn.deleted).serve_asked (hread.issued recipeId row hat id' hid') hhonest
    intro hcarried
    exact absurd (hplain row hat hactive id answer turn' (by simp) hcarried) hfailed
  · obtain ⟨turn, rest, rfl, hrest, hfound, hfollows⟩ := follows_of_cons htrace hfollows
    obtain ⟨turn', rest', rfl, hrest', hhonest, hfollows⟩ := follows_of_cons hrest hfollows
    obtain ⟨last, rest, rfl, hlast, -, -⟩ := follows_of_cons hrest' hfollows
    obtain rfl := List.map_eq_nil_iff.mp hlast
    have hat : w.recipes.row recipeId = some row := hfound.symm
    obtain rfl : row.id = recipeId := w.recipes.keyed recipeId row hat
    have hread := htracks.deleteInside turn.deleted
    have hown : (w.deleteInside turn.deleted).Holds row.id row.n8nWorkflowId := hread.holds hat
    have hasked := hread.serve_asked hhonest (hread.not_stops hat hid fun other hstops => hstops.1.symm)
    have hspared : World.Tracks _ base (some ({ row with active := false } : RecipeRow).id) := hasked
    apply hspared.serve_committed
    · right
      exact ⟨row, by simpa [World.serve] using hat⟩
    · exact hown.serve_asked
    · intro hactive
      cases hactive

/-- Deleting a recipe: its own row does not have to agree. -/
theorem delete_tracks {result : Except Exc RecipeActionOut}
    (hgoes : (deleteRecipe recipeId).Goes (events.map Prod.fst) result) (hfollows : Follows w events)
    (htracks : w.Tracks base (some recipeId)) : (w.after events).Tracks base none := by
  rcases deleteRecipe_goes hgoes with ⟨htrace, -⟩ |
    ⟨row, ⟨-, htrace, -⟩ | ⟨id, answer, detail, hid, htrace, -, -⟩⟩
  · obtain ⟨turn, rest, rfl, hrest, hfound, -⟩ := follows_of_cons htrace hfollows
    obtain rfl := List.map_eq_nil_iff.mp hrest
    apply (htracks.deleteInside turn.deleted).unspare
    intro row hrow
    have hnone : w.recipes.row recipeId = none := hfound.symm
    rw [World.deleteInside_recipes, hnone] at hrow
    cases hrow
  · obtain ⟨turn, rest, rfl, hrest, hfound, hfollows⟩ := follows_of_cons htrace hfollows
    obtain ⟨last, rest', rfl, hlast, -, -⟩ := follows_of_cons hrest hfollows
    obtain rfl := List.map_eq_nil_iff.mp hlast
    obtain rfl : row.id = recipeId := w.recipes.keyed recipeId row hfound.symm
    exact ((htracks.deleteInside turn.deleted).deleteInside last.deleted).delete
  · obtain ⟨turn, rest, rfl, hrest, hfound, hfollows⟩ := follows_of_cons htrace hfollows
    obtain ⟨turn', rest', rfl, hrest', hhonest, hfollows⟩ := follows_of_cons hrest hfollows
    obtain ⟨last, rest, rfl, hlast, -, -⟩ := follows_of_cons hrest' hfollows
    obtain rfl := List.map_eq_nil_iff.mp hlast
    have hat : w.recipes.row recipeId = some row := hfound.symm
    obtain rfl : row.id = recipeId := w.recipes.keyed recipeId row hat
    have hread := htracks.deleteInside turn.deleted
    have hasked := hread.serve_asked hhonest (hread.not_stops hat hid fun other hstops => hstops.symm)
    exact (hasked.deleteInside last.deleted).delete

/-- A request, from a world in which every row agrees whose flag it does not take back. -/
theorem request_tracks {request : RecipeRequest} (hgoes : request.Goes texts (events.map Prod.fst))
    (hfollows : Follows w events) (hplain : (Occurrence.request request events).Plain w)
    (hids : ∀ spared, (∀ recipeId row, w.recipes.row recipeId = some row → some recipeId ≠ spared →
      w.RowAgrees base row) → w.Tracks base spared)
    (hagrees : ∀ recipeId row, w.recipes.row recipeId = some row → ¬ request.TakesBack recipeId events →
      w.RowAgrees base row) : (w.after events).Tracks base none := by
  cases request with
  | create sub body =>
    obtain ⟨result, hgoes⟩ := hgoes
    exact create_tracks hgoes hfollows (hids none fun recipeId row hrow _ => hagrees recipeId row hrow id)
  | update recipeId body =>
    obtain ⟨result, hgoes⟩ := hgoes
    exact update_tracks hgoes hfollows hplain (hids none fun recipeId row hrow _ => hagrees recipeId row hrow id)
  | activate recipeId =>
    obtain ⟨result, hgoes⟩ := hgoes
    exact activate_tracks hgoes hfollows hplain (hids none fun recipeId row hrow _ => hagrees recipeId row hrow id)
  | deactivate recipeId =>
    obtain ⟨result, hgoes⟩ := hgoes
    apply deactivate_tracks hgoes hfollows hplain
    · apply hids
      intro other row hrow hne
      exact hagrees other row hrow fun htakes => hne (congrArg some htakes.1.symm)
    · intro hkept row hrow
      exact hagrees recipeId row hrow hkept
  | delete recipeId =>
    obtain ⟨result, hgoes⟩ := hgoes
    apply delete_tracks hgoes hfollows
    apply hids
    intro other row hrow hne
    exact hagrees other row hrow fun htakes => hne (congrArg some htakes.symm)

end Requests

/-! ## What a run preserves -/

section Runs

variable {texts : RecipeTexts} {w w' : World}

/-- A call leaves the earlier deletions as they are. -/
@[simp] theorem World.serve_earlier (event : Event) : (w.serve event).earlier = w.earlier := by
  obtain ⟨⟨call, reply⟩, turn⟩ := event
  cases call with
  | n8n request =>
    simp only [World.serve, World.act]
    split
    · cases request <;> rfl
    · rfl
  | _ => rfl

@[simp] theorem World.after_earlier (events : List Event) : (w.after events).earlier = w.earlier := by
  induction events generalizing w with
  | nil => rfl
  | cons event events ih => rw [World.after, List.foldl_cons, ← World.after, ih, World.serve_earlier]

/-- An occurrence of a run that does not tell recent deletions from earlier ones. -/
theorem occurs_tracks {occurrence : Occurrence} (hoccurs : Occurs texts w occurrence w')
    (hplain : occurrence.Plain w) (h : w.Tracks w.earlier none) : w'.Tracks w'.earlier none := by
  cases hoccurs with
  | deletedInside => exact h.deleteInside _
  | request hgoes hfollows =>
    rename_i request events
    have hbegin : ∀ recipeId row, w.begin.recipes.row recipeId = some row →
        w.begin.RowAgrees w.begin.earlier row := by
      intro recipeId row hrow hactive
      obtain ⟨id, hid, hruns⟩ := h.agrees recipeId row hrow (by simp) hactive
      exact ⟨id, hid, by simpa [World.Runs, World.begin] using hruns⟩
    rw [World.after_earlier]
    apply request_tracks hgoes hfollows
    · cases request <;> exact hplain
    · exact fun spared hagrees => ⟨h.issued, h.distinct, hagrees⟩
    · exact fun recipeId row hrow _ => hbegin recipeId row hrow

/-- An occurrence of a run in which no deletion inside n8n outlives a request. -/
theorem occurs_tracks_recent {occurrence : Occurrence} (hoccurs : Occurs texts w occurrence w')
    (hplain : occurrence.Plain w) (hundisturbed : occurrence.Undisturbed w) (h : w.Tracks [] none) :
    w'.Tracks [] none := by
  cases hoccurs with
  | deletedInside => exact h.deleteInside _
  | request hgoes hfollows =>
    rename_i request events
    apply request_tracks hgoes hfollows
    · cases request <;> exact hplain
    · exact fun spared hagrees => ⟨h.issued, h.distinct, hagrees⟩
    · intro recipeId row hrow hkept hactive
      obtain ⟨id, hid, hruns⟩ := h.agrees recipeId row hrow (by simp) hactive
      obtain rfl := w.recipes.keyed recipeId row hrow
      have hlisted : row ∈ w.recipes.rows := w.recipes.mem_rows.mpr ⟨row.id, hrow⟩
      have hstored : row.n8nWorkflowId = some id := (Option.filter_eq_some_iff.mp hid).1
      refine ⟨id, hid, .inl (hruns.resolve_right ?_)⟩
      simpa using hundisturbed row hlisted hactive hkept id hstored

/-- Without recipes everything agrees. -/
theorem tracks_of_empty (hempty : w.recipes = .empty) (base : List String) : w.Tracks base none := by
  constructor
  · intro recipeId row hrow
    rw [hempty] at hrow
    cases hrow
  · intro recipeId recipeId' row row' hrow
    rw [hempty] at hrow
    cases hrow
  · intro recipeId row hrow
    rw [hempty] at hrow
    cases hrow

/-- The rows that agree. -/
theorem World.Tracks.toAgrees {base : List String} (h : w.Tracks base none) : w.Agrees (base ++ w.recent) := by
  intro row hrow hactive
  obtain ⟨id, hid, hruns⟩ := h.agrees row.id row (w.recipes.row_key hrow) (by simp) hactive
  exact ⟨id, (Option.filter_eq_some_iff.mp hid).1, hruns⟩

/-- In a run of such occurrences the workflow of an active recipe is active in n8n, unless it was
deleted there; and when no deletion outlives a request, unless it was deleted since the last request. -/
theorem reached_agrees (h : Reached texts Occurrence.Plain w) :
    w.Agrees (w.earlier ++ w.recent) ∧
      (Reached texts (fun w occurrence => occurrence.Plain w ∧ occurrence.Undisturbed w) w →
        w.Agrees w.recent) := by
  constructor
  · apply World.Tracks.toAgrees
    induction h with
    | start hempty => exact tracks_of_empty hempty _
    | step _ hplain hoccurs ih => exact occurs_tracks hoccurs hplain ih
  · intro hrun
    rw [← List.nil_append w.recent]
    apply World.Tracks.toAgrees
    induction hrun with
    | start hempty => exact tracks_of_empty hempty _
    | step hbefore hmeets hoccurs ih =>
      exact occurs_tracks_recent hoccurs hmeets.1 hmeets.2 (ih (hbefore.mono fun _ _ hmeet => hmeet.1))

end Runs

/-! ## A recreated workflow -/

/-- A recipe as submitted. -/
def rawReport : RawRecipe where
  name := "weekly-report"
  description := ""
  trigger := .manual
  steps := [.action ⟨"tell", .httpNotify, [("title", .str "Report"), ("message", .str "Done")]⟩]

/-- What the schema stores for it. -/
def report : Recipe where
  name := "weekly-report"
  description := ""
  trigger := .manual
  steps := [.action ⟨"tell", .httpNotify, [("title", "Report"), ("message", "Done")]⟩]

/-- The row of the recipe. -/
def reportRow (workflowId : String) (active : Bool) : RecipeRow :=
  ⟨0, "weekly-report", "", report, some workflowId, active, some "admin"⟩

/-- The status of a success is its own message. -/
theorem success_names_status : (toString 200).toList <:+: "200".toList := by decide

/-- A success that holds the id of a workflow. -/
def workflowAnswer (id : String) : HttpAnswer :=
  .response {
    status := 200
    hasContent := true
    text := ""
    json := some (.obj [("id", .str id)])
    statusMessage := "200"
    names_status := success_names_status }

/-- A turn in which n8n has nothing to do. -/
def idle : Turn := ⟨[], "", false⟩

/-- The recipe is created with the workflow of an id. -/
def createEvents (payload : Workflow) : List Event :=
  [(found "weekly-report" none, idle), (flushed "weekly-report" 0, idle),
    (asked (.createWorkflow payload) (workflowAnswer "w1"), ⟨[], "w1", true⟩),
    (committed (reportRow "w1" false), idle)]

/-- It is activated. -/
def activateEvents : List Event :=
  [(readRow 0 (some (reportRow "w1" false)), idle),
    (asked (.setActive "w1" true) (workflowAnswer "w1"), ⟨[], "", true⟩),
    (committed (reportRow "w1" true), idle)]

/-- It is updated after its workflow was deleted inside n8n. -/
def updateEvents (payload : Workflow) : List Event :=
  [(readRow 0 (some (reportRow "w1" true)), idle),
    (asked (.updateWorkflow "w1" payload) (statusResponse 404 ""), idle),
    (asked (.createWorkflow payload) (workflowAnswer "w2"), ⟨[], "w2", true⟩),
    (committed (reportRow "w2" true), idle)]

/-- Texts that no request of the run reads. -/
def plainTexts : RecipeTexts := ⟨plainBuiltins, fun _ => "", fun _ => ""⟩

/-- Neither Fleet nor n8n holds anything. -/
def nothing : World := ⟨.empty, fun _ => none, [], [], []⟩

/-- The world with the new recipe. -/
def created (payload : Workflow) : World := nothing.begin.after (createEvents payload)

/-- The world with the active recipe. -/
def activated (payload : Workflow) : World := (created payload).begin.after activateEvents

/-- The world in which the recipe got a new workflow. -/
def recreated (payload : Workflow) : World :=
  ((activated payload).deleteInside ["w1"]).begin.after (updateEvents payload)

/-- The schema accepts the recipe and the compiler compiles it. -/
theorem report_compiles : rawReport.validate = .ok report ∧ ∃ payload, compileRecipe report = .ok payload := by
  have hvalid : rawReport.validate = .ok report := by decide
  obtain ⟨payload, state, hcompile, -, -, -⟩ := compileRecipe_tracks ⟨report, rawReport, hvalid⟩
  exact ⟨hvalid, payload, hcompile⟩

section Report

variable {payload : Workflow} (hvalid : rawReport.validate = .ok report)
  (hcompile : compileRecipe report = .ok payload)

include hvalid hcompile

/-- The trace of the creation. -/
theorem createEvents_goes :
    (RecipeRequest.create "admin" rawReport).Goes plainTexts ((createEvents payload).map Prod.fst) := by
  refine ⟨.ok ⟨reportRow "w1" false, none⟩, ?_⟩
  unfold createRecipe parseRecipe
  rw [hvalid]
  apply Prog.Goes.await
  apply Prog.Goes.await
  unfold deploy
  rw [hcompile]
  exact .await (.await (.done _))

/-- The trace of the update. -/
theorem updateEvents_goes :
    (RecipeRequest.update 0 rawReport).Goes plainTexts ((updateEvents payload).map Prod.fst) := by
  refine ⟨.ok ⟨reportRow "w2" true, none⟩, ?_⟩
  unfold updateRecipe
  apply Prog.Goes.await
  unfold parseRecipe
  rw [hvalid]
  change (deploy plainTexts report (some "w1") >>= _).Goes _ _
  unfold deploy
  rw [hcompile]
  exact .await (.await (.await (.done _)))

/-- The creation. -/
theorem created_occurs : Occurs plainTexts nothing (.request (.create "admin" rawReport) (createEvents payload))
    (created payload) := by
  apply Occurs.request (createEvents_goes hvalid hcompile)
  refine ⟨rfl, rfl, ⟨fun _ => rfl, fun _ => List.not_mem_nil, ?_⟩, trivial, trivial⟩
  intro _ _ fields hobject
  cases hobject
  rfl

omit hvalid hcompile in
/-- The activation. -/
theorem activated_occurs :
    Occurs plainTexts (created payload) (.request (.activate 0) activateEvents) (activated payload) := by
  apply Occurs.request
  · exact ⟨.ok ⟨"ok", none⟩, .await (.await (.await (.done _)))⟩
  · exact ⟨rfl, ⟨fun _ => rfl, fun _ => Option.some_ne_none false, fun _ h => by cases h⟩, trivial, trivial⟩

/-- The update. -/
theorem recreated_occurs : Occurs plainTexts ((activated payload).deleteInside ["w1"])
    (.request (.update 0 rawReport) (updateEvents payload)) (recreated payload) := by
  apply Occurs.request (updateEvents_goes hvalid hcompile)
  have hnew : "w2" ∉ ["w1"] := by decide
  refine ⟨rfl, ⟨?_, ?_, ?_⟩, ⟨fun _ => rfl, fun _ => hnew, ?_⟩, trivial, trivial⟩
  · intro hsuccess
    cases hsuccess
  · intro hcarried
    cases hcarried
  · intro _ hrequest
    cases hrequest
  · intro _ _ fields hobject
    cases hobject
    rfl

end Report

/-- The runs until the activation meet every condition, and the active recipe agrees. -/
theorem activated_agrees :
    ∃ payload, (∃ row ∈ (activated payload).recipes.rows, row.active = true) ∧
      (activated payload).Agrees (activated payload).recent := by
  obtain ⟨hvalid, payload, hcompile⟩ := report_compiles
  have hcreated : ∀ (meets : World → Occurrence → Prop),
      meets nothing (.request (.create "admin" rawReport) (createEvents payload)) →
      meets (created payload) (.request (.activate 0) activateEvents) →
      Reached plainTexts meets (activated payload) := fun meets hcreate hactivate =>
    .step (.step (.start rfl) hcreate (created_occurs hvalid hcompile)) hactivate activated_occurs
  have hplain : (Occurrence.request (.activate 0) activateEvents).Plain (created payload) := by
    intro id answer turn hmem hsilent
    obtain ⟨⟨rfl, rfl⟩, rfl⟩ : (id = "w1" ∧ answer = workflowAnswer "w1") ∧ turn = ⟨[], "", true⟩ := by
      simpa [activateEvents] using hmem
    exact .inl rfl
  refine ⟨payload, ⟨reportRow "w1" true, Table.mem_rows _ |>.mpr ⟨0, rfl⟩, rfl⟩, ?_⟩
  apply (reached_agrees (hcreated Occurrence.Plain trivial hplain)).2
  apply hcreated
  · exact ⟨trivial, fun _ _ _ _ _ _ => List.not_mem_nil⟩
  · exact ⟨hplain, fun _ _ _ _ _ _ => List.not_mem_nil⟩

/-- An update after the workflow of the active recipe was deleted inside n8n leaves the recipe active
with a new workflow that never was. -/
theorem recreated_not_agrees :
    ∃ payload, Reached plainTexts (fun _ _ => True) (recreated payload) ∧
      ¬ (recreated payload).Agrees ((recreated payload).earlier ++ (recreated payload).recent) := by
  obtain ⟨hvalid, payload, hcompile⟩ := report_compiles
  refine ⟨payload, ?_, ?_⟩
  · exact .step (.step (.step (.step (.start rfl) trivial (created_occurs hvalid hcompile)) trivial
      activated_occurs) trivial .deletedInside) trivial (recreated_occurs hvalid hcompile)
  · intro hagrees
    obtain ⟨id, hid, hactive | hexcepted⟩ :=
      hagrees (reportRow "w2" true) ((Table.mem_rows _).mpr ⟨0, rfl⟩) rfl
    · cases hid
      cases hactive
    · cases hid
      have hother : "w2" ∉ ["w1"] := by decide
      exact hother hexcepted

end FleetWorkflow.N8n
