import FleetWorkflow.Answers.Attribution
import FleetWorkflow.Answers.Query
import FleetWorkflow.Async.Runs

/-!
# Answers that are grounded

What a run of a query can return: the fixed degraded answer, or a text that the model said in it, all of
whose markers are positions of hits. The markers are those that the parser finds, the citations are the
hits at their positions, and the model is asked twice at most.
-/

namespace FleetWorkflow.Answers

open Python Async Core Llm

/-- A run of calls with their replies. -/
abbrev AnswerTrace := List (Event AnswerCall AnswerCall.Reply Raised)

/-- The call asks the model for an answer. -/
def AnswerCall.asksModel : AnswerCall → Bool
  | reasoning .. => true
  | _ => false

/-- How often the model is asked. -/
def modelCalls (events : AnswerTrace) : ℕ := events.countP fun event => event.call.asksModel

/-- The model says a text in a run. -/
def Said (events : AnswerTrace) (text : String) : Prop :=
  ∃ hits messages sensitivity kwargs, ⟨.reasoning hits messages sensitivity kwargs, .ok (.str text)⟩ ∈ events

/-- The citation of a hit. -/
def Hit.citation (hit : Hit) : Citation := ⟨hit.chunkRef, hit.documentId⟩

/-- An answer is a text that the model said, with at least one marker; every marker is the position of a
hit, counted from one, and the citations are the hits at these positions in their order. -/
structure Cites (unicode : Unicode) (hits : List Hit) (events : AnswerTrace) (answer : Answer) : Prop where
  said : Said events answer.text
  accepted : answer.degraded = false
  markers : ∃ positions, parseCitations unicode answer.text = .ok positions ∧ positions ≠ [] ∧
    (∀ position ∈ positions, 1 ≤ position ∧ position ≤ hits.length) ∧
    answer.citations.map some = positions.map fun position => (hits[position - 1]?).map Hit.citation

/-- The hits for a question. -/
def retrieving (question : String) (searcher : Searcher) (config : AgentQueryConfig) (sensitivity : String)
    (keyword : Option String) (kwargs : Dict) : Answering (List Hit) := do
  let queryVector ← lift (firstVector (← awaitAnswer (.embeddings [question] sensitivity kwargs)))
  retrieve searcher queryVector config keyword

variable {setting : Setting} {hits : List Hit} {events : AnswerTrace}

theorem Said.append_left {before after : AnswerTrace} {text : String} (h : Said after text) : Said (before ++ after) text := by
  obtain ⟨hits, messages, sensitivity, kwargs, hmem⟩ := h
  exact ⟨hits, messages, sensitivity, kwargs, List.mem_append_right before hmem⟩

theorem Said.append_right {before after : AnswerTrace} {text : String} (h : Said before text) :
    Said (before ++ after) text := by
  obtain ⟨hits, messages, sensitivity, kwargs, hmem⟩ := h
  exact ⟨hits, messages, sensitivity, kwargs, List.mem_append_left after hmem⟩

theorem Cites.append {unicode : Unicode} {before after : AnswerTrace} {answer : Answer} (h : Cites unicode hits after answer) :
    Cites unicode hits (before ++ after) answer := ⟨h.said.append_left, h.accepted, h.markers⟩

/-- One generation asks the model once at most, and returns what it said with its markers. -/
theorem runs_generate {question : String} {sensitivity : String} {kwargs : Dict} {result : Except Raised (String × List ℕ)}
    (h : (generate setting question hits sensitivity kwargs).Runs events result) :
    modelCalls events ≤ 1 ∧ ∀ text positions, result = .ok (text, positions) →
      Said events text ∧ parseCitations setting.unicode text = .ok positions := by
  rw [generate] at h
  rcases Prog.runs_call_bind.mp h with ⟨error, rfl, rfl⟩ | ⟨nonce, rest, rfl, hasked⟩
  · exact ⟨Nat.zero_le _, by rintro text positions ⟨⟩⟩
  rcases Prog.runs_call_bind.mp hasked with ⟨error, rfl, rfl⟩ | ⟨reply, rest', rfl, hreplied⟩
  · exact ⟨Nat.le_refl _, by rintro text positions ⟨⟩⟩
  rcases Prog.runs_ofExcept_bind.mp hreplied with ⟨error, htext, rfl, rfl⟩ | ⟨text, htext, hread⟩
  · exact ⟨Nat.le_refl _, by rintro text positions ⟨⟩⟩
  obtain ⟨text', rfl⟩ : ∃ text', reply = .str text' := by
    cases reply with
    | str text' => exact ⟨text', rfl⟩
    | _ => cases htext
  cases htext
  rcases Prog.runs_ofExcept_bind.mp hread with ⟨error, hparsed, rfl, rfl⟩ | ⟨positions, hparsed, hreturned⟩
  · exact ⟨Nat.le_refl _, by rintro text positions ⟨⟩⟩
  obtain ⟨rfl, rfl⟩ := Prog.runs_done.mp hreturned
  refine ⟨Nat.le_refl _, ?_⟩
  rintro said found ⟨⟩
  refine ⟨⟨_, _, _, _, List.mem_cons_of_mem _ List.mem_cons_self⟩, ?_⟩
  cases hcitations : parseCitations setting.unicode text with
  | error error =>
    rw [hcitations] at hparsed
    cases hparsed
  | ok found =>
    rw [hcitations] at hparsed
    cases hparsed
    rfl

/-- What a resolved list of positions is. -/
theorem resolveCitations_eq_some {positions : List ℕ} {citations : List Citation}
    (h : resolveCitations positions hits = some citations) : positions ≠ [] ∧
      (∀ position ∈ positions, 1 ≤ position ∧ position ≤ hits.length) ∧
      citations.map some = positions.map fun position => (hits[position - 1]?).map Hit.citation := by
  rw [resolveCitations] at h
  split at h
  · cases h
  · rename_i hne
    refine ⟨hne, ?_⟩
    clear hne
    induction positions generalizing citations with
    | nil =>
      cases h
      exact ⟨by simp, rfl⟩
    | cons position rest ih =>
      simp only [List.mapM_cons, Option.bind_eq_bind, Option.bind_eq_some_iff, Option.pure_def, Option.some.injEq] at h
      obtain ⟨citation, hcitation, others, hothers, rfl⟩ := h
      obtain ⟨hrange, hsame⟩ := ih hothers
      rw [citationAt] at hcitation
      split at hcitation
      · cases hcitation
      · rename_i hpositive
        obtain ⟨hit, hhit, rfl⟩ := Option.map_eq_some_iff.mp hcitation
        obtain ⟨hbound, -⟩ := List.getElem?_eq_some_iff.mp hhit
        constructor
        · intro other hother
          rcases List.mem_cons.mp hother with rfl | hother
          · omega
          · exact hrange other hother
        · rw [List.map_cons, List.map_cons, hhit, hsame]
          rfl

/-- The attempts ask the model as often as they are, and return a grounded answer or the degraded one. -/
theorem runs_attempts {question sensitivity : String} {kwargs : Dict} (n : ℕ) {result : Except Raised Answer}
    (h : (attempts (generate setting question hits sensitivity kwargs) hits n).Runs events result) :
    modelCalls events ≤ n ∧ ∀ answer, result = .ok answer → answer = degradedAnswer ∨
      Cites setting.unicode hits events answer := by
  induction n generalizing events with
  | zero =>
    obtain ⟨rfl, rfl⟩ := Prog.runs_done.mp h
    refine ⟨Nat.le_refl _, ?_⟩
    rintro answer ⟨⟩
    exact .inl rfl
  | succ n ih =>
    rw [attempts] at h
    rcases Prog.runs_bind.mp h with ⟨error, hgenerate, rfl⟩ | ⟨before, after, ⟨text, positions⟩, rfl, hgenerate, hrest⟩
    · exact ⟨by have := (runs_generate hgenerate).1; omega, by rintro answer ⟨⟩⟩
    obtain ⟨hcalls, hsaid⟩ := runs_generate hgenerate
    obtain ⟨hsaid, hparsed⟩ := hsaid text positions rfl
    have hsum : modelCalls (before ++ after) = modelCalls before + modelCalls after := List.countP_append
    cases hresolved : resolveCitations positions hits with
    | some citations =>
      simp only [hresolved] at hrest
      obtain ⟨rfl, rfl⟩ := Prog.runs_done.mp hrest
      refine ⟨by rw [hsum]; simp only [modelCalls, List.countP_nil] at hcalls ⊢; omega, ?_⟩
      rintro answer ⟨⟩
      exact .inr ⟨hsaid.append_right, rfl, positions, hparsed, resolveCitations_eq_some hresolved⟩
    | none =>
      simp only [hresolved] at hrest
      obtain ⟨hmore, hanswer⟩ := ih hrest
      refine ⟨by omega, fun answer hresult => ?_⟩
      rcases hanswer answer hresult with hdegraded | hcites
      · exact .inl hdegraded
      · exact .inr hcites.append

/-- A query retrieves, and then answers from what is retrieved. -/
theorem answerQuery_eq (question : String) (searcher : Searcher) (config : AgentQueryConfig) (sensitivity : String)
    (keyword : Option String) (kwargs : Dict) : answerQuery setting question searcher config sensitivity keyword kwargs =
      retrieving question searcher config sensitivity keyword kwargs >>= fun hits =>
        buildAnswer (generate setting question hits sensitivity kwargs) hits := by
  simp only [answerQuery, retrieving, Prog.bind_assoc]

/-- A chunk that is found for every question. -/
def handbookHit : Hit := ⟨"p1", 1, 7, "c1", "Leave is twenty days.", false⟩

/-- A query that finds this chunk. -/
def handbookQuery : Answering Answer :=
  answerQuery asciiSetting "How long is leave?" (fun _ _ _ => return [handbookHit]) (.ofTopK 5) "internal" none []

/-- The prompt of this query. -/
def handbookMessages : List Json :=
  [message "system" systemPrompt, message "user"
    (wrapUntrusted .asciiOnly "0f" ["Leave is twenty days."] ++ "\n\nQuestion: " ++ "How long is leave?")]

/-- The model cites the chunk at its first attempt. -/
def handbookTrace : AnswerTrace :=
  [⟨.embeddings ["How long is leave?"] "internal" [], .ok [.null]⟩, ⟨.newNonce, .ok "0f"⟩,
    ⟨.reasoning [handbookHit] handbookMessages "internal" [], .ok (.str "Twenty days [chunk:1].")⟩]

end FleetWorkflow.Answers
