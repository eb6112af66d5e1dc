import Mathlib.Algebra.GroupWithZero.Nat
import Mathlib.Algebra.Order.Ring.Unbundled.Rat
import FleetWorkflow.Answers.Grounding
import FleetWorkflow.Answers.Replies
import FleetWorkflow.Flow.Ranking
import FleetWorkflow.Rag.Words

/-!
# The hits of all collections

What chat hands to the model: the best points of all collections of the agent together, each cut to its first words, and of
these as many as fit the budget. Each collection is asked for its own best only; they cover what it holds, and so the best
of what all have returned are the best of all.
-/

namespace FleetWorkflow.Answers

open Python Async Core Llm Flow

/-- The words of a hit, which stand for its tokens. -/
def Hit.wordCount (hit : Hit) : ℕ := (Rag.splitWords hit.content).length

/-- The words of several hits. -/
def totalWords (hits : List Hit) : ℕ := (hits.map Hit.wordCount).sum

/-- A hit is cut to its first words: one that fits is as it was, and of the others only the content changes. -/
structure Hit.Truncated (cap : ℕ) (hit short : Hit) : Prop where
  words : Rag.splitWords short.content = (Rag.splitWords hit.content).take cap
  rest : short = { hit with content := short.content }
  fits : hit.wordCount ≤ cap → short = hit

/-- The longest prefix of the hits that fits the budget, or the first hit alone when it does not fit. -/
def Budgeted (cap : ℕ) (hits kept : List Hit) : Prop :=
  (kept <+: hits ∧ totalWords kept ≤ cap ∧ ∀ other, other <+: hits → totalWords other ≤ cap → other <+: kept) ∨
    ∃ first rest, hits = first :: rest ∧ cap < first.wordCount ∧ kept = [first]

/-- The hits are the best of the points, cut to their first words and to the budget. -/
def BudgetedTop (config : AgentQueryConfig) (points : List ScoredPoint) (hits : List Hit) : Prop :=
  ∃ best, IsTopOf ScoredPoint.score config.topK points best ∧
    ∃ capped, List.Forall₂ (fun point short => point.hit.Truncated config.perChunkTokenCap short) best capped ∧
      Budgeted config.totalTokenCap capped hits

/-- The points that each collection holds for a query; a collection returns its own best. -/
def ReturnsBest (scored : String → List ScoredPoint) (topK : ℕ) (events : AnswerTrace) : Prop :=
  ∀ name vector keyword points, ⟨.search name vector topK keyword, .ok points⟩ ∈ events →
    IsTopOf ScoredPoint.score topK (scored name) points

/-- The messages of a question over hits. -/
def groundedMessages (setting : Setting) (question nonce : String) (hits : List Hit) : List Json :=
  [message "system" systemPrompt, message "user"
    (wrapUntrusted setting.unicode nonce (hits.map (·.content)) ++ "\n\nQuestion: " ++ question)]

/-- Every prompt is built from these hits, and from them alone. -/
def HandsOver (setting : Setting) (question : String) (hits : List Hit) (events : AnswerTrace) : Prop :=
  ∀ event ∈ events, ∀ sources messages sensitivity kwargs, event.call = .reasoning sources messages sensitivity kwargs →
    sources = hits ∧ ∃ nonce, messages = groundedMessages setting question nonce hits

variable {setting : Setting} {question : String} {hits : List Hit} {events : AnswerTrace}

theorem totalWords_cons (hit : Hit) (hits : List Hit) : totalWords (hit :: hits) = hit.wordCount + totalWords hits :=
  List.sum_cons

/-- Truncating a hit cuts it to its first words. -/
theorem truncate_truncated (cap : ℕ) (hit : Hit) : hit.Truncated cap (truncate cap hit) := by
  by_cases hfits : (Rag.splitWords hit.content).length ≤ cap
  · have hsame : truncate cap hit = hit := if_pos hfits
    rw [hsame]
    exact ⟨(List.take_of_length_le hfits).symm, rfl, fun _ => rfl⟩
  · have hcut : truncate cap hit =
        { hit with content := String.intercalate " " ((Rag.splitWords hit.content).take cap) } := if_neg hfits
    rw [hcut]
    refine ⟨?_, rfl, fun h => absurd h hfits⟩
    exact Rag.splitWords_join fun word hword => Rag.isWord_of_mem (List.mem_of_mem_take hword)

/-- After the first hit, the longest prefix of the others that still fits is kept. -/
theorem withinBudget_append {cap spent : ℕ} {kept rest : List Hit} (hkept : kept ≠ []) :
    ∃ added, withinBudget cap spent kept rest = kept ++ added ∧ added <+: rest ∧
      (spent ≤ cap → spent + totalWords added ≤ cap) ∧ (cap < spent → added = []) ∧
      ∀ other, other <+: rest → spent + totalWords other ≤ cap → other <+: added := by
  induction rest generalizing spent kept with
  | nil =>
    refine ⟨[], by simp [withinBudget], List.prefix_rfl, by simp [totalWords], fun _ => rfl, ?_⟩
    intro other hother _
    exact hother
  | cons hit rest ih =>
    by_cases hover : cap < spent + hit.wordCount
    · refine ⟨[], ?_, List.nil_prefix, by simp [totalWords], fun _ => rfl, fun other hother hfits => ?_⟩
      · rw [withinBudget, List.append_nil]
        exact if_pos ⟨hover, hkept⟩
      · cases other with
        | nil => exact List.prefix_rfl
        | cons first others =>
          obtain ⟨rfl, -⟩ := List.cons_prefix_cons.mp hother
          rw [totalWords_cons] at hfits
          omega
    · obtain ⟨added, hbudget, hprefix, hspent, -, hlongest⟩ := @ih (spent + hit.wordCount) (kept ++ [hit]) (by simp)
      refine ⟨hit :: added, ?_, List.cons_prefix_cons.mpr ⟨rfl, hprefix⟩, fun _ => ?_, fun _ => by omega,
        fun other hother hfits => ?_⟩
      · rw [withinBudget]
        simp only [Hit.wordCount] at hover hbudget
        rw [if_neg fun h => hover h.1, hbudget, List.append_assoc]
        rfl
      · rw [totalWords_cons]
        have := hspent (by omega)
        omega
      · cases other with
        | nil => exact List.nil_prefix
        | cons first others =>
          obtain ⟨rfl, hothers⟩ := List.cons_prefix_cons.mp hother
          rw [totalWords_cons] at hfits
          exact List.cons_prefix_cons.mpr ⟨rfl, hlongest others hothers (by omega)⟩

/-- The hits within the budget are the longest prefix that fits, or the first hit alone. -/
theorem withinBudget_budgeted (cap : ℕ) (hits : List Hit) : Budgeted cap hits (withinBudget cap 0 [] hits) := by
  cases hits with
  | nil => exact .inl ⟨List.prefix_rfl, Nat.zero_le _, fun other hother _ => hother⟩
  | cons first rest =>
    have hfirst : withinBudget cap 0 [] (first :: rest) = withinBudget cap first.wordCount [first] rest := by
      rw [withinBudget, if_neg fun h => h.2 rfl, Nat.zero_add]
      rfl
    obtain ⟨added, hbudget, hprefix, hspent, hnone, hlongest⟩ :=
      @withinBudget_append cap first.wordCount [first] rest (by simp)
    rw [hfirst, hbudget]
    by_cases hover : cap < first.wordCount
    · exact .inr ⟨first, rest, rfl, hover, by rw [hnone hover, List.append_nil]⟩
    · refine .inl ⟨List.cons_prefix_cons.mpr ⟨rfl, hprefix⟩, ?_, fun other hother hfits => ?_⟩
      · rw [List.singleton_append, totalWords_cons]
        exact hspent (by omega)
      · cases other with
        | nil => exact List.nil_prefix
        | cons head others =>
          obtain ⟨rfl, hothers⟩ := List.cons_prefix_cons.mp hother
          rw [totalWords_cons] at hfits
          exact List.cons_prefix_cons.mpr ⟨rfl, hlongest others hothers hfits⟩

/-- What the collections have returned covers what they hold. -/
theorem runs_searchAll {queryVector : Json} {topK : ℕ} {keyword : Option String} {names : List String}
    {scored : String → List ScoredPoint} (hbest : ReturnsBest scored topK events)
    (h : (searchAll queryVector topK keyword names).Runs events (.ok hits)) :
    ∃ selected, hits = selected.map ScoredPoint.hit ∧
      Covering ScoredPoint.score topK (names.flatMap scored) selected := by
  induction names generalizing events hits with
  | nil =>
    obtain ⟨-, hhits⟩ := Prog.runs_done.mp h
    exact ⟨[], Except.ok.inj hhits, covering_nil⟩
  | cons name names ih =>
    rw [searchAll] at h
    rcases Prog.runs_call_bind.mp h with ⟨error, -, hnever⟩ | ⟨points, rest, rfl, hrest⟩
    · cases hnever
    rcases Prog.runs_bind.mp hrest with ⟨error, -, hnever⟩ | ⟨before, after, others, rfl, hothers, hreturn⟩
    · cases hnever
    obtain ⟨-, hhits⟩ := Prog.runs_done.mp hreturn
    have hlater : ReturnsBest scored topK before := fun name vector keyword points hmem =>
      hbest name vector keyword points (List.mem_cons_of_mem _ (List.mem_append_left after hmem))
    obtain ⟨selected, rfl, hcovers⟩ := ih hlater hothers
    refine ⟨points ++ selected, ?_, ?_⟩
    · rw [Except.ok.inj hhits, List.map_append]
    · exact (hbest name queryVector keyword points List.mem_cons_self).covering.append hcovers

/-- The search of chat returns the best points of all collections of the agent. -/
theorem runs_agentSearcher {agent : AgentRow} {queryVector : Json} {topK : ℕ} {keyword : Option String}
    {scored : String → List ScoredPoint} (hbest : ReturnsBest scored topK events)
    (h : (agentSearcher agent queryVector topK keyword).Runs events (.ok hits)) :
    ∃ best, IsTopOf ScoredPoint.score topK ((agent.collectionIds.map Rag.collectionName).flatMap scored) best ∧
      hits = best.map ScoredPoint.hit := by
  rw [agentSearcher] at h
  rcases Prog.runs_bind.mp h with ⟨error, -, hnever⟩ | ⟨before, after, found, rfl, hsearch, hreturn⟩
  · cases hnever
  obtain ⟨rfl, hhits⟩ := Prog.runs_done.mp hreturn
  rw [List.append_nil] at hbest
  obtain ⟨selected, rfl, hcovers⟩ := runs_searchAll hbest hsearch
  -- The hits are sorted as their points are, for they keep their scores.
  have hsorted := List.map_insertionSort (fun a b : ScoredPoint => b.score ≤ a.score)
    (fun a b : Hit => b.score ≤ a.score) ScoredPoint.hit selected fun _ _ _ _ => Iff.rfl
  refine ⟨_, hcovers.isTopOf (ranks_insertionSort selected), ?_⟩
  rw [Except.ok.inj hhits, ← hsorted, List.map_take]

/-- What is retrieved are the best points of all collections, within the budgets. -/
theorem runs_retrieving {agent : AgentRow} {config : AgentQueryConfig} {sensitivity : String} {keyword : Option String}
    {kwargs : Dict} {scored : String → List ScoredPoint} (hbest : ReturnsBest scored config.topK events)
    (h : (retrieving question (agentSearcher agent) config sensitivity keyword kwargs).Runs events (.ok hits)) :
    BudgetedTop config ((agent.collectionIds.map Rag.collectionName).flatMap scored) hits := by
  rw [retrieving] at h
  rcases Prog.runs_call_bind.mp h with ⟨error, -, hnever⟩ | ⟨vectors, rest, rfl, hrest⟩
  · cases hnever
  rcases Prog.runs_ofExcept_bind.mp hrest with ⟨error, -, -, hnever⟩ | ⟨vector, -, hretrieve⟩
  · cases hnever
  rw [retrieve] at hretrieve
  rcases Prog.runs_bind.mp hretrieve with ⟨error, -, hnever⟩ | ⟨before, after, found, rfl, hsearch, hreturn⟩
  · cases hnever
  obtain ⟨rfl, hhits⟩ := Prog.runs_done.mp hreturn
  rw [List.append_nil] at hbest
  have hlater : ReturnsBest scored config.topK before := fun name vector keyword points hmem =>
    hbest name vector keyword points (List.mem_cons_of_mem _ hmem)
  obtain ⟨best, htop, rfl⟩ := runs_agentSearcher hlater hsearch
  refine ⟨best, htop, (best.map ScoredPoint.hit).map (truncate config.perChunkTokenCap), ?_, ?_⟩
  · rw [List.map_map, List.forall₂_map_right_iff, List.forall₂_same]
    exact fun point _ => truncate_truncated _ point.hit
  · rw [Except.ok.inj hhits]
    exact withinBudget_budgeted _ _

/-- A generation hands over the hits that it is given. -/
theorem generate_handsOver {sensitivity : String} {kwargs : Dict} {result : Except Raised (String × List ℕ)}
    (h : (generate setting question hits sensitivity kwargs).Runs events result) :
    HandsOver setting question hits events := by
  rw [generate] at h
  rcases Prog.runs_call_bind.mp h with ⟨error, rfl, -⟩ | ⟨nonce, rest, rfl, hasked⟩
  · intro event hevent sources messages sensitivity kwargs hcall
    rw [List.mem_singleton.mp hevent] at hcall
    cases hcall
  have hasks : ∃ reply, rest = [⟨.reasoning hits (groundedMessages setting question nonce hits) sensitivity kwargs, reply⟩] := by
    rcases Prog.runs_call_bind.mp hasked with ⟨error, rfl, -⟩ | ⟨reply, rest', rfl, hreplied⟩
    · exact ⟨_, rfl⟩
    · rcases Prog.runs_ofExcept_bind.mp hreplied with ⟨error, -, rfl, -⟩ | ⟨text, -, hread⟩
      · exact ⟨_, rfl⟩
      · rcases Prog.runs_ofExcept_bind.mp hread with ⟨error, -, rfl, -⟩ | ⟨positions, -, hreturned⟩
        · exact ⟨_, rfl⟩
        · obtain ⟨rfl, -⟩ := Prog.runs_done.mp hreturned
          exact ⟨_, rfl⟩
  obtain ⟨reply, rfl⟩ := hasks
  intro event hevent sources messages sensitivity kwargs hcall
  rcases List.mem_cons.mp hevent with rfl | hevent
  · cases hcall
  · rw [List.mem_singleton.mp hevent] at hcall
    cases hcall
    exact ⟨rfl, nonce, rfl⟩

/-- What two runs hand over, they hand over together. -/
theorem HandsOver.append {before after : AnswerTrace} (hbefore : HandsOver setting question hits before)
    (hafter : HandsOver setting question hits after) : HandsOver setting question hits (before ++ after) := by
  intro event hevent
  rcases List.mem_append.mp hevent with hevent | hevent
  · exact hbefore event hevent
  · exact hafter event hevent

/-- Each attempt hands over the same hits. -/
theorem attempts_handsOver {sensitivity : String} {kwargs : Dict} (n : ℕ) {result : Except Raised Answer}
    (h : (attempts (generate setting question hits sensitivity kwargs) hits n).Runs events result) :
    HandsOver setting question hits events := by
  induction n generalizing events with
  | zero =>
    obtain ⟨rfl, -⟩ := Prog.runs_done.mp h
    exact fun event hevent => by cases hevent
  | succ n ih =>
    rw [attempts] at h
    rcases Prog.runs_bind.mp h with ⟨error, hgenerate, -⟩ | ⟨before, after, ⟨text, positions⟩, rfl, hgenerate, hrest⟩
    · exact generate_handsOver hgenerate
    · apply (generate_handsOver hgenerate).append
      cases hresolved : resolveCitations positions hits with
      | some citations =>
        simp only [hresolved] at hrest
        obtain ⟨rfl, -⟩ := Prog.runs_done.mp hrest
        exact fun event hevent => by cases hevent
      | none =>
        simp only [hresolved] at hrest
        exact ih hrest

/-- In every run of a query over the collections of an agent, what is handed to the model are the best points of all the
collections, cut to their first words and to the budget. -/
theorem answerQuery_handsOver (setting : Setting) (question : String) (agent : AgentRow) (config : AgentQueryConfig)
    (sensitivity : String) (keyword : Option String) (kwargs : Dict) (scored : String → List ScoredPoint)
    {events : AnswerTrace} {result : Except Raised Answer} (hbest : ReturnsBest scored config.topK events)
    (h : (answerQuery setting question (agentSearcher agent) config sensitivity keyword kwargs).Runs events result) :
    (∃ error, (retrieving question (agentSearcher agent) config sensitivity keyword kwargs).Runs events (.error error) ∧
        result = .error error) ∨
      ∃ before after hits, events = before ++ after ∧
        (retrieving question (agentSearcher agent) config sensitivity keyword kwargs).Runs before (.ok hits) ∧
        BudgetedTop config ((agent.collectionIds.map Rag.collectionName).flatMap scored) hits ∧
        HandsOver setting question hits after := by
  rw [answerQuery_eq] at h
  rcases Prog.runs_bind.mp h with ⟨error, hretrieve, rfl⟩ | ⟨before, after, hits, rfl, hretrieve, hbuild⟩
  · exact .inl ⟨error, hretrieve, rfl⟩
  have hearlier : ReturnsBest scored config.topK before := fun name vector keyword points hmem =>
    hbest name vector keyword points (List.mem_append_left after hmem)
  refine .inr ⟨before, after, hits, rfl, hretrieve, runs_retrieving hearlier hretrieve, ?_⟩
  rw [buildAnswer] at hbuild
  split at hbuild
  · obtain ⟨rfl, -⟩ := Prog.runs_done.mp hbuild
    exact fun event hevent => by cases hevent
  · exact attempts_handsOver 2 hbuild

/-- An agent that answers from two collections. -/
def staffAgent : AgentRow := ⟨2, "staff", "active", "internal", [3, 4]⟩

/-- A point about leave, and a better one about the office. -/
def leavePoint : ScoredPoint := ⟨"p1", 1, ⟨7, "c1", "Leave is twenty days.", false, none⟩⟩

def officePoint : ScoredPoint := ⟨"p2", 2, ⟨8, "c2", "The office closes at six.", false, none⟩⟩

/-- What the two collections hold for a question. -/
def staffPoints (name : String) : List ScoredPoint :=
  if name = "fleet_3" then [leavePoint] else [officePoint]

/-- The best point, cut to two words. -/
def officeHit : Hit := ⟨"p2", 2, 8, "c2", "The office", false⟩

/-- The caps of its queries. -/
def staffConfig : AgentQueryConfig := ⟨1, 2, 10⟩

/-- Each collection returns its best point, and the model answers from the better one. -/
def staffTrace : AnswerTrace :=
  [⟨.embeddings ["When?"] "internal" [], .ok [.null]⟩, ⟨.search "fleet_3" .null 1 none, .ok [leavePoint]⟩,
    ⟨.search "fleet_4" .null 1 none, .ok [officePoint]⟩, ⟨.newNonce, .ok "0f"⟩,
    ⟨.reasoning [officeHit] (groundedMessages asciiSetting "When?" "0f" [officeHit]) "internal" [],
      .ok (.str "At six [chunk:1].")⟩]

/-- What this run hands over is the best of the two points. -/
theorem staffTrace_handsOver : ∃ before after hits, staffTrace = before ++ after ∧
    BudgetedTop staffConfig ([3, 4].map Rag.collectionName |>.flatMap staffPoints) hits ∧
    HandsOver asciiSetting "When?" hits after := by
  have hone (point : ScoredPoint) : IsTopOf ScoredPoint.score 1 [point] [point] :=
    ⟨[point], ⟨.refl _, List.pairwise_singleton _ _⟩, rfl⟩
  have hbest : ReturnsBest staffPoints staffConfig.topK staffTrace := by
    intro name vector keyword points hmem
    simp only [staffTrace, List.mem_cons, List.not_mem_nil, or_false] at hmem
    rcases hmem with h | h | h | h | h
    · cases h
    · cases h
      exact hone leavePoint
    · cases h
      exact hone officePoint
    · cases h
    · cases h
  have hrun : (answerQuery asciiSetting "When?" (agentSearcher staffAgent) staffConfig "internal" none []).Runs staffTrace
      (.ok ⟨"At six [chunk:1].", [⟨"c2", 8⟩], false⟩) :=
    .await (.await (.await (.await (.await (.done _)))))
  rcases answerQuery_handsOver _ _ _ _ _ _ _ _ hbest hrun with ⟨error, -, hnever⟩ | ⟨before, after, hits, h, -, htop, hgiven⟩
  · cases hnever
  · exact ⟨before, after, hits, h, htop, hgiven⟩

end FleetWorkflow.Answers
