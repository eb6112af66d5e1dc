import FleetWorkflow.Answers.Attribution
import FleetWorkflow.Api.Collections
import FleetWorkflow.Rag.Dedup
import FleetWorkflow.Rag.LocalOnly

/-!
# Answers from content for local models

Collections are created and changed, documents are ingested into them, and questions are answered from
them. What was ingested under the policy `allow-local-only` is remembered here, so that one can say where
it goes: the policy is applied while a document is ingested, and an answer is asked for under the
sensitivity that the collection, or the agent that may read it, has by then.
-/

namespace FleetWorkflow.Answers

open Python Async Core Llm Rag Api

/-- The collections, the stores, and the contents that were ingested under the policy, which nothing reads. -/
structure Knowledge where
  departments : List ℕ
  collections : CollectionTable
  world : World
  confined : List String

/-- A request; a message and a question come with the row of the agent that is found for them. -/
inductive Request where
  | create (body : CollectionIn)
  | update (collectionId : ℕ) (body : CollectionIn)
  | ingest (upload : Upload)
  | chat (agent : AgentRow) (kcSub : String) (conversationId : ℕ) (content : String)
  | agentRun (agent : AgentRow) (agentName question : String)
  | query (collectionId : ℕ) (question : String) (topK : ℕ) (keyword : Option String)

/-- The row of a collection as it is read for an answer. -/
def Knowledge.collection (k : Knowledge) (id : ℕ) : Option CollectionRow :=
  (k.collections.row id).map fun row => ⟨row.id, row.name, row.sensitivity⟩

/-- The table after a request that may be refused. -/
def Knowledge.changed (k : Knowledge) (table : Except Exc CollectionTable) : Knowledge :=
  match table with
  | .ok collections => { k with collections := collections }
  | .error _ => k

section Perform

variable (libraries : Libraries) (surroundings : Surroundings)

/-- The contents that an ingestion reads, if it is under the policy. -/
def confinedBy (upload : Upload) (w : World) : List String :=
  if upload.piiPolicy = "allow-local-only" then
    match ((readText libraries upload).run (World.answer surroundings) w).2 with
    | .ok (_, text, _) => (chunkText defaultMaxTokens text).map Chunk.content
    | .error _ => []
  else []

/-- Perform a request. -/
def Request.perform : Request → Knowledge → Knowledge
  | .create body, k => k.changed (createCollection k.departments k.collections body)
  | .update id body, k => k.changed (updateCollection k.departments k.collections id body)
  | .ingest upload, k =>
    { k with
      world := ((ingestDocument libraries upload).run (World.answer surroundings) k.world).1
      confined := k.confined ++ confinedBy libraries surroundings upload k.world }
  | _, k => k

/-- Perform requests one after another. -/
def performAll (requests : List Request) (k : Knowledge) : Knowledge :=
  requests.foldl (fun k request => request.perform libraries surroundings k) k

end Perform

/-! ## What should hold -/

/-- A sensitivity below `pii`. -/
def BelowPii (texts : GatewayTexts) (sensitivity : String) : Prop :=
  ∃ level, Sensitivity.parse texts (.text sensitivity) = .ok level ∧ level.level < Sensitivity.pii.level

/-- A content as it stands in a prompt. -/
def inPrompt (content : String) : String :=
  (truncate (AgentQueryConfig.ofTopK 0).perChunkTokenCap ⟨"", 0, 0, "", content, false⟩).content

/-- A call that asks a model below `pii` has no confined content in its prompt. -/
def Confined (texts : GatewayTexts) (confined : List String) : AnswerCall → Prop
  | .reasoning sources _ sensitivity _ => BelowPii texts sensitivity →
    ∀ hit ∈ sources, ∀ content ∈ confined, hit.content ≠ inPrompt content
  | _ => True

/-- The database and the vector store reply as they are; everything else may reply as it likes. -/
def Knowledge.Replies (k : Knowledge) (agent : Option AgentRow) : (c : AnswerCall) → Except Raised c.Reply → Prop
  | .getAgent _, reply => ∀ row, reply = .ok (some row) → some row = agent
  | .findAgent _, reply => ∀ row, reply = .ok (some row) → some row = agent
  | .getCollection id, reply => ∀ row, reply = .ok row → row = k.collection id
  | .selectCollections ids, reply => ∀ rows, reply = .ok rows → ∀ id ∈ ids, ∀ row ∈ k.collection id, row ∈ rows
  | .search name _ _ _, reply => ∀ points, reply = .ok points → ∀ point ∈ points,
    ∃ vector, k.world.stores.Holds name point.id (vector, point.payload)
  | _, _ => True

variable (setting : Setting) (libraries : Libraries) (surroundings : Surroundings)

/-- A request sends confined content to local models only: an ingestion under the policy what it ingests, and an
answer what was ingested before. -/
def Request.Confines (k : Knowledge) : Request → Prop
  | .create _ | .update _ _ => True
  | .ingest upload => upload.piiPolicy = "allow-local-only" → ∀ data ∈ k.world.stores.objects upload.objectKey,
    (ingestDocument libraries upload).OnlyGiven (Stored upload.objectKey data) Call.Local
  | .chat agent kcSub conversationId content =>
    (sendMessage setting kcSub conversationId content).OnlyGiven (k.Replies (some agent))
      (Confined setting.texts k.confined)
  | .agentRun agent agentName question =>
    (Answers.agentRun setting agentName question).OnlyGiven (k.Replies (some agent))
      (Confined setting.texts k.confined)
  | .query collectionId question topK keyword =>
    (ragQuery setting collectionId question topK keyword).OnlyGiven (k.Replies none)
      (Confined setting.texts k.confined)

/-! ## When it holds -/

/-- The vector collection of a collection holds confined content. -/
def Knowledge.HoldsConfined (k : Knowledge) (id : ℕ) : Prop :=
  ∃ point stored, k.world.stores.Holds (collectionName id) point stored ∧
    ∃ content ∈ k.confined, inPrompt stored.2.content = inPrompt content

/-- A collection is declared `pii`. -/
def Knowledge.DeclaredPii (k : Knowledge) (id : ℕ) : Prop :=
  ∃ row ∈ k.collection id, Sensitivity.parse setting.texts (.text row.sensitivity) = .ok .pii

/-- An ingestion under the policy is read by the vision model as `pii` only, and a collection that holds confined
content is declared `pii` when it is queried, or when an agent below `pii` answers from it. -/
def Request.Meets (k : Knowledge) : Request → Prop
  | .create _ | .update _ _ => True
  | .ingest upload => upload.piiPolicy = "allow-local-only" → ∀ data ∈ k.world.stores.objects upload.objectKey,
    VisionReads libraries upload data → upload.sensitivity = "pii"
  | .chat agent _ _ _ | .agentRun agent _ _ => agent.name ≠ analyticsAgentName →
    BelowPii setting.texts agent.sensitivity → ∀ id ∈ agent.collectionIds, k.HoldsConfined id → k.DeclaredPii setting id
  | .query collectionId _ _ _ => (k.collection collectionId).isSome → k.HoldsConfined collectionId →
    k.DeclaredPii setting collectionId

/-- Each request of a run meets its condition. -/
def AllMeet : List Request → Knowledge → Prop
  | [], _ => True
  | request :: rest, k =>
    request.Meets setting libraries k ∧ AllMeet rest (request.perform libraries surroundings k)

variable {setting libraries surroundings} {k : Knowledge} {agent : AgentRow} {found : Option AgentRow}

/-! ## Prompts -/

/-- A truncated hit is truncated in its content. -/
theorem truncate_content (hit : Hit) :
    (truncate (AgentQueryConfig.ofTopK 0).perChunkTokenCap hit).content = inPrompt hit.content := by
  simp only [inPrompt, truncate]
  split <;> rfl

/-- The hits within a budget are among those that were kept and those that were found. -/
theorem mem_of_withinBudget {cap spent : ℕ} {kept hits : List Hit} {hit : Hit}
    (h : hit ∈ withinBudget cap spent kept hits) : hit ∈ kept ∨ hit ∈ hits := by
  induction hits generalizing spent kept with
  | nil => exact .inl h
  | cons first rest ih =>
    rw [withinBudget] at h
    split at h
    · exact .inl h
    · rcases ih h with hkept | hrest
      · rcases List.mem_append.mp hkept with hkept | hfirst
        · exact .inl hkept
        · exact .inr (List.mem_cons.mpr (.inl (List.mem_singleton.mp hfirst)))
      · exact .inr (List.mem_cons_of_mem _ hrest)

/-- A hit shows what a collection of some holds. -/
def Knowledge.Shows (k : Knowledge) (ids : List ℕ) (content : String) : Prop :=
  ∃ id ∈ ids, ∃ point stored, k.world.stores.Holds (collectionName id) point stored ∧ stored.2.content = content

/-- No call but one to the reasoning model can break confinement. -/
theorem confined_of_none {c : AnswerCall} {confined : List String} (h : c.request? = none) :
    Confined setting.texts confined c := by
  cases c <;> trivial

/-- A prompt from collections without confined content. -/
theorem confined_reasoning {sources : List Hit} {messages : List Json} {sensitivity : String} {kwargs : Dict}
    {ids : List ℕ} (hsources : ∀ hit ∈ sources, ∃ content, k.Shows ids content ∧ hit.content = inPrompt content)
    (h : BelowPii setting.texts sensitivity → ∀ id ∈ ids, ¬ k.HoldsConfined id) :
    Confined setting.texts k.confined (.reasoning sources messages sensitivity kwargs) := by
  intro hbelow hit hhit content hcontent heq
  obtain ⟨shown, ⟨id, hid, point, stored, hholds, rfl⟩, hshown⟩ := hsources hit hhit
  exact h hbelow id hid ⟨point, stored, hholds, content, hcontent, hshown.symm.trans heq⟩

/-! ## Retrieval -/

/-- A search of one collection shows what it holds. -/
theorem yields_search (id : ℕ) (vector : Json) (topK : ℕ) (keyword : Option String) :
    (awaitAnswer (.search (collectionName id) vector topK keyword)).Yields (k.Replies found)
      (Confined setting.texts k.confined) (fun points => ∀ point ∈ points, k.Shows [id] point.payload.content) := by
  apply Prog.yields_call trivial
  intro points hpoints point hpoint
  obtain ⟨stored, hholds⟩ := hpoints points rfl point hpoint
  exact ⟨id, List.mem_singleton_self id, point.id, _, hholds, rfl⟩

/-- More collections show more. -/
theorem Knowledge.Shows.mono {ids ids' : List ℕ} {content : String} (h : k.Shows ids content)
    (hids : ∀ id ∈ ids, id ∈ ids') : k.Shows ids' content := by
  obtain ⟨id, hid, hholds⟩ := h
  exact ⟨id, hids id hid, hholds⟩

/-- A search of several collections shows what they hold. -/
theorem yields_searchAll (ids : List ℕ) (vector : Json) (topK : ℕ) (keyword : Option String) :
    (searchAll vector topK keyword (ids.map collectionName)).Yields (k.Replies found)
      (Confined setting.texts k.confined) (fun hits => ∀ hit ∈ hits, k.Shows ids hit.content) := by
  induction ids with
  | nil => exact Prog.yields_pure fun hit hhit => by cases hhit
  | cons id rest ih =>
    apply (yields_search id vector topK keyword).bind
    intro points hpoints
    apply ih.bind
    intro hits hhits
    apply Prog.yields_pure
    intro hit hhit
    rcases List.mem_append.mp hhit with hfirst | hrest
    · obtain ⟨point, hpoint, rfl⟩ := List.mem_map.mp hfirst
      exact (hpoints point hpoint).mono (by simp)
    · exact (hhits hit hrest).mono fun id hid => List.mem_cons_of_mem _ hid

/-- The hits of a searcher show what some collections hold. -/
def SearchesIn (setting : Setting) (k : Knowledge) (found : Option AgentRow) (ids : List ℕ) (searcher : Searcher) : Prop :=
  ∀ vector topK keyword, (searcher vector topK keyword).Yields (k.Replies found) (Confined setting.texts k.confined)
    (fun hits => ∀ hit ∈ hits, k.Shows ids hit.content)

/-- An agent searches its collections. -/
theorem searchesIn_agentSearcher : SearchesIn setting k found agent.collectionIds (agentSearcher agent) := by
  intro vector topK keyword
  apply (yields_searchAll agent.collectionIds vector topK keyword).bind
  intro hits hhits
  apply Prog.yields_pure
  intro hit hhit
  exact hhits hit ((List.mem_insertionSort _).mp (List.mem_of_mem_take hhit))

/-- The query endpoint searches its collection. -/
theorem searchesIn_collectionSearcher (id : ℕ) : SearchesIn setting k found [id] (collectionSearcher id) := by
  intro vector topK keyword
  apply (yields_search id vector topK keyword).bind
  intro points hpoints
  apply Prog.yields_pure
  intro hit hhit
  obtain ⟨point, hpoint, rfl⟩ := List.mem_map.mp hhit
  exact hpoints point hpoint

/-- What is retrieved is what the collections hold, as it stands in a prompt. -/
theorem SearchesIn.retrieve {ids : List ℕ} {searcher : Searcher} (h : SearchesIn setting k found ids searcher)
    (queryVector : Json) (topK : ℕ) (keyword : Option String) :
    (Answers.retrieve searcher queryVector (.ofTopK topK) keyword).Yields (k.Replies found)
      (Confined setting.texts k.confined)
      (fun hits => ∀ hit ∈ hits, ∃ content, k.Shows ids content ∧ hit.content = inPrompt content) := by
  apply (h queryVector topK keyword).bind
  intro rawHits hraw
  apply Prog.yields_pure
  intro hit hhit
  rcases mem_of_withinBudget hhit with hkept | hhit
  · cases hkept
  · obtain ⟨raw, hmem, rfl⟩ := List.mem_map.mp hhit
    exact ⟨raw.content, hraw raw hmem, truncate_content raw⟩

/-- An answer from collections without confined content, or under `pii`, is confined. -/
theorem onlyGiven_answerQuery {ids : List ℕ} {searcher : Searcher} {sensitivity : String} {kwargs : Dict}
    (hsearcher : SearchesIn setting k found ids searcher)
    (h : BelowPii setting.texts sensitivity → ∀ id ∈ ids, ¬ k.HoldsConfined id) (question : String) (topK : ℕ)
    (keyword : Option String) :
    (answerQuery setting question searcher (.ofTopK topK) sensitivity keyword kwargs).OnlyGiven (k.Replies found)
      (Confined setting.texts k.confined) := by
  refine Prog.onlyGiven_call_bind.mpr ⟨trivial, fun vectors _ => ?_⟩
  apply (only_lift _).given.yields.onlyGiven_bind
  intro vector _
  apply (hsearcher.retrieve vector topK keyword).onlyGiven_bind
  intro hits hhits
  apply Prog.Only.given
  apply only_buildAnswer
  apply only_generate trivial
  intro messages
  exact confined_reasoning hhits h

/-! ## Requests -/

/-- What is declared `pii` is not below it. -/
theorem not_belowPii {sensitivity : String}
    (h : Sensitivity.parse setting.texts (.text sensitivity) = .ok .pii) : ¬ BelowPii setting.texts sensitivity := by
  rintro ⟨level, hlevel, hbelow⟩
  rw [h] at hlevel
  cases hlevel
  exact absurd hbelow (lt_irrefl _)

/-- The query endpoint confines. -/
theorem query_confines {collectionId topK : ℕ} {question : String} {keyword : Option String}
    (h : (Request.query collectionId question topK keyword).Meets setting libraries k) :
    (Request.query collectionId question topK keyword).Confines setting libraries k := by
  refine Prog.onlyGiven_call_bind.mpr ⟨trivial, fun row hrow => ?_⟩
  have hcollection := hrow row rfl
  cases row with
  | none => trivial
  | some row =>
    refine Prog.onlyGiven_call_bind.mpr ⟨trivial, fun _ _ => ?_⟩
    apply onlyGiven_answerQuery (searchesIn_collectionSearcher collectionId)
    intro hbelow id hid hholds
    obtain rfl := List.mem_singleton.mp hid
    obtain ⟨other, hother, hpii⟩ := h (by rw [← hcollection]; rfl) hholds
    rw [← hcollection] at hother
    cases hother
    exact not_belowPii hpii hbelow

/-- An agent below `pii` passes the check only if none of its collections is declared `pii`. -/
theorem yields_assert : (assertAgentMayReadItsCollections setting agent).Yields (k.Replies found)
    (Confined setting.texts k.confined)
    (fun _ => BelowPii setting.texts agent.sensitivity → ∀ id ∈ agent.collectionIds, ¬ k.DeclaredPii setting id) := by
  rw [assertAgentMayReadItsCollections]
  split
  · rename_i hids
    apply Prog.yields_pure
    intro _ id hid
    rw [hids] at hid
    cases hid
  · apply (Prog.yields_ofExcept fun level hlevel => hlevel).bind
    intro level hlevel
    apply (Prog.yields_call trivial fun rows hrows => hrows rows rfl).bind
    intro rows hrows
    apply Prog.yields_ofExcept
    rintro ⟨⟩ hpassed ⟨own, hown, hbelow⟩ id hid ⟨row, hrow, hpii⟩
    rw [hlevel] at hown
    cases hown
    have habove := above_of_refuseAbove hpassed row (hrows id hid row hrow)
    rw [above, hpii] at habove
    have hlevels : decide (level.level < Sensitivity.pii.level) = false := Except.ok.inj habove
    simp [hbelow] at hlevels

/-- A reply of analytics is confined. -/
theorem onlyGiven_analyticsReply (userContent traceId : String) :
    (analyticsReply setting agent userContent traceId).OnlyGiven (k.Replies found)
      (Confined setting.texts k.confined) := by
  apply Prog.Only.given
  apply only_analyticsReply
  · intro messages _ hit hhit
    cases hhit
  · intro sql
    trivial

/-- A grounded reply of an agent that may not be below `pii` for its collections is confined. -/
theorem onlyGiven_ragReply (h : BelowPii setting.texts agent.sensitivity → ∀ id ∈ agent.collectionIds, ¬ k.HoldsConfined id)
    (userContent traceId : String) :
    (ragReply setting agent userContent traceId).OnlyGiven (k.Replies found) (Confined setting.texts k.confined) := by
  apply (onlyGiven_answerQuery searchesIn_agentSearcher h userContent 5 none).yields.onlyGiven_bind
  intro answer _
  exact (Prog.only_pure _).given

/-- The reply of an agent in chat is confined. -/
theorem onlyGiven_chatReply (h : agent.name ≠ analyticsAgentName → BelowPii setting.texts agent.sensitivity →
      ∀ id ∈ agent.collectionIds, ¬ k.HoldsConfined id)
    (conversation : ConversationRow) (userContent traceId : String) (redactLangfuse : Bool) :
    (chatReply setting agent conversation userContent traceId redactLangfuse).OnlyGiven (k.Replies found)
      (Confined setting.texts k.confined) := by
  rw [chatReply]
  split
  · exact (onlyGiven_analyticsReply userContent traceId).bind_pure
  · rename_i hname
    split
    · exact onlyGiven_ragReply (h hname) userContent traceId
    · apply Prog.Only.given
      apply (only_plainReply trivial trivial fun delta => Prog.only_call trivial).bind
      intro text
      exact Prog.only_pure _

/-- The reply of an agent to an automation is confined. -/
theorem onlyGiven_questionReply (h : agent.name ≠ analyticsAgentName → BelowPii setting.texts agent.sensitivity →
      ∀ id ∈ agent.collectionIds, ¬ k.HoldsConfined id) (question traceId : String) :
    (questionReply setting agent question traceId).OnlyGiven (k.Replies found)
      (Confined setting.texts k.confined) := by
  rw [questionReply]
  split
  · exact onlyGiven_analyticsReply question traceId
  · rename_i hname
    split
    · exact (onlyGiven_ragReply (h hname) question traceId).bind_pure
    · apply Prog.Only.given
      exact only_plainReply trivial trivial fun delta => Prog.only_pure _

/-- Collections that are not declared `pii` hold no confined content, if those that hold some are declared. -/
theorem not_holdsConfined {ids : List ℕ} (h : ∀ id ∈ ids, k.HoldsConfined id → k.DeclaredPii setting id)
    (hnone : ∀ id ∈ ids, ¬ k.DeclaredPii setting id) : ∀ id ∈ ids, ¬ k.HoldsConfined id :=
  fun id hid hholds => hnone id hid (h id hid hholds)

/-- Chat confines. -/
theorem chat_confines {kcSub content : String} {conversationId : ℕ}
    (h : (Request.chat agent kcSub conversationId content).Meets setting libraries k) :
    (Request.chat agent kcSub conversationId content).Confines setting libraries k := by
  apply onlyGiven_sendMessage_of fun c hc => confined_of_none hc
  intro conversation row _ hagent _
  obtain rfl := Option.some.inj (hagent row rfl)
  apply yields_assert.onlyGiven_bind
  intro _ hnone
  refine Prog.onlyGiven_call_bind.mpr ⟨trivial, fun _ _ => ?_⟩
  apply onlyGiven_streamReply fun c hc => confined_of_none hc
  intro traceId
  apply onlyGiven_chatReply
  intro hname hbelow
  exact not_holdsConfined (h hname hbelow) (hnone hbelow)

/-- The agent runs of automations confine. -/
theorem agentRun_confines {agentName question : String}
    (h : (Request.agentRun agent agentName question).Meets setting libraries k) :
    (Request.agentRun agent agentName question).Confines setting libraries k := by
  apply onlyGiven_agentRun_of fun c hc => confined_of_none hc
  intro row hagent _
  obtain rfl := Option.some.inj (hagent row rfl)
  apply yields_assert.onlyGiven_bind
  intro _ hnone
  refine Prog.onlyGiven_call_bind.mpr ⟨trivial, fun _ _ => ?_⟩
  refine Prog.onlyGiven_call_bind.mpr ⟨trivial, fun traceId _ => ?_⟩
  apply Prog.OnlyGiven.bind_pure
  apply onlyGiven_questionReply
  intro hname hbelow
  exact not_holdsConfined (h hname hbelow) (hnone hbelow)

/-- A request that meets its condition confines. -/
theorem Request.confines_of_meets {request : Request} (h : request.Meets setting libraries k) :
    request.Confines setting libraries k := by
  cases request with
  | create body => trivial
  | update id body => trivial
  | ingest upload => exact fun hpolicy data hdata => ingestDocument_local hpolicy (h hpolicy data hdata)
  | chat agent kcSub conversationId content => exact chat_confines h
  | agentRun agent agentName question => exact agentRun_confines h
  | query collectionId question topK keyword => exact query_confines h

/-- In every run whose requests meet their conditions, what was ingested under the policy is sent to local models
only. -/
theorem requests_confine (requests : List Request) (k : Knowledge)
    (h : AllMeet setting libraries surroundings requests k) {earlier later : List Request} {request : Request}
    (hsplit : requests = earlier ++ request :: later) :
    request.Confines setting libraries (performAll libraries surroundings earlier k) := by
  induction earlier generalizing requests k with
  | nil =>
    subst hsplit
    exact Request.confines_of_meets h.1
  | cons first earlier ih =>
    subst hsplit
    exact ih _ (first.perform libraries surroundings k) h.2 rfl

/-! ## Collections that give content away -/

/-- The first hit fits every budget. -/
theorem withinBudget_singleton (cap : ℕ) (hit : Hit) : withinBudget cap 0 [] [hit] = [hit] := by
  simp [withinBudget]

section Asks

attribute [local irreducible] Prog.OnlyGiven

variable {possible : (c : AnswerCall) → Except Raised c.Reply → Prop} {calls : AnswerCall → Prop}
  {collectionId topK : ℕ} {keyword : Option String} {point : ScoredPoint}

/-- A search that finds one point goes on with it. -/
theorem retrieve_next {α : Type} {vector : Json} {next : List Hit → Answering α}
    (h : (retrieve (collectionSearcher collectionId) vector (.ofTopK topK) keyword >>= next).OnlyGiven possible calls)
    (hsearch : possible (.search (collectionName collectionId) vector topK keyword) (.ok [point])) :
    (next [truncate (AgentQueryConfig.ofTopK topK).perChunkTokenCap point.hit]).OnlyGiven possible calls := by
  simp only [retrieve, collectionSearcher, Prog.bind_assoc] at h
  have hfound := h.next _ hsearch
  simp only [Prog.pure_eq, Prog.done_bind, List.map_cons, List.map_nil, withinBudget_singleton] at hfound
  exact hfound

/-- A query asks about what its search finds. -/
theorem ragQuery_asks {question : String} {row : CollectionRow}
    (h : (ragQuery setting collectionId question topK keyword).OnlyGiven possible calls)
    (hrow : possible (.getCollection collectionId) (.ok (some row))) (hclient : possible .buildClient (.ok ()))
    (hembed : possible (.embeddings [question] row.sensitivity []) (.ok [.null]))
    (hsearch : possible (.search (collectionName collectionId) .null topK keyword) (.ok [point]))
    (hnonce : possible .newNonce (.ok "")) :
    ∃ messages, calls (.reasoning [truncate (AgentQueryConfig.ofTopK topK).perChunkTokenCap point.hit] messages
      row.sensitivity []) := by
  have hread := h.next (some row) hrow
  have hbuilt := hread.next () hclient
  have hasked := answerQuery_search hbuilt hembed
  have hfound := retrieve_next hasked hsearch
  exact buildAnswer_asks hfound (List.cons_ne_nil _ _) hnonce

end Asks

/-- A collection below `pii` that holds confined content gives it away to a query. -/
theorem query_not_confines {collectionId topK : ℕ} {question : String} {keyword : Option String} {row : CollectionRow}
    (hrow : k.collection collectionId = some row) (hbelow : BelowPii setting.texts row.sensitivity)
    (hholds : k.HoldsConfined collectionId) :
    ¬ (Request.query collectionId question topK keyword).Confines setting libraries k := by
  intro h
  obtain ⟨point, ⟨vector, payload⟩, hpoint, content, hcontent, hsame⟩ := hholds
  have hreplies : ∀ row', Except.ok (some row) = (Except.ok row' : Except Raised (Option CollectionRow)) →
      row' = k.collection collectionId := by
    intro row' hrow'
    rw [hrow]
    exact (Except.ok.inj hrow').symm
  have hfinds : ∀ points, Except.ok [⟨point, 0, payload⟩] = (Except.ok points : Except Raised (List ScoredPoint)) →
      ∀ other ∈ points, ∃ vector, k.world.stores.Holds (collectionName collectionId) other.id (vector, other.payload) := by
    intro points hpoints other hother
    cases hpoints
    obtain rfl := List.mem_singleton.mp hother
    exact ⟨vector, hpoint⟩
  obtain ⟨messages, hask⟩ := ragQuery_asks h hreplies trivial trivial hfinds trivial
  have hprompt : (truncate (AgentQueryConfig.ofTopK topK).perChunkTokenCap (ScoredPoint.hit ⟨point, 0, payload⟩)).content =
      inPrompt payload.content := truncate_content _
  exact hask hbelow _ (List.mem_singleton_self _) content hcontent (hprompt.trans hsame)

/-- A collection for local models under a sensitivity. -/
def playbooks (sensitivity : String) : CollectionIn where
  name := "playbooks"
  deptId := none
  sensitivity := sensitivity
  retentionDays := none
  piiPolicy := "allow-local-only"
  retention_pos := by simp

/-- Two documents that wait for their ingestion. -/
def waiting : Knowledge := ⟨[], .empty, ⟨0, twoCopies⟩, []⟩

/-- The ingestion of the first under the policy. -/
def playbook (sensitivity : String) : Upload := ⟨0, 0, "0/a.txt", "a.txt", sensitivity, "allow-local-only"⟩

/-- A question to the collection. -/
def question : Request := .query 0 "What is the fallback?" 5 none

/-- A text file is not read by the vision model. -/
theorem playbook_not_visionReads (sensitivity : String) (data : Bytes) :
    ¬ VisionReads plainLibraries (playbook sensitivity) data := by
  rintro ⟨extracted, level, hextracted, hocr, -, -⟩
  have hextension : extension plainLibraries "a.txt" = ".txt" := by decide
  rw [extractText, playbook, hextension] at hextracted
  cases hextracted
  cases hocr

/-- A question to a collection that is declared `pii` and stays so. -/
theorem playbooks_confine : question.Confines asciiSetting plainLibraries
    (performAll plainLibraries .calm [.create (playbooks "pii"), .ingest (playbook "pii")] waiting) := by
  have hsplit : [.create (playbooks "pii"), .ingest (playbook "pii"), question] =
      [.create (playbooks "pii"), .ingest (playbook "pii")] ++ question :: [] := rfl
  refine requests_confine _ waiting ?_ hsplit
  refine ⟨trivial, fun _ data _ hreads => absurd hreads (playbook_not_visionReads "pii" data), ?_, trivial⟩
  intro _ _
  exact ⟨⟨0, "playbooks", "pii"⟩, rfl, rfl⟩

/-- The point of the chunk of the text file. -/
def playbookPoint : Point :=
  ⟨pointIdFor (Chunk.contentSha256 ⟨"a"⟩), [.decimal false 1 0], 0, Chunk.contentSha256 ⟨"a"⟩, "a", false, none⟩

/-- A collection with that point holds confined content, as long as it is remembered. -/
theorem holdsConfined_of_playbookPoint (collection : VectorCollection)
    (hvectors : k.world.stores.vectors "fleet_0" = some (collection.upsert [playbookPoint]))
    (hconfined : k.confined = ["a"]) : k.HoldsConfined 0 := by
  refine ⟨playbookPoint.id, (playbookPoint.vector, playbookPoint.payload), ⟨_, hvectors, ?_⟩, "a", ?_, rfl⟩
  · exact collection.put_points_self playbookPoint
  · rw [hconfined]
    exact List.mem_singleton_self "a"

/-- A question to a collection that was created below `pii`, and one to a collection that was lowered after the
ingestion. -/
theorem playbooks_not_confine :
    ¬ question.Confines asciiSetting plainLibraries
        (performAll plainLibraries .calm [.create (playbooks "internal"), .ingest (playbook "internal")] waiting) ∧
      ¬ question.Confines asciiSetting plainLibraries
        (performAll plainLibraries .calm
          [.create (playbooks "pii"), .ingest (playbook "pii"), .update 0 (playbooks "internal")] waiting) := by
  have hbelow : BelowPii asciiSetting.texts (CollectionRow.sensitivity ⟨0, "playbooks", "internal"⟩) :=
    ⟨.internal, rfl, by decide⟩
  constructor
  · have hholds : (performAll plainLibraries .calm
        [.create (playbooks "internal"), .ingest (playbook "internal")] waiting).HoldsConfined 0 :=
      holdsConfined_of_playbookPoint ⟨1, fun _ => none⟩ rfl rfl
    exact query_not_confines rfl hbelow hholds
  · have hholds : (performAll plainLibraries .calm
        [.create (playbooks "pii"), .ingest (playbook "pii"), .update 0 (playbooks "internal")] waiting).HoldsConfined 0 :=
      holdsConfined_of_playbookPoint ⟨1, fun _ => none⟩ rfl rfl
    exact query_not_confines rfl hbelow hholds

end FleetWorkflow.Answers
