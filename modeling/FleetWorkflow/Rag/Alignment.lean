import FleetWorkflow.Async.Runs
import FleetWorkflow.Llm.EmbeddingOrder
import FleetWorkflow.Rag.Dedup

/-!
# Vectors and their chunks

The chunks that the policy lets pass are embedded in one request, and the vectors of its reply are paired with them in order.
So each point has the vector that the reply gives for the position of its own text; a reply of another length stores nothing.
-/

namespace FleetWorkflow.Rag

open Python Async Llm

/-- A run of the retrieval service. -/
abbrev RagTrace := List (Event Call Reply Exc)

/-- The points that a call sends to the vector store. -/
def Call.points : Call → List Point
  | .upsert _ points => points
  | _ => []

/-- The points that are sent in a run. -/
def upserted (events : RagTrace) : List Point := events.flatMap fun event => event.call.points

/-- The texts are embedded with some vectors. -/
def Embeds (texts : List String) (sensitivity : String) (vectors : List Vector) (events : RagTrace) : Prop :=
  ∃ name hashes, ⟨.embeddings name hashes texts sensitivity, .ok vectors⟩ ∈ events

/-- A vector as the proxy writes it. -/
def vectorJson (vector : Vector) : Json := .arr (vector.map .float)

/-- The gateway client returns the vectors, and what the proxy has replied to it are the items. -/
def Served (client : LlmClient) (texts : List String) (sensitivity : String) (vectors : List Vector) (items : List Json) :
    Prop :=
  ∃ events response name body, (client.embeddings texts (.text sensitivity) false []).Runs events (.ok response) ∧
    response.vectors = vectors.map vectorJson ∧ ⟨.embed name texts [], .ok body⟩ ∈ events ∧
    Json.get? body "data" = some (.arr items)

/-- A point is that of the chunk at a position: it has the vector that the reply gives for this position, and the digest, the
text and the flags of the chunk. -/
structure PointOfChunk (upload : Upload) (items : List Json) (index : ℕ) (kept : Kept) (point : Point) : Prop where
  id : point.id = pointIdFor kept.1.contentSha256
  vector : EmbeddingAt items index (vectorJson point.vector)
  payload : point.payload =
    ⟨upload.documentId, kept.1.contentSha256, kept.2.text, kept.2.redacted, originalSensitivity upload kept⟩

/-- There is one point for each chunk, in their order. -/
def Aligned (upload : Upload) (items : List Json) (keep : List Kept) (points : List Point) : Prop :=
  points.length = keep.length ∧ ∀ (index : ℕ) (kept : Kept), keep[index]? = some kept →
    ∃ point, points[index]? = some point ∧ PointOfChunk upload items index kept point

/-- A row is that of a chunk. -/
structure RowOfChunk (upload : Upload) (kept : Kept) (row : PersistedChunk) : Prop where
  contentSha256 : row.contentSha256 = kept.1.contentSha256
  qdrantPointId : row.qdrantPointId = pointIdFor kept.1.contentSha256
  tokens : row.tokens = (splitWords kept.2.text).length
  redacted : row.redacted = kept.2.redacted
  originalSensitivity : row.originalSensitivity = originalSensitivity upload kept

/-- The chunks are embedded by their own texts, and the points of the run are aligned with them. -/
def StoresAligned (client : LlmClient) (upload : Upload) (keep : List Kept) (events : RagTrace) : Prop :=
  ∃ sensitivity vectors items, Embeds (keep.map fun kept => kept.2.text) sensitivity vectors events ∧
    Served client (keep.map fun kept => kept.2.text) sensitivity vectors items ∧
    Aligned upload items keep (upserted events)

/-- What is stored for some chunks is aligned with them: all points that are sent, and when the run returns also the rows, and
nothing is sent or returned when the number of vectors differs from that of the chunks. -/
structure KeepsAligned (client : LlmClient) (upload : Upload) (keep : List Kept) (events : RagTrace)
    (result : Except Exc IngestOutcome) : Prop where
  points : upserted events ≠ [] → StoresAligned client upload keep events
  returned : ∀ outcome, result = .ok outcome → (keep = [] ∨ StoresAligned client upload keep events) ∧
    List.Forall₂ (RowOfChunk upload) keep outcome.persistedChunks
  differs : ∀ texts sensitivity vectors, Embeds texts sensitivity vectors events → vectors.length ≠ keep.length →
    upserted events = [] ∧ ∃ error, result = .error error

/-- The embeddings of a run are those of the gateway client, whose replies carry their indexes. -/
def EmbeddedBy (client : LlmClient) (events : RagTrace) : Prop :=
  ∀ texts sensitivity vectors, Embeds texts sensitivity vectors events →
    ∃ items, Served client texts sensitivity vectors items ∧ CarriesIndexes items

variable {client : LlmClient} {upload : Upload} {keep : List Kept} {events : RagTrace}

/-- The vectors of the client stand in the order of the texts. -/
theorem Served.embeddingAt {texts : List String} {sensitivity : String} {vectors : List Vector} {items : List Json}
    (h : Served client texts sensitivity vectors items) (hcarries : CarriesIndexes items) {index : ℕ} {vector : Vector}
    (hvector : vectors[index]? = some vector) : EmbeddingAt items index (vectorJson vector) := by
  obtain ⟨events, response, name, body, hruns, hvectors, hreply, hdata⟩ := h
  obtain ⟨-, hread⟩ := runs_embeddings hruns hreply
  apply (vectorsOf_inOrder hdata hcarries hread).2
  rw [hvectors, List.getElem?_map, hvector]
  rfl

/-- Points made of as many vectors are aligned with the chunks. -/
theorem aligned_zipWith {texts : List String} {sensitivity : String} {vectors : List Vector} {items : List Json}
    (h : Served client texts sensitivity vectors items) (hcarries : CarriesIndexes items)
    (hlength : vectors.length = keep.length) : Aligned upload items keep (List.zipWith (pointOf upload) keep vectors) := by
  refine ⟨by rw [List.length_zipWith, hlength, Nat.min_self], fun index kept hkept => ?_⟩
  obtain ⟨hbound, rfl⟩ := List.getElem?_eq_some_iff.mp hkept
  have hvector : vectors[index]? = some vectors[index] := List.getElem?_eq_getElem _
  refine ⟨pointOf upload keep[index] vectors[index], ?_, rfl, h.embeddingAt hcarries hvector, rfl⟩
  rw [List.getElem?_zipWith, hkept, hvector]

/-- Calls that send no point send none together. -/
theorem upserted_eq_nil (h : ∀ event ∈ events, event.call.points = []) : upserted events = [] := by
  rw [upserted, List.flatMap_eq_nil_iff]
  exact h

theorem upserted_append (before after : RagTrace) : upserted (before ++ after) = upserted before ++ upserted after :=
  List.flatMap_append

/-- A call that reads or makes sure of a collection. -/
def Silent (c : Call) : Prop := Reads c ∨ EnsuresCollection c

/-- It sends no point. -/
theorem Silent.points {c : Call} (h : Silent c) : c.points = [] := by
  cases c with
  | upsert name points => exact h.elim False.elim False.elim
  | _ => rfl

/-- Nothing is embedded by such calls. -/
theorem not_embeds_of_silent (h : ∀ event ∈ events, Silent event.call) {texts : List String} {sensitivity : String}
    {vectors : List Vector} : ¬ Embeds texts sensitivity vectors events := by
  rintro ⟨name, hashes, hmem⟩
  exact (h _ hmem).elim False.elim False.elim

/-- What is embedded in two runs is embedded in one of them. -/
theorem embeds_append {texts : List String} {sensitivity : String} {vectors : List Vector} {before after : RagTrace} :
    Embeds texts sensitivity vectors (before ++ after) ↔
      Embeds texts sensitivity vectors before ∨ Embeds texts sensitivity vectors after := by
  simp only [Embeds, List.mem_append, exists_or]

/-- Storing the vectors of some chunks embeds their texts once: with as many vectors their points are sent, and otherwise
nothing is. -/
theorem runs_storeVectors {result : Except Exc Unit} (h : (storeVectors upload keep).Runs events result) :
    (upserted events = [] ∧ ∃ error, result = .error error) ∨
      ∃ vectors, vectors.length = keep.length ∧ upserted events = List.zipWith (pointOf upload) keep vectors ∧
        Embeds (keep.map fun kept => kept.2.text) (embedSensitivity upload keep) vectors events ∧
        ∀ texts sensitivity others, Embeds texts sensitivity others events → others = vectors := by
  rw [storeVectors] at h
  rcases Prog.runs_call_bind.mp h with ⟨error, rfl, rfl⟩ | ⟨vectors, rest, rfl, hembedded⟩
  · exact .inl ⟨rfl, error, rfl⟩
  rcases Prog.runs_ofExcept_bind.mp hembedded with ⟨error, -, rfl, rfl⟩ | ⟨size, -, hsized⟩
  · exact .inl ⟨rfl, error, rfl⟩
  have hsilent {before : RagTrace} {outcome : Except Exc Unit}
      (hensure : (ensureCollection (collectionName upload.collectionId) size).Runs before outcome) :
      ∀ event ∈ before, Silent event.call :=
    fun event hevent => .inr ((only_ensureCollection _ size).runs hensure event hevent)
  have hnone {before : RagTrace} {outcome : Except Exc Unit}
      (hensure : (ensureCollection (collectionName upload.collectionId) size).Runs before outcome) : upserted before = [] :=
    upserted_eq_nil fun event hevent => (hsilent hensure event hevent).points
  rcases Prog.runs_bind.mp hsized with ⟨error, hensure, rfl⟩ | ⟨before, after, _, rfl, hensure, hchecked⟩
  · exact .inl ⟨show upserted rest = [] from hnone hensure, error, rfl⟩
  rcases Prog.runs_ofExcept_bind.mp hchecked with ⟨error, -, rfl, rfl⟩ | ⟨_, hsame, hupsert⟩
  · rw [List.append_nil]
    exact .inl ⟨show upserted before = [] from hnone hensure, error, rfl⟩
  obtain ⟨reply, rest, rfl, hdone⟩ := Prog.runs_await.mp hupsert
  have hrest : rest = [] := by
    cases reply with
    | ok value => exact (Prog.runs_done.mp hdone).1
    | error error => exact (Prog.runs_raise.mp hdone).1
  subst hrest
  refine .inr ⟨vectors, ?_, ?_, ⟨_, _, List.mem_cons_self⟩, fun texts sensitivity others hothers => ?_⟩
  · rw [sameLength] at hsame
    split at hsame
    · cases hsame
    · split at hsame
      · cases hsame
      · omega
  · rw [← List.singleton_append, upserted_append, upserted_append, hnone hensure]
    exact List.append_nil _
  · rcases embeds_append.mp (show Embeds texts sensitivity others ([_] ++ (before ++ [_])) from hothers) with hfirst | hlater
    · obtain ⟨name, hashes, hmem⟩ := hfirst
      cases List.mem_singleton.mp hmem
      rfl
    · rcases embeds_append.mp hlater with hbefore | hafter
      · exact (not_embeds_of_silent (hsilent hensure) hbefore).elim
      · obtain ⟨name, hashes, hmem⟩ := hafter
        cases List.mem_singleton.mp hmem

/-- The rows of chunks are theirs. -/
theorem rowsOfChunks (upload : Upload) (keep : List Kept) :
    List.Forall₂ (RowOfChunk upload) keep (keep.map (persistedOf upload)) := by
  rw [List.forall₂_map_right_iff, List.forall₂_same]
  exact fun kept _ => ⟨rfl, rfl, rfl, rfl, rfl⟩

/-- A run that embeds and sends nothing, and returns no row. -/
theorem keepsAligned_of_nothing {result : Except Exc IngestOutcome} (hpoints : upserted events = [])
    (hresult : ∀ outcome, result = .ok outcome → keep = [] ∧ outcome.persistedChunks = [])
    (hnone : ∀ texts sensitivity vectors, ¬ Embeds texts sensitivity vectors events) :
    KeepsAligned client upload keep events result := by
  refine ⟨fun hne => absurd hpoints hne, fun outcome houtcome => ?_, fun texts sensitivity vectors h => absurd h (hnone _ _ _)⟩
  obtain ⟨rfl, hrows⟩ := hresult outcome houtcome
  rw [hrows]
  exact ⟨.inl rfl, .nil⟩

variable (libraries : Libraries)

/-- The pipeline keeps the vectors of a text aligned with the chunks that it keeps. -/
theorem runs_ingestText {existing : List String} {text : String} {usedOcr : Bool} {result : Except Exc IngestOutcome}
    (hclient : EmbeddedBy client events) (h : (ingestText libraries upload existing text usedOcr).Runs events result) :
    KeepsAligned client upload (keptChunks libraries upload existing text) events result := by
  have hnothing : ∀ texts sensitivity vectors, ¬ Embeds texts sensitivity vectors [] := by
    rintro texts sensitivity vectors ⟨_, _, hmem⟩
    cases hmem
  rw [ingestText] at h
  rcases Prog.runs_ofExcept_bind.mp h with ⟨error, -, rfl, rfl⟩ | ⟨policies, hpolicies, hstore⟩
  · exact keepsAligned_of_nothing rfl (fun _ hnever => by cases hnever) hnothing
  rw [keptChunks, hpolicies]
  dsimp only at hstore ⊢
  generalize policies.filter (fun kept => !kept.2.blocked) = keep at hstore ⊢
  split at hstore
  · rename_i hempty
    obtain ⟨rfl, rfl⟩ := Prog.runs_done.mp hstore
    refine keepsAligned_of_nothing rfl (fun outcome houtcome => ?_) hnothing
    cases houtcome
    exact ⟨List.isEmpty_iff.mp hempty, rfl⟩
  · have hstored : ∃ stored : Except Exc Unit, (storeVectors upload keep).Runs events stored ∧
        ((∃ error, result = .error error ∧ stored = .error error) ∨
          ∃ outcome, result = .ok outcome ∧ outcome.persistedChunks = keep.map (persistedOf upload) ∧ stored = .ok ()) := by
      rcases Prog.runs_bind.mp hstore with ⟨error, hstored, rfl⟩ | ⟨before, after, _, rfl, hstored, hreturn⟩
      · exact ⟨_, hstored, .inl ⟨error, rfl, rfl⟩⟩
      · obtain ⟨rfl, rfl⟩ := Prog.runs_done.mp hreturn
        rw [List.append_nil]
        exact ⟨_, hstored, .inr ⟨_, rfl, rfl, rfl⟩⟩
    obtain ⟨stored, hstored, hresult⟩ := hstored
    rcases runs_storeVectors hstored with ⟨hnone, error, rfl⟩ | ⟨vectors, hlength, hpoints, hembeds, honly⟩
    · obtain ⟨error', rfl, -⟩ | ⟨_, -, -, hnever⟩ := hresult
      · refine ⟨fun hne => absurd hnone hne, fun _ hnever => (by cases hnever), fun _ _ _ _ _ => ⟨hnone, error', rfl⟩⟩
      · cases hnever
    · obtain ⟨items, hserved, hcarries⟩ := hclient _ _ _ hembeds
      have haligned : StoresAligned client upload keep events := by
        refine ⟨_, vectors, items, hembeds, hserved, ?_⟩
        rw [hpoints]
        exact aligned_zipWith hserved hcarries hlength
      refine ⟨fun _ => haligned, fun outcome houtcome => ⟨.inr haligned, ?_⟩, fun texts sensitivity others hothers hne => ?_⟩
      · obtain ⟨error, rfl, -⟩ | ⟨_, rfl, hrows, -⟩ := hresult
        · cases houtcome
        · cases houtcome
          rw [hrows]
          exact rowsOfChunks upload keep
      · rw [honly texts sensitivity others hothers] at hne
        exact absurd hlength hne

/-- In every run of the pipeline whose embeddings come from the gateway client, with replies that carry their indexes in any
order, each chunk that is kept of the text has one point, with the vector of its own text, and one row. -/
theorem runIngestion_keepsAligned (client : LlmClient) (upload : Upload) (data : Bytes) (existing : List String)
    {events : RagTrace} {result : Except Exc IngestOutcome} (hclient : EmbeddedBy client events)
    (h : (runIngestion libraries upload data existing).Runs events result) :
    (∃ error, (uploadText libraries upload data).Runs events (.error error) ∧ result = .error error ∧ upserted events = []) ∨
      ∃ before after text usedOcr, events = before ++ after ∧
        (uploadText libraries upload data).Runs before (.ok (text, usedOcr)) ∧
        KeepsAligned client upload (keptChunks libraries upload existing text) events result := by
  have hsilent {before : RagTrace} {outcome : Except Exc (String × Bool)}
      (hread : (uploadText libraries upload data).Runs before outcome) : ∀ event ∈ before, Silent event.call :=
    fun event hevent => .inl ((only_uploadText libraries upload data).runs hread event hevent)
  have hnone {before : RagTrace} {outcome : Except Exc (String × Bool)}
      (hread : (uploadText libraries upload data).Runs before outcome) : upserted before = [] :=
    upserted_eq_nil fun event hevent => (hsilent hread event hevent).points
  rw [runIngestion] at h
  rcases Prog.runs_bind.mp h with ⟨error, hread, rfl⟩ | ⟨before, after, ⟨text, usedOcr⟩, rfl, hread, hingest⟩
  · exact .inl ⟨error, hread, rfl, hnone hread⟩
  refine .inr ⟨before, after, text, usedOcr, rfl, hread, ?_⟩
  have hembeds {texts : List String} {sensitivity : String} {vectors : List Vector} :
      Embeds texts sensitivity vectors (before ++ after) ↔ Embeds texts sensitivity vectors after := by
    rw [embeds_append, or_iff_right (not_embeds_of_silent (hsilent hread))]
  have hpoints : upserted (before ++ after) = upserted after := by rw [upserted_append, hnone hread, List.nil_append]
  obtain ⟨hsent, hreturned, hdiffers⟩ :=
    runs_ingestText libraries (fun texts sensitivity vectors h => hclient texts sensitivity vectors (hembeds.mpr h)) hingest
  have hwhole (keep : List Kept) (h : StoresAligned client upload keep after) :
      StoresAligned client upload keep (before ++ after) := by
    obtain ⟨sensitivity, vectors, items, hmade, hserved, haligned⟩ := h
    exact ⟨sensitivity, vectors, items, hembeds.mpr hmade, hserved, hpoints ▸ haligned⟩
  refine ⟨fun hne => hwhole _ (hsent (hpoints ▸ hne)), fun outcome houtcome => ?_, fun texts sensitivity vectors hmade hne => ?_⟩
  · exact ⟨(hreturned outcome houtcome).1.imp_right (hwhole _), (hreturned outcome houtcome).2⟩
  · rw [hpoints]
    exact hdiffers texts sensitivity vectors (hembeds.mp hmade) hne

/-- A client with one model, which embeds. -/
def embedder : LlmClient :=
  { twoLanes with models := [⟨"embeddings", "local", "local/embed", "pii", 0, 0, none, "embeddings"⟩] }

/-- The reply of the proxy to one text. -/
def oneVector : Dict :=
  [("data", .arr [.obj [("index", .int 0), ("embedding", .arr [.float (.decimal false 1 0)])]])]

/-- The pipeline embeds the one chunk of a text file and stores its vector. -/
def storingTrace : RagTrace :=
  [⟨.embeddings "fleet_0" [Chunk.contentSha256 ⟨"a"⟩] ["a"] "INTERNAL", .ok [[.decimal false 1 0]]⟩,
    ⟨.collectionExists "fleet_0", .ok true⟩,
    ⟨.upsert "fleet_0" [pointOf uploadA (⟨"a"⟩, ⟨"a", false, false, false⟩) [.decimal false 1 0]], .ok ()⟩]

/-- The point of this run is that of its chunk. -/
theorem storingTrace_keepsAligned : ∃ before after text usedOcr outcome, storingTrace = before ++ after ∧
    KeepsAligned embedder uploadA (keptChunks plainLibraries uploadA [] text) storingTrace (.ok outcome) ∧
    (uploadText plainLibraries uploadA [97]).Runs before (.ok (text, usedOcr)) := by
  have hserved : Served embedder ["a"] "INTERNAL" [[.decimal false 1 0]]
      [.obj [("index", .int 0), ("embedding", .arr [.float (.decimal false 1 0)])]] := by
    have hruns : ∃ row response, (embedder.embeddings ["a"] (.text "INTERNAL") false []).Runs
        [⟨.embed "embeddings" ["a"] [], .ok oneVector⟩, ⟨.record row, .ok ()⟩] (.ok response) ∧
        response.vectors = [vectorJson [.decimal false 1 0]] := ⟨_, _, .await (.await (.done _)), rfl⟩
    obtain ⟨row, response, hruns, hvectors⟩ := hruns
    exact ⟨_, response, "embeddings", oneVector, hruns, hvectors, List.mem_cons_self, rfl⟩
  have hcarries : CarriesIndexes [.obj [("index", .int 0), ("embedding", .arr [.float (.decimal false 1 0)])]] :=
    ⟨[0], .refl _, .cons ⟨_, rfl, rfl⟩ .nil⟩
  have hclient : EmbeddedBy embedder storingTrace := by
    rintro texts sensitivity vectors ⟨name, hashes, hmem⟩
    simp only [storingTrace, List.mem_cons, List.not_mem_nil, or_false] at hmem
    rcases hmem with h | h | h
    · cases h
      exact ⟨_, hserved, hcarries⟩
    · cases h
    · cases h
  have hrun : (runIngestion plainLibraries uploadA [97] []).Runs storingTrace
      (.ok ⟨1, 0, 0, false, [persistedOf uploadA (⟨"a"⟩, ⟨"a", false, false, false⟩)]⟩) :=
    .await (.await (.await (.done _)))
  rcases runIngestion_keepsAligned plainLibraries embedder uploadA [97] [] hclient hrun with
    ⟨error, -, hnever, -⟩ | ⟨before, after, text, usedOcr, hevents, hread, haligned⟩
  · cases hnever
  · exact ⟨before, after, text, usedOcr, _, hevents, haligned, hread⟩

end FleetWorkflow.Rag
