import FleetWorkflow.Flow.Fallible
import FleetWorkflow.Llm.Metering

/-!
# The order of embeddings

An embeddings reply names the position of each text in its items, which may come in any order. The client sorts them by this
index, so that the vectors that it returns stand in the order of the texts.
-/

namespace FleetWorkflow.Llm

open Python Async Flow LlmClient

/-- An item of the reply is the embedding of the text at a position. -/
def HasIndex (index : ℕ) (item : Json) : Prop := ∃ fields, item = .obj fields ∧ Json.get? fields "index" = some (.int index)

/-- The items carry the indexes from zero on, in any order. -/
def CarriesIndexes (data : List Json) : Prop :=
  ∃ indexes : List ℕ, indexes.Perm (List.range data.length) ∧ List.Forall₂ HasIndex indexes data

/-- A vector is what the reply gives for the text at a position. -/
def EmbeddingAt (data : List Json) (index : ℕ) (vector : Json) : Prop :=
  ∃ item ∈ data, HasIndex index item ∧ item.item "embedding" = .ok vector

/-- The key of an index that is a natural number. -/
def naturalKey (n : ℕ) : PyFloat := .decimal false n 0

/-- It is the number that the index is. -/
theorem indexKey_natural (n : ℕ) : indexKey (.int n) = some (naturalKey n) := by
  have hnot : ¬(n : ℤ) < 0 := by omega
  simp [indexKey, naturalKey, hnot]

/-- Keys are compared as their numbers. -/
theorem naturalKey_le (n m : ℕ) : (naturalKey n).le (naturalKey m) = true ↔ n ≤ m := by
  simp [naturalKey, PyFloat.le]

/-- The keys of items that carry indexes. -/
theorem keys_of_carries {indexes : List ℕ} {data : List Json} (h : List.Forall₂ HasIndex indexes data) :
    (data.mapM fun item => item.getOr "index" (.int 0)) = .ok (indexes.map fun n : ℕ => Json.int n) ∧
      (indexes.map fun n : ℕ => Json.int n).mapM indexKey = some (indexes.map naturalKey) := by
  induction h with
  | nil => exact ⟨rfl, rfl⟩
  | cons hitem _ ih =>
    obtain ⟨fields, rfl, hindex⟩ := hitem
    constructor
    · rw [List.mapM_cons, ih.1, Json.getOr, hindex]
      rfl
    · rw [List.map_cons, List.mapM_cons, indexKey_natural, ih.2]
      rfl

/-- Items that carry indexes are sorted by them. -/
theorem sortedByIndex_eq {indexes : List ℕ} {data : List Json} (h : List.Forall₂ HasIndex indexes data) :
    sortedByIndex data = .ok (((indexes.zip data).insertionSort fun a b => a.1 ≤ b.1).map Prod.snd) := by
  obtain ⟨hindices, hkeys⟩ := keys_of_carries h
  have hsort := List.map_insertionSort (fun a b : ℕ × Json => a.1 ≤ b.1) (fun a b : PyFloat × Json => a.1.le b.1 = true)
    (Prod.map naturalKey id) (indexes.zip data) fun a _ b _ => (naturalKey_le a.1 b.1).symm
  rw [sortedByIndex, hindices]
  have hzip : (indexes.map naturalKey).zip data = (indexes.zip data).map (Prod.map naturalKey id) := by
    rw [← List.zip_map, List.map_id]
  simp only [bind, Except.bind, hkeys]
  rw [hzip, ← hsort, List.map_map]
  rfl

/-- At each position of the sorted items stands the item with that index. -/
theorem hasIndex_of_sorted {indexes : List ℕ} {data : List Json} (hperm : indexes.Perm (List.range data.length))
    (h : List.Forall₂ HasIndex indexes data) : ∃ sorted, sortedByIndex data = .ok sorted ∧ sorted.length = data.length ∧
      ∀ index item, sorted[index]? = some item → item ∈ data ∧ HasIndex index item := by
  have hlength : indexes.length = data.length := h.length_eq
  let sorted := (indexes.zip data).insertionSort fun a b => a.1 ≤ b.1
  have hsorted : sorted.Perm (indexes.zip data) := List.perm_insertionSort _ _
  have hranks : sorted.map Prod.fst = List.range data.length := by
    apply List.Perm.eq_of_pairwise (fun _ _ _ _ => Nat.le_antisymm)
    · rw [List.pairwise_map]
      exact List.pairwise_insertionSort (fun a b : ℕ × Json => a.1 ≤ b.1) _
    · exact List.pairwise_le_range
    · apply (hsorted.map Prod.fst).trans
      rw [List.map_fst_zip hlength.le]
      exact hperm
  refine ⟨_, sortedByIndex_eq h, ?_, fun index item hitem => ?_⟩
  · rw [List.length_map, hsorted.length_eq, List.length_zip, hlength, Nat.min_self]
  · rw [List.getElem?_map] at hitem
    obtain ⟨⟨found, item'⟩, hfound, rfl⟩ := Option.map_eq_some_iff.mp hitem
    have hindex : (List.range data.length)[index]? = some found := by
      rw [← hranks, List.getElem?_map, hfound]
      rfl
    obtain ⟨hbound, rfl⟩ := List.getElem?_eq_some_iff.mp hindex
    rw [List.getElem_range] at hfound
    have hmem := hsorted.mem_iff.mp (List.mem_of_getElem? hfound)
    exact ⟨(List.of_mem_zip hmem).2, List.forall₂_zip h hmem⟩

/-- The vectors of a reply that carries indexes stand in the order of these. -/
theorem vectorsOf_inOrder {body : Dict} {data vectors : List Json} (hdata : Json.get? body "data" = some (.arr data))
    (hcarries : CarriesIndexes data) (h : vectorsOf body = .ok vectors) : vectors.length = data.length ∧
      ∀ index vector, vectors[index]? = some vector → EmbeddingAt data index vector := by
  obtain ⟨indexes, hperm, hindexes⟩ := hcarries
  obtain ⟨sorted, hsorted, hlength, hplace⟩ := hasIndex_of_sorted hperm hindexes
  have hitems : (orElse ((Json.get? body "data").getD .null) (.arr [])).iterate = .ok data := by
    rw [hdata, Option.getD_some, orElse]
    cases data <;> rfl
  rw [vectorsOf, hitems] at h
  have hread : (sorted.mapM fun item => item.item "embedding") = .ok vectors := by
    obtain ⟨_, hitems, hread⟩ := bind_eq_ok.mp h
    obtain ⟨_, hsame, hread⟩ := bind_eq_ok.mp hread
    rw [← Except.ok.inj hitems, hsorted] at hsame
    rwa [← Except.ok.inj hsame] at hread
  have hpairs := forall₂_of_mapM hread
  refine ⟨by rw [← hpairs.length_eq, hlength], fun index vector hvector => ?_⟩
  obtain ⟨hbound, rfl⟩ := List.getElem?_eq_some_iff.mp hvector
  have hbound' : index < sorted.length := by rwa [hpairs.length_eq]
  obtain ⟨hmem, hindex⟩ := hplace index sorted[index] (List.getElem?_eq_getElem hbound')
  exact ⟨sorted[index], hmem, hindex, hpairs.get hbound' hbound⟩

/-- The vectors that the client returns are read from the reply of the proxy. -/
theorem runs_embeddings {client : LlmClient} {input : List String} {sensitivity : Declared} {redacted : Bool} {callMeta : Dict}
    {events : List LlmEvent} {response : EmbeddingResponse}
    (h : (client.embeddings input sensitivity redacted callMeta).Runs events (.ok response)) {name : String}
    {texts : List String} {sent : Dict} {body : Dict} (hreply : ⟨.embed name texts sent, .ok body⟩ ∈ events) :
    texts = input ∧ vectorsOf body = .ok response.vectors := by
  rw [LlmClient.embeddings] at h
  rcases Prog.runs_ofExcept_bind.mp h with ⟨error, -, -, hnever⟩ | ⟨model, -, hselected⟩
  · cases hnever
  rcases Prog.runs_bind.mp hselected with ⟨error, -, hnever⟩ | ⟨checked, rest, budget, rfl, hcheck, hsend⟩
  · cases hnever
  rcases Prog.runs_bind.mp hsend with ⟨error, -, hnever⟩ | ⟨asked, settled, read, rfl, hasked, hsettle⟩
  · cases hnever
  rcases runs_send hasked with ⟨error, hnever, -⟩ | ⟨read', rfl, hread⟩
  · cases hnever
  obtain rfl : read = read' := Except.ok.inj hread
  rcases Prog.runs_ofExcept_bind.mp hsettle with ⟨error, -, -, hnever⟩ | ⟨usage, -, hrecord⟩
  · cases hnever
  rcases Prog.runs_call_bind.mp hrecord with ⟨error, -, hnever⟩ | ⟨_, rest, rfl, hvectors⟩
  · cases hnever
  rcases Prog.runs_ofExcept_bind.mp hvectors with ⟨error, -, -, hnever⟩ | ⟨vectors, hfound, hreturn⟩
  · cases hnever
  obtain ⟨rfl, hresponse⟩ := Prog.runs_done.mp hreturn
  cases hresponse
  -- The proxy replies once: the budget is checked before, and the ledger is written after.
  simp only [List.mem_append, List.mem_singleton] at hreply
  rcases hreply with hchecked | heq | hrecorded
  · exact (only_checkBudget.runs hcheck _ hchecked).elim
  · cases heq
    refine ⟨rfl, ?_⟩
    cases hbody : vectorsOf body with
    | error error =>
      rw [hbody] at hfound
      cases hfound
    | ok found =>
      rw [hbody] at hfound
      cases hfound
      rfl
  · cases hrecorded

end FleetWorkflow.Llm
