import FleetWorkflow.Sql.Tree

/-!
# Names of local queries

The table nodes of a query either write a base relation or refer to a query of a `WITH` clause in scope. The references
are collected along the same scopes as the base relations, and between them the two account for every table name that
is written anywhere in the tree.
-/

namespace FleetWorkflow.Sql

namespace Tree

/-- The query of the scope that a table node refers to. -/
def ownReference (scope : List String) (tree : Tree) : List String :=
  match tree.relation? with
  | some relation => if relation.unqualified && scope.contains relation.name then [relation.name] else []
  | none => []

mutual

/-- The references of a tree in a scope to the queries of `WITH` clauses. -/
def localReferences (scope : List String) : Tree → List String
  | node .withClause texts children =>
    if texts.any (fun entry => entry.1 = "recursive") then referencesInOrder (cteNames children ++ scope) children
    else referencesInOrder scope children
  | node cls texts children =>
    ownReference scope (node cls texts children) ++ referencesOf scope (boundNames children ++ scope) children

/-- The references of children, in an inner scope unless they are the `WITH` clause that makes it. -/
def referencesOf (scope inner : List String) : List (String × Tree) → List String
  | [] => []
  | (_, tree) :: rest =>
    (if tree.cls = .withClause then tree.localReferences scope else tree.localReferences inner) ++
      referencesOf scope inner rest

/-- The references of the queries of a `WITH` clause. -/
def referencesInOrder (scope : List String) : List (String × Tree) → List String
  | [] => []
  | (_, tree) :: rest => tree.localReferences scope ++ referencesInOrder (tree.cteName?.toList ++ scope) rest

end

/-- A table node writes a base relation, or it refers to a query of the scope. -/
theorem own_relation_or_reference (scope : List String) {tree : Tree} {relation : Relation}
    (h : tree.relation? = some relation) :
    relation ∈ ownRelation scope tree ∨ relation.name ∈ ownReference scope tree := by
  rw [ownRelation, ownReference, h]
  by_cases hlocal : (relation.unqualified && scope.contains relation.name) = true
  · exact Or.inr (by simp only [hlocal, if_true, List.mem_singleton])
  · exact Or.inl (by simp only [hlocal, Bool.false_eq_true, if_false, List.mem_singleton])

/-- A reference of a node on its own is the name that it writes. -/
theorem mem_ownReference {scope : List String} {tree : Tree} {name : String} (h : name ∈ ownReference scope tree) :
    ∃ relation, tree.relation? = some relation ∧ relation.name = name := by
  rw [ownReference] at h
  split at h
  · rename_i relation hrelation
    split at h
    · exact ⟨relation, hrelation, (List.mem_singleton.mp h).symm⟩
    · cases h
  · cases h

mutual

/-- Every table name that is written is that of a base relation, or of a query in scope. -/
theorem relation_or_reference {found : Tree} {relation : Relation} (hwritten : found.relation? = some relation) :
    ∀ (tree : Tree) (scope : List String), found ∈ tree.nodes →
      relation ∈ tree.baseRelations scope ∨ relation.name ∈ tree.localReferences scope
  | node cls texts children, scope => by
    intro h
    by_cases hcls : cls = .withClause
    · subst hcls
      have hchild : found ∈ nodesOf children := by
        rcases mem_nodes.mp h with rfl | hchild
        · cases hwritten
        · exact hchild
      rw [baseRelations, localReferences]
      split
      · exact relation_or_reference_inOrder hwritten children _ hchild
      · exact relation_or_reference_inOrder hwritten children _ hchild
    · rw [baseRelations.eq_2 _ _ _ _ hcls, localReferences.eq_2 _ _ _ _ hcls, List.mem_append, List.mem_append]
      rcases mem_nodes.mp h with rfl | hchild
      · exact (own_relation_or_reference scope hwritten).imp Or.inl Or.inl
      · exact (relation_or_reference_of hwritten children _ _ hchild).imp Or.inr Or.inr

/-- The children of a node. -/
theorem relation_or_reference_of {found : Tree} {relation : Relation} (hwritten : found.relation? = some relation) :
    ∀ (children : List (String × Tree)) (scope inner : List String), found ∈ nodesOf children →
      relation ∈ relationsOf scope inner children ∨ relation.name ∈ referencesOf scope inner children
  | [], _, _ => by
    intro h
    cases h
  | (_, tree) :: rest, scope, inner => by
    intro h
    rw [nodesOf, List.mem_append] at h
    rw [relationsOf, referencesOf, List.mem_append, List.mem_append]
    rcases h with h | h
    · by_cases hwith : tree.cls = .withClause
      · rw [if_pos hwith, if_pos hwith]
        exact (relation_or_reference hwritten tree scope h).imp Or.inl Or.inl
      · rw [if_neg hwith, if_neg hwith]
        exact (relation_or_reference hwritten tree inner h).imp Or.inl Or.inl
    · exact (relation_or_reference_of hwritten rest scope inner h).imp Or.inr Or.inr

/-- The queries of a `WITH` clause. -/
theorem relation_or_reference_inOrder {found : Tree} {relation : Relation}
    (hwritten : found.relation? = some relation) : ∀ (children : List (String × Tree)) (scope : List String),
    found ∈ nodesOf children →
      relation ∈ relationsInOrder scope children ∨ relation.name ∈ referencesInOrder scope children
  | [], _ => by
    intro h
    cases h
  | (_, tree) :: rest, scope => by
    intro h
    rw [nodesOf, List.mem_append] at h
    rw [relationsInOrder, referencesInOrder, List.mem_append, List.mem_append]
    rcases h with h | h
    · exact (relation_or_reference hwritten tree scope h).imp Or.inl Or.inl
    · exact (relation_or_reference_inOrder hwritten rest _ h).imp Or.inr Or.inr

end

mutual

/-- Every reference is written by a table node. -/
theorem relation_of_mem_localReferences {name : String} : ∀ (tree : Tree) (scope : List String),
    name ∈ tree.localReferences scope →
      ∃ found ∈ tree.nodes, ∃ relation, found.relation? = some relation ∧ relation.name = name
  | node cls texts children, scope => by
    intro h
    have hchildren : (∃ found ∈ nodesOf children, ∃ relation, found.relation? = some relation ∧ relation.name = name) →
        ∃ found ∈ (node cls texts children).nodes, ∃ relation, found.relation? = some relation ∧ relation.name = name :=
      Exists.imp fun _ h => ⟨mem_nodes.mpr (.inr h.1), h.2⟩
    rw [localReferences.eq_def] at h
    split at h
    · rename_i heq
      cases heq
      split at h
      · exact hchildren (relation_of_mem_referencesInOrder children _ h)
      · exact hchildren (relation_of_mem_referencesInOrder children _ h)
    · rename_i heq
      cases heq
      rcases List.mem_append.mp h with hown | hchild
      · exact ⟨_, mem_nodes.mpr (.inl rfl), mem_ownReference hown⟩
      · exact hchildren (relation_of_mem_referencesOf children _ _ hchild)

/-- The children of a node. -/
theorem relation_of_mem_referencesOf {name : String} : ∀ (children : List (String × Tree))
    (scope inner : List String), name ∈ referencesOf scope inner children →
      ∃ found ∈ nodesOf children, ∃ relation, found.relation? = some relation ∧ relation.name = name
  | [], _, _ => by
    intro h
    cases h
  | (_, tree) :: rest, scope, inner => by
    intro h
    rw [referencesOf, List.mem_append] at h
    rcases h with h | h
    · have htree : ∃ found ∈ tree.nodes, ∃ relation, found.relation? = some relation ∧ relation.name = name := by
        split at h
        · exact relation_of_mem_localReferences tree _ h
        · exact relation_of_mem_localReferences tree _ h
      obtain ⟨found, hfound, hrelation⟩ := htree
      exact ⟨found, List.mem_append_left _ hfound, hrelation⟩
    · obtain ⟨found, hfound, hrelation⟩ := relation_of_mem_referencesOf rest _ _ h
      exact ⟨found, List.mem_append_right _ hfound, hrelation⟩

/-- The queries of a `WITH` clause. -/
theorem relation_of_mem_referencesInOrder {name : String} : ∀ (children : List (String × Tree))
    (scope : List String), name ∈ referencesInOrder scope children →
      ∃ found ∈ nodesOf children, ∃ relation, found.relation? = some relation ∧ relation.name = name
  | [], _ => by
    intro h
    cases h
  | (_, tree) :: rest, scope => by
    intro h
    rw [referencesInOrder, List.mem_append] at h
    rcases h with h | h
    · obtain ⟨found, hfound, hrelation⟩ := relation_of_mem_localReferences tree _ h
      exact ⟨found, List.mem_append_left _ hfound, hrelation⟩
    · obtain ⟨found, hfound, hrelation⟩ := relation_of_mem_referencesInOrder rest _ h
      exact ⟨found, List.mem_append_right _ hfound, hrelation⟩

end

end Tree

end FleetWorkflow.Sql
