import Mathlib.Data.List.Basic

/-!
# Syntax trees of queries

A node of a query has a class, arguments that are texts and arguments that are nodes; an argument
that is a list contributes one entry for each of its items. A table name is resolved in the scope of
the `WITH` clauses around it: without a qualifier it may name one of their queries, and otherwise it
names a base relation.
-/

namespace FleetWorkflow.Sql

/-- The classes of nodes that something below tells apart. -/
inductive NodeClass where
  | select
  | insert
  | update
  | delete
  | drop
  | truncateTable
  | alter
  | create
  | into
  | table
  | identifier
  | literal
  | null
  | withClause
  | cte
  | tableAlias
  | limit
  | fetch
  | limitOptions
  | other (name : String)
deriving DecidableEq, Repr

/-- A node with its texts and its children, each under the name of its argument. -/
inductive Tree where
  | node (cls : NodeClass) (texts : List (String × String)) (children : List (String × Tree))

namespace Tree

/-- The class of a node. -/
def cls : Tree → NodeClass
  | node cls _ _ => cls

/-- The text of an argument. -/
def text? (tree : Tree) (key : String) : Option String :=
  match tree with
  | node _ texts _ => (texts.find? fun entry => entry.1 = key).map Prod.snd

/-- The first child of an argument. -/
def child? (tree : Tree) (key : String) : Option Tree :=
  match tree with
  | node _ _ children => (children.find? fun entry => entry.1 = key).map Prod.snd

/-- `tree.set(key, child)`. -/
def setChild (tree : Tree) (key : String) (child : Tree) : Tree :=
  match tree with
  | node cls texts children => node cls texts ((children.filter fun entry => entry.1 ≠ key) ++ [(key, child)])

mutual

/-- All nodes of a tree. -/
def nodes : Tree → List Tree
  | node cls texts children => node cls texts children :: nodesOf children

/-- All nodes of some children. -/
def nodesOf : List (String × Tree) → List Tree
  | [] => []
  | (_, tree) :: rest => tree.nodes ++ nodesOf rest

end

/-- A child that was set. -/
theorem child?_setChild (tree : Tree) (key : String) (child : Tree) :
    (tree.setChild key child).child? key = some child := by
  cases tree with
  | node cls texts children =>
    have hnone : (children.filter fun entry => entry.1 ≠ key).find? (fun entry => entry.1 = key) = none := by
      rw [List.find?_eq_none]
      intro entry hentry
      simpa using (List.mem_filter.mp hentry).2
    rw [setChild, child?, List.find?_append, hnone]
    simp

/-- The nodes of some children are the nodes of one of them. -/
theorem mem_nodesOf {tree : Tree} {children : List (String × Tree)} :
    tree ∈ nodesOf children ↔ ∃ entry ∈ children, tree ∈ entry.2.nodes := by
  induction children with
  | nil => simp [nodesOf]
  | cons entry rest ih => simp [nodesOf, ih]

/-- The nodes of a tree are its root and those of its children. -/
theorem mem_nodes {tree : Tree} {cls : NodeClass} {texts : List (String × String)} {children : List (String × Tree)} :
    tree ∈ (node cls texts children).nodes ↔ tree = node cls texts children ∨ tree ∈ nodesOf children := by
  simp [nodes]

/-- Setting a child changes the root, and adds no node but those of the child. -/
theorem mem_nodes_setChild {tree found child : Tree} {key : String} (h : found ∈ (tree.setChild key child).nodes) :
    found = tree.setChild key child ∨ found ∈ child.nodes ∨ found ∈ tree.nodes := by
  cases tree with
  | node cls texts children =>
    rw [setChild, mem_nodes, mem_nodesOf] at h
    rcases h with hroot | ⟨entry, hentry, hfound⟩
    · exact .inl hroot
    · rw [List.mem_append, List.mem_filter, List.mem_singleton] at hentry
      rcases hentry with ⟨hentry, -⟩ | rfl
      · exact .inr (.inr (mem_nodes.mpr (.inr (mem_nodesOf.mpr ⟨entry, hentry, hfound⟩))))
      · exact .inr (.inl hfound)

/-- Setting a child keeps the class. -/
@[simp] theorem cls_setChild (tree : Tree) (key : String) (child : Tree) : (tree.setChild key child).cls = tree.cls := by
  cases tree
  rfl

end Tree

/-! ## Relations -/

/-- A table name as it is written, with its qualifiers. -/
structure Relation where
  catalog : Option String
  schema : Option String
  name : String
deriving DecidableEq, Repr

/-- Nothing stands before the name. -/
def Relation.unqualified (relation : Relation) : Bool := relation.catalog.isNone && relation.schema.isNone

namespace Tree

/-- The text of an identifier. -/
def identifier? (tree : Tree) : Option String := if tree.cls = .identifier then tree.text? "this" else none

/-- The relation that a table node writes; a function in its place is none. -/
def relation? (tree : Tree) : Option Relation :=
  if tree.cls = .table then
    ((tree.child? "this").bind identifier?).map fun name =>
      ⟨(tree.child? "catalog").bind identifier?, (tree.child? "db").bind identifier?, name⟩
  else none

/-- The name of a query in a `WITH` clause. -/
def cteName? (tree : Tree) : Option String :=
  if tree.cls = .cte then ((tree.child? "alias").bind fun named => named.child? "this").bind identifier? else none

/-- The names of the queries among some nodes. -/
def cteNames (children : List (String × Tree)) : List String := children.filterMap fun entry => entry.2.cteName?

/-- The names that the `WITH` clauses among the children of a node bind. -/
def boundNames : List (String × Tree) → List String
  | [] => []
  | (_, node .withClause _ children) :: rest => cteNames children ++ boundNames rest
  | _ :: rest => boundNames rest

/-- The relation that a table node reads in a scope, unless it names a query of the scope. -/
def ownRelation (scope : List String) (tree : Tree) : List Relation :=
  match tree.relation? with
  | some relation => if relation.unqualified && scope.contains relation.name then [] else [relation]
  | none => []

mutual

/-- The base relations of a tree in a scope. The queries of a `WITH` clause are in the scope of the
queries before them, or, in a recursive clause, of all of them. -/
def baseRelations (scope : List String) : Tree → List Relation
  | node .withClause texts children =>
    if texts.any (fun entry => entry.1 = "recursive") then relationsInOrder (cteNames children ++ scope) children
    else relationsInOrder scope children
  | node cls texts children =>
    ownRelation scope (node cls texts children) ++ relationsOf scope (boundNames children ++ scope) children

/-- The base relations of children, in an inner scope unless they are the `WITH` clause that makes it. -/
def relationsOf (scope inner : List String) : List (String × Tree) → List Relation
  | [] => []
  | (_, tree) :: rest =>
    (if tree.cls = .withClause then tree.baseRelations scope else tree.baseRelations inner) ++ relationsOf scope inner rest

/-- The base relations of the queries of a `WITH` clause. -/
def relationsInOrder (scope : List String) : List (String × Tree) → List Relation
  | [] => []
  | (_, tree) :: rest => tree.baseRelations scope ++ relationsInOrder (tree.cteName?.toList ++ scope) rest

end

/-- The relations of a node on its own are the one that it writes. -/
theorem mem_ownRelation {scope : List String} {tree : Tree} {relation : Relation}
    (h : relation ∈ ownRelation scope tree) : tree.relation? = some relation := by
  rw [ownRelation] at h
  split at h
  · rename_i written hwritten
    split at h
    · cases h
    · rw [hwritten, List.mem_singleton.mp h]
  · cases h

/-- A qualified name is not the name of a query in scope. -/
theorem ownRelation_of_qualified {scope : List String} {tree : Tree} {relation : Relation}
    (h : tree.relation? = some relation) (hqualified : relation.unqualified = false) :
    relation ∈ ownRelation scope tree := by
  simp [ownRelation, h, hqualified]

mutual

/-- Every base relation is written by a table node. -/
theorem relation_of_mem_baseRelations {relation : Relation} : ∀ (tree : Tree) (scope : List String),
    relation ∈ tree.baseRelations scope → ∃ found ∈ tree.nodes, found.relation? = some relation
  | node cls texts children, scope => by
    intro h
    have hchildren : (∃ found ∈ nodesOf children, found.relation? = some relation) →
        ∃ found ∈ (node cls texts children).nodes, found.relation? = some relation :=
      Exists.imp fun _ h => ⟨mem_nodes.mpr (.inr h.1), h.2⟩
    rw [baseRelations.eq_def] at h
    split at h
    · rename_i heq
      cases heq
      split at h
      · exact hchildren (relation_of_mem_relationsInOrder children _ h)
      · exact hchildren (relation_of_mem_relationsInOrder children _ h)
    · rename_i heq
      cases heq
      rcases List.mem_append.mp h with hown | hchild
      · exact ⟨_, mem_nodes.mpr (.inl rfl), mem_ownRelation hown⟩
      · exact hchildren (relation_of_mem_relationsOf children _ _ hchild)

/-- The children of a node. -/
theorem relation_of_mem_relationsOf {relation : Relation} : ∀ (children : List (String × Tree))
    (scope inner : List String), relation ∈ relationsOf scope inner children →
      ∃ found ∈ nodesOf children, found.relation? = some relation
  | [], _, _ => by
    intro h
    cases h
  | (_, tree) :: rest, scope, inner => by
    intro h
    rw [relationsOf, List.mem_append] at h
    rcases h with h | h
    · have htree : ∃ found ∈ tree.nodes, found.relation? = some relation := by
        split at h
        · exact relation_of_mem_baseRelations tree _ h
        · exact relation_of_mem_baseRelations tree _ h
      obtain ⟨found, hfound, hrelation⟩ := htree
      exact ⟨found, List.mem_append_left _ hfound, hrelation⟩
    · obtain ⟨found, hfound, hrelation⟩ := relation_of_mem_relationsOf rest _ _ h
      exact ⟨found, List.mem_append_right _ hfound, hrelation⟩

/-- The queries of a `WITH` clause. -/
theorem relation_of_mem_relationsInOrder {relation : Relation} : ∀ (children : List (String × Tree))
    (scope : List String), relation ∈ relationsInOrder scope children →
      ∃ found ∈ nodesOf children, found.relation? = some relation
  | [], _ => by
    intro h
    cases h
  | (_, tree) :: rest, scope => by
    intro h
    rw [relationsInOrder, List.mem_append] at h
    rcases h with h | h
    · obtain ⟨found, hfound, hrelation⟩ := relation_of_mem_baseRelations tree _ h
      exact ⟨found, List.mem_append_left _ hfound, hrelation⟩
    · obtain ⟨found, hfound, hrelation⟩ := relation_of_mem_relationsInOrder rest _ h
      exact ⟨found, List.mem_append_right _ hfound, hrelation⟩

end

mutual

/-- A qualified relation is a base relation, whatever the scope. -/
theorem mem_baseRelations_of_qualified {found : Tree} {relation : Relation} (hwritten : found.relation? = some relation)
    (hqualified : relation.unqualified = false) : ∀ (tree : Tree) (scope : List String),
    found ∈ tree.nodes → relation ∈ tree.baseRelations scope
  | node cls texts children, scope => by
    intro h
    rw [baseRelations.eq_def]
    rcases mem_nodes.mp h with rfl | hchild
    · split
      · rename_i heq
        cases heq
        cases hwritten
      · rename_i heq
        cases heq
        exact List.mem_append_left _ (ownRelation_of_qualified hwritten hqualified)
    · split
      · rename_i heq
        cases heq
        split
        · exact mem_relationsInOrder_of_qualified hwritten hqualified children _ hchild
        · exact mem_relationsInOrder_of_qualified hwritten hqualified children _ hchild
      · rename_i heq
        cases heq
        exact List.mem_append_right _ (mem_relationsOf_of_qualified hwritten hqualified children _ _ hchild)

/-- The children of a node. -/
theorem mem_relationsOf_of_qualified {found : Tree} {relation : Relation} (hwritten : found.relation? = some relation)
    (hqualified : relation.unqualified = false) : ∀ (children : List (String × Tree)) (scope inner : List String),
    found ∈ nodesOf children → relation ∈ relationsOf scope inner children
  | [], _, _ => by
    intro h
    cases h
  | (_, tree) :: rest, scope, inner => by
    intro h
    rw [nodesOf, List.mem_append] at h
    rw [relationsOf, List.mem_append]
    rcases h with h | h
    · left
      split
      · exact mem_baseRelations_of_qualified hwritten hqualified tree _ h
      · exact mem_baseRelations_of_qualified hwritten hqualified tree _ h
    · exact .inr (mem_relationsOf_of_qualified hwritten hqualified rest _ _ h)

/-- The queries of a `WITH` clause. -/
theorem mem_relationsInOrder_of_qualified {found : Tree} {relation : Relation}
    (hwritten : found.relation? = some relation) (hqualified : relation.unqualified = false) :
    ∀ (children : List (String × Tree)) (scope : List String),
    found ∈ nodesOf children → relation ∈ relationsInOrder scope children
  | [], _ => by
    intro h
    cases h
  | (_, tree) :: rest, scope => by
    intro h
    rw [nodesOf, List.mem_append] at h
    rw [relationsInOrder, List.mem_append]
    rcases h with h | h
    · exact .inl (mem_baseRelations_of_qualified hwritten hqualified tree _ h)
    · exact .inr (mem_relationsInOrder_of_qualified hwritten hqualified rest _ h)

end

end Tree

end FleetWorkflow.Sql
