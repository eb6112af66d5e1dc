import Mathlib.Data.List.Nodup
import Mathlib.Data.List.Basic

/-!
# Wiring structured control flow

A sequence of steps and one-level branches is wired into a graph by carrying the open ends of
what was emitted so far: each new node closes all of them. The main result is that a walk of the
finished graph, which sees edges only, visits what running the sequence visits. The node type is
arbitrary, and nothing is assumed about branch lengths.
-/

namespace FleetWorkflow.Flow

variable {ν : Type*}

/-- A node together with one of its outputs. -/
abbrev Port (ν : Type*) := ν × ℕ

/-- A step, or a node whose output 0 starts one branch and output 1 the other. -/
inductive Item (ν : Type*) where
  | step (node : ν)
  | branch (node : ν) (first second : List ν)

/-- The nodes of an item, in emission order. -/
def Item.nodes : Item ν → List ν
  | .step node => [node]
  | .branch node first second => node :: (first ++ second)

/-- The edges so far and the open ends waiting for the next node. -/
structure Wiring (ν : Type*) where
  edges : List (Port ν × ν)
  tails : List (Port ν)

/-- Close all open ends with a node. -/
def Wiring.close (w : Wiring ν) (node : ν) : List (Port ν × ν) :=
  w.edges ++ w.tails.map fun port => (port, node)

/-- Emit a node whose output 0 stays open. -/
def wireStep (w : Wiring ν) (node : ν) : Wiring ν := ⟨w.close node, [(node, 0)]⟩

/-- Emit an item; after a branch the open ends of both arms wait together. -/
def wireItem (w : Wiring ν) : Item ν → Wiring ν
  | .step node => wireStep w node
  | .branch node first second =>
    let afterFirst := first.foldl wireStep ⟨w.close node, [(node, 0)]⟩
    let afterSecond := second.foldl wireStep ⟨afterFirst.edges, [(node, 1)]⟩
    ⟨afterSecond.edges, afterFirst.tails ++ afterSecond.tails⟩

/-- Emit a sequence of items. -/
def wire (w : Wiring ν) (items : List (Item ν)) : Wiring ν := items.foldl wireItem w

/-- The targets that the edges lead to from a port, in order. -/
def targets [DecidableEq ν] (edges : List (Port ν × ν)) (port : Port ν) : List ν :=
  (edges.filter fun edge => edge.1 = port).map Prod.snd

/-- The nodes that running the items visits, when each node answers with one of its outputs. -/
def run (taken : ν → ℕ) : List (Item ν) → List ν
  | [] => []
  | .step node :: rest => node :: run taken rest
  | .branch node first second :: rest =>
    node :: (if taken node = 0 then first else second) ++ run taken rest

/-- A walk that starts after a node and stops at the first node with nowhere to go. A node that
leads to several targets has no walk: a fork is not a path. -/
inductive Walk (next : ν → List ν) : ν → List ν → Prop where
  | stop {node : ν} : next node = [] → Walk next node []
  | step {node target : ν} {path : List ν} :
    next node = [target] → Walk next target path → Walk next node (target :: path)

/-- A node starts at most one walk. -/
theorem Walk.unique {next : ν → List ν} {node : ν} {path path' : List ν}
    (h : Walk next node path) (h' : Walk next node path') : path = path' := by
  induction h generalizing path' with
  | stop hstop =>
    cases h' with
    | stop _ => rfl
    | step hstep _ => rw [hstop] at hstep; cases hstep
  | step hstep _ ih =>
    cases h' with
    | stop hstop => rw [hstop] at hstep; cases hstep
    | step hstep' hrest =>
      rw [hstep] at hstep'
      cases hstep'
      rw [ih hrest]

/-! ## Edges only accumulate -/

/-- Emitting steps keeps every edge. -/
theorem wireSteps_edges_subset (w : Wiring ν) (nodes : List ν) :
    w.edges ⊆ (nodes.foldl wireStep w).edges := by
  induction nodes generalizing w with
  | nil => exact List.Subset.refl _
  | cons node rest ih =>
    exact List.Subset.trans (List.subset_append_left _ _) (ih (wireStep w node))

/-- Emitting an item keeps every edge. -/
theorem wireItem_edges_subset (w : Wiring ν) (item : Item ν) : w.edges ⊆ (wireItem w item).edges := by
  cases item with
  | step node => exact List.subset_append_left _ _
  | branch node first second =>
    have hclose : w.edges ⊆ w.close node := List.subset_append_left _ _
    have hfirst := wireSteps_edges_subset ⟨w.close node, [(node, 0)]⟩ first
    exact List.Subset.trans (List.Subset.trans hclose hfirst) (wireSteps_edges_subset ⟨_, [(node, 1)]⟩ second)

/-- Emitting items keeps every edge. -/
theorem wire_edges_subset (w : Wiring ν) (items : List (Item ν)) : w.edges ⊆ (wire w items).edges := by
  induction items generalizing w with
  | nil => exact List.Subset.refl _
  | cons item rest ih => exact List.Subset.trans (wireItem_edges_subset w item) (ih (wireItem w item))

/-! ## No port gets two targets -/

/-- The ports in use are distinct, and so are the nodes still to come. -/
structure Fresh (w : Wiring ν) (parked : List (Port ν)) (nodes : List ν) : Prop where
  ports : (w.edges.map Prod.fst ++ (w.tails ++ parked)).Nodup
  nodes_nodup : nodes.Nodup
  unused : ∀ port ∈ w.edges.map Prod.fst ++ (w.tails ++ parked), port.1 ∉ nodes

/-- Emitting one node keeps the ports distinct; its outputs may be opened or parked. -/
theorem Fresh.emit {w : Wiring ν} {parked : List (Port ν)} {node : ν} {nodes : List ν}
    (h : Fresh w parked (node :: nodes)) (outputs others : List ℕ) (houtputs : (outputs ++ others).Nodup) :
    Fresh ⟨w.close node, outputs.map fun output => (node, output)⟩
      ((others.map fun output => (node, output)) ++ parked) nodes := by
  have hnew : ∀ port ∈ w.edges.map Prod.fst ++ (w.tails ++ parked), port.1 ≠ node :=
    fun port hport heq => h.unused port hport (heq ▸ List.mem_cons_self)
  have hnode := List.nodup_cons.mp h.nodes_nodup
  have hclose : (w.close node).map Prod.fst = w.edges.map Prod.fst ++ w.tails := by
    simp [Wiring.close, Function.comp_def]
  have hperm : ((w.close node).map Prod.fst ++
      ((outputs.map fun output => (node, output)) ++
        ((others.map fun output => (node, output)) ++ parked))).Perm
      (((outputs ++ others).map fun output => (node, output)) ++
        (w.edges.map Prod.fst ++ (w.tails ++ parked))) := by
    classical
    rw [hclose, List.map_append, List.perm_iff_count]
    intro port
    simp only [List.count_append]
    omega
  refine ⟨hperm.nodup_iff.mpr ?_, hnode.2, ?_⟩
  · refine List.nodup_append.mpr ⟨houtputs.map fun a b hab => (Prod.mk.inj hab).2, h.ports, ?_⟩
    intro port hport other hother heq
    obtain ⟨output, -, rfl⟩ := List.mem_map.mp hport
    exact hnew other hother (heq ▸ rfl)
  · intro port hport
    rcases List.mem_append.mp (hperm.mem_iff.mp hport) with hout | hold
    · obtain ⟨output, -, rfl⟩ := List.mem_map.mp hout
      exact hnode.1
    · exact fun hmem => h.unused port hold (List.mem_cons_of_mem _ hmem)

/-- Parked ports can take turns with the open ends. -/
theorem Fresh.rearrange {w : Wiring ν} {parked tails parked' : List (Port ν)} {nodes : List ν}
    (h : Fresh w parked nodes) (hperm : (tails ++ parked').Perm (w.tails ++ parked)) :
    Fresh ⟨w.edges, tails⟩ parked' nodes :=
  ⟨(hperm.append_left _).nodup_iff.mpr h.ports, h.nodes_nodup,
    fun port hport => h.unused port ((hperm.append_left _).mem_iff.mp hport)⟩

/-- Emitting steps keeps the ports distinct. -/
theorem Fresh.steps {w : Wiring ν} {parked : List (Port ν)} (nodes : List ν) {later : List ν}
    (h : Fresh w parked (nodes ++ later)) : Fresh (nodes.foldl wireStep w) parked later := by
  induction nodes generalizing w with
  | nil => exact h
  | cons node rest ih => exact ih (h.emit [0] [] (by decide))

/-- Emitting an item keeps the ports distinct: the second arm's output is parked meanwhile. -/
theorem Fresh.item {w : Wiring ν} {parked : List (Port ν)} (item : Item ν) {later : List ν}
    (h : Fresh w parked (item.nodes ++ later)) : Fresh (wireItem w item) parked later := by
  cases item with
  | step node => exact h.emit [0] [] (by decide)
  | branch node first second =>
    have hnode : Fresh ⟨w.close node, [(node, 0)]⟩ ([(node, 1)] ++ parked) (first ++ (second ++ later)) := by
      have h' : Fresh w parked (node :: (first ++ (second ++ later))) := by
        simpa only [Item.nodes, List.cons_append, List.append_assoc] using h
      exact h'.emit [0] [1] (by decide)
    have hfirst := hnode.steps first
    have hsecond := (hfirst.rearrange (List.perm_append_comm_assoc _ _ _)).steps second
    exact hsecond.rearrange (by
      rw [List.append_assoc]
      exact List.perm_append_comm_assoc _ _ _)

/-- Emitting items keeps the ports distinct. -/
theorem Fresh.items {w : Wiring ν} {parked : List (Port ν)} (items : List (Item ν)) {later : List ν}
    (h : Fresh w parked (items.flatMap Item.nodes ++ later)) : Fresh (wire w items) parked later := by
  induction items generalizing w with
  | nil => exact h
  | cons item rest ih =>
    rw [List.flatMap_cons, List.append_assoc] at h
    exact ih (h.item item)

/-! ## What the edges say -/

/-- The edges lead the ports through a chain of steps. -/
def Chained (edges : List (Port ν × ν)) : List (Port ν) → List ν → Prop
  | _, [] => True
  | tails, node :: rest => (∀ port ∈ tails, (port, node) ∈ edges) ∧ Chained edges [(node, 0)] rest

/-- The open ends after a chain of steps. -/
def chainTails (tails : List (Port ν)) (nodes : List ν) : List (Port ν) :=
  nodes.foldl (fun _ node => [(node, 0)]) tails

/-- The edges lead the ports through a sequence of items, and nowhere after it. -/
def Wired (edges : List (Port ν × ν)) : List (Port ν) → List (Item ν) → Prop
  | tails, [] => ∀ port ∈ tails, port ∉ edges.map Prod.fst
  | tails, .step node :: rest => (∀ port ∈ tails, (port, node) ∈ edges) ∧ Wired edges [(node, 0)] rest
  | tails, .branch node first second :: rest =>
    (∀ port ∈ tails, (port, node) ∈ edges) ∧ Chained edges [(node, 0)] first ∧
      Chained edges [(node, 1)] second ∧
      Wired edges (chainTails [(node, 0)] first ++ chainTails [(node, 1)] second) rest

/-- Emitting steps leaves the end of the chain open. -/
theorem wireSteps_tails (w : Wiring ν) (nodes : List ν) :
    (nodes.foldl wireStep w).tails = chainTails w.tails nodes := by
  induction nodes generalizing w with
  | nil => rfl
  | cons node rest ih => exact ih (wireStep w node)

/-- Closing the open ends leads each of them to the node. -/
theorem mem_close {w : Wiring ν} {node : ν} {port : Port ν} (hport : port ∈ w.tails) :
    (port, node) ∈ w.close node :=
  List.mem_append_right _ (List.mem_map.mpr ⟨port, hport, rfl⟩)

/-- Emitted steps are chained, in every later set of edges. -/
theorem wireSteps_chained (w : Wiring ν) (nodes : List ν) {edges : List (Port ν × ν)}
    (hedges : (nodes.foldl wireStep w).edges ⊆ edges) : Chained edges w.tails nodes := by
  induction nodes generalizing w with
  | nil => trivial
  | cons node rest ih =>
    have hnode : (wireStep w node).edges ⊆ edges := List.Subset.trans (wireSteps_edges_subset _ rest) hedges
    exact ⟨fun port hport => hnode (mem_close hport), ih (wireStep w node) hedges⟩

/-- Emitted items are wired. -/
theorem wire_wired (w : Wiring ν) (items : List (Item ν)) {edges : List (Port ν × ν)}
    (hedges : (wire w items).edges ⊆ edges) (hopen : ∀ port ∈ (wire w items).tails, port ∉ edges.map Prod.fst) :
    Wired edges w.tails items := by
  induction items generalizing w with
  | nil => exact hopen
  | cons item rest ih =>
    have hrest := ih (wireItem w item) hedges hopen
    have hitem : (wireItem w item).edges ⊆ edges := List.Subset.trans (wire_edges_subset _ rest) hedges
    cases item with
    | step node => exact ⟨fun port hport => hitem (mem_close hport), hrest⟩
    | branch node first second =>
      have hsecond := wireSteps_chained ⟨_, [(node, 1)]⟩ second hitem
      have hfirst' := List.Subset.trans (wireSteps_edges_subset ⟨_, [(node, 1)]⟩ second) hitem
      have hfirst := wireSteps_chained ⟨w.close node, [(node, 0)]⟩ first hfirst'
      have hclose := List.Subset.trans (wireSteps_edges_subset ⟨w.close node, [(node, 0)]⟩ first) hfirst'
      refine ⟨fun port hport => hclose (mem_close hport), hfirst, hsecond, ?_⟩
      simpa only [wireItem, wireSteps_tails] using hrest

/-! ## Nodes of a run -/

/-- Running visits nodes of the items, in emission order. -/
theorem run_sublist (taken : ν → ℕ) (items : List (Item ν)) :
    (run taken items).Sublist (items.flatMap Item.nodes) := by
  induction items with
  | nil => exact List.Sublist.refl _
  | cons item rest ih =>
    rw [List.flatMap_cons]
    cases item with
    | step node => exact ih.cons_cons node
    | branch node first second =>
      refine (List.Sublist.append ?_ ih).cons_cons node
      split
      · exact List.sublist_append_left _ _
      · exact List.sublist_append_right _ _

/-! ## Walking is running -/

section Walking

variable [DecidableEq ν]

/-- With distinct sources, an edge is all that leaves its port. -/
theorem targets_of_mem {edges : List (Port ν × ν)} (hnodup : (edges.map Prod.fst).Nodup)
    {port : Port ν} {node : ν} (hmem : (port, node) ∈ edges) : targets edges port = [node] := by
  induction edges with
  | nil => cases hmem
  | cons edge rest ih =>
    have hcons := List.nodup_cons.mp hnodup
    have hskip : ∀ p, p ∉ rest.map Prod.fst → rest.filter (fun edge => edge.1 = p) = [] := by
      intro p hp
      simp only [List.filter_eq_nil_iff, decide_eq_true_eq]
      exact fun other hother heq => hp (List.mem_map.mpr ⟨other, hother, heq⟩)
    rcases List.mem_cons.mp hmem with rfl | hrest
    · simp [targets, hskip port hcons.1]
    · have hne : edge.1 ≠ port := fun heq =>
        hcons.1 (heq ▸ List.mem_map.mpr ⟨(port, node), hrest, rfl⟩)
      have hrest' := ih hcons.2 hrest
      simpa only [targets, List.filter_cons, hne, decide_false, Bool.false_eq_true, if_false] using hrest'

/-- Nothing leaves a port that is no source. -/
theorem targets_of_not_mem {edges : List (Port ν × ν)} {port : Port ν}
    (hport : port ∉ edges.map Prod.fst) : targets edges port = [] := by
  have hfilter : edges.filter (fun edge => edge.1 = port) = [] := by
    simp only [List.filter_eq_nil_iff, decide_eq_true_eq]
    exact fun edge hedge heq => hport (List.mem_map.mpr ⟨edge, hedge, heq⟩)
  rw [targets, hfilter, List.map_nil]

variable {edges : List (Port ν × ν)} {taken : ν → ℕ}

/-- Where a walk goes after a node: to the targets of the output the node answers with. -/
def follow (edges : List (Port ν × ν)) (taken : ν → ℕ) (node : ν) : List ν :=
  targets edges (node, taken node)

/-- A chain of steps is walked to its end. -/
theorem Chained.walk (hnodup : (edges.map Prod.fst).Nodup) {tails : List (Port ν)} {nodes path : List ν}
    (hchain : Chained edges tails nodes) (hsteps : ∀ node ∈ nodes, taken node = 0)
    (hend : ∀ port ∈ chainTails tails nodes, taken port.1 = port.2 →
      Walk (follow edges taken) port.1 path) :
    ∀ port ∈ tails, taken port.1 = port.2 → Walk (follow edges taken) port.1 (nodes ++ path) := by
  induction nodes generalizing tails with
  | nil => exact hend
  | cons node rest ih =>
    rintro ⟨source, output⟩ hport htaken
    obtain rfl : taken source = output := htaken
    have hrest := ih hchain.2 (fun n hn => hsteps n (List.mem_cons_of_mem _ hn)) hend
    exact .step (targets_of_mem hnodup (hchain.1 _ hport))
      (hrest (node, 0) (List.mem_singleton.mpr rfl) (hsteps node List.mem_cons_self))

/-- The outputs that nodes can answer with: steps have one, branch nodes two. -/
def Answers (taken : ν → ℕ) : Item ν → Prop
  | .step node => taken node = 0
  | .branch node first second => taken node ≤ 1 ∧ ∀ step ∈ first ++ second, taken step = 0

/-- A walk through wired items visits what running them visits, and stops. -/
theorem Wired.walk (hnodup : (edges.map Prod.fst).Nodup) {tails : List (Port ν)} {items : List (Item ν)}
    (hwired : Wired edges tails items) (hanswers : ∀ item ∈ items, Answers taken item) :
    ∀ port ∈ tails, taken port.1 = port.2 → Walk (follow edges taken) port.1 (run taken items) := by
  induction items generalizing tails with
  | nil =>
    rintro ⟨source, output⟩ hport htaken
    obtain rfl : taken source = output := htaken
    exact .stop (targets_of_not_mem (hwired _ hport))
  | cons item rest ih =>
    rintro ⟨source, output⟩ hport htaken
    obtain rfl : taken source = output := htaken
    have hitem := hanswers item List.mem_cons_self
    have hrest : ∀ other ∈ rest, Answers taken other :=
      fun other hother => hanswers other (List.mem_cons_of_mem _ hother)
    cases item with
    | step node =>
      exact .step (targets_of_mem hnodup (hwired.1 _ hport))
        (ih hwired.2 hrest (node, 0) (List.mem_singleton.mpr rfl) hitem)
    | branch node first second =>
      obtain ⟨hnode, hfirst, hsecond, hafter⟩ := hwired
      have hwalk := ih hafter hrest
      refine .step (targets_of_mem hnodup (hnode _ hport)) ?_
      by_cases hzero : taken node = 0
      · rw [if_pos hzero]
        exact hfirst.walk hnodup (fun n hn => hitem.2 n (List.mem_append_left _ hn))
          (fun p hp => hwalk p (List.mem_append_left _ hp)) (node, 0) (List.mem_singleton.mpr rfl) hzero
      · rw [if_neg hzero]
        have hone : taken node = 1 := by
          have hle := hitem.1
          omega
        exact hsecond.walk hnodup (fun n hn => hitem.2 n (List.mem_append_right _ hn))
          (fun p hp => hwalk p (List.mem_append_right _ hp)) (node, 1) (List.mem_singleton.mpr rfl) hone

/-- Wiring from scratch: every port that was open at the start walks the whole run. -/
theorem wire_walk {w : Wiring ν} {items : List (Item ν)} (hfresh : Fresh w [] (items.flatMap Item.nodes))
    (hanswers : ∀ item ∈ items, Answers taken item) :
    ∀ port ∈ w.tails, taken port.1 = port.2 →
      Walk (follow (wire w items).edges taken) port.1 (run taken items) := by
  have hfinal : Fresh (wire w items) [] [] := Fresh.items items (by simpa using hfresh)
  have hports := List.nodup_append.mp hfinal.ports
  refine (wire_wired w items (List.Subset.refl _) ?_).walk hports.1 hanswers
  intro port hport hsource
  exact hports.2.2 port hsource port (List.mem_append_left _ hport) rfl

end Walking

end FleetWorkflow.Flow
