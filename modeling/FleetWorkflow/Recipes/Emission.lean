import FleetWorkflow.Flow.Fallible
import FleetWorkflow.Flow.Wiring
import FleetWorkflow.Recipes.Compiler

/-!
# One emission of the compiler

The connection map read as a function from ports to targets, and the relation between the state of
the compiler's loop and the wiring of the steps emitted so far. Each emission succeeds when the
references of its texts are resolved, and keeps the relation.
-/

namespace FleetWorkflow.Recipes

open FleetWorkflow.Flow FleetWorkflow.Python

/-! ## Reading the connection map -/

/-- The targets that the map holds for an output of a source. -/
def Connections.at (connections : Connections) (source : String) (output : ℕ) : List Target :=
  match connections.find? fun entry => entry.1 = source with
  | some entry => entry.2.getD output []
  | none => []

/-- Appending a target changes the list of its own output only. -/
theorem addTarget_getD (main : List (List Target)) (output : ℕ) (target : Target) (other : ℕ) :
    (addTarget main output target).getD other [] =
      if other = output then main.getD output [] ++ [target] else main.getD other [] := by
  have hpad : ∀ i, (main ++ List.replicate (output + 1 - main.length) []).getD i [] = main.getD i [] := by
    intro i
    by_cases hi : i < main.length
    · simp [List.getD_eq_getElem?_getD, List.getElem?_append_left hi]
    · simp only [List.getD_eq_getElem?_getD, List.getElem?_append_right (Nat.le_of_not_lt hi),
        List.getElem?_replicate, List.getElem?_eq_none (Nat.le_of_not_lt hi), Option.getD_none]
      split <;> rfl
  have hlength : output < (main ++ List.replicate (output + 1 - main.length) ([] : List Target)).length := by
    simp only [List.length_append, List.length_replicate]
    omega
  by_cases hother : other = output
  · subst hother
    rw [if_pos rfl, ← hpad other]
    simp [addTarget, List.getD_eq_getElem?_getD, List.getElem?_modify_eq, List.getElem?_eq_getElem hlength]
  · rw [if_neg hother, ← hpad other, addTarget]
    simp [List.getD_eq_getElem?_getD, Ne.symm hother]

/-- Creating an empty entry for a source changes no output. -/
theorem Connections.at_setdefault (connections : Connections) (added source : String) (output : ℕ) :
    Connections.at (connections ++ [(added, [])]) source output = connections.at source output := by
  simp only [Connections.at, List.find?_append]
  cases hfind : connections.find? fun entry => entry.1 = source with
  | some entry => rfl
  | none =>
    by_cases hsource : added = source
    · simp [hsource]
    · simp [hsource]

/-- Adding a connection appends its target to its own output. -/
theorem Connections.at_add (connections : Connections) (source : String) (output : ℕ) (target : String)
    (source' : String) (output' : ℕ) :
    (connections.add source output target).at source' output' =
      if source' = source ∧ output' = output then
        connections.at source output ++ [⟨target, "main", 0⟩]
      else connections.at source' output' := by
  obtain ⟨data, hdata, hat, hentry⟩ : ∃ data : Connections,
      (connections.add source output target = data.map fun entry =>
        if entry.1 = source then (entry.1, addTarget entry.2 output ⟨target, "main", 0⟩) else entry) ∧
      (∀ s o, data.at s o = connections.at s o) ∧ data.any (fun entry => entry.1 = source) = true := by
    by_cases hany : connections.any (fun entry => entry.1 = source) = true
    · exact ⟨connections, by rw [Connections.add, if_pos hany], fun _ _ => rfl, hany⟩
    · exact ⟨connections ++ [(source, [])], by rw [Connections.add, if_neg hany],
        Connections.at_setdefault connections source, by simp⟩
  have hkey : ((fun entry : String × List (List Target) => decide (entry.1 = source')) ∘ fun entry =>
      if entry.1 = source then (entry.1, addTarget entry.2 output ⟨target, "main", 0⟩) else entry) =
      fun entry => decide (entry.1 = source') := by
    funext entry
    simp only [Function.comp_apply]
    split <;> rfl
  rw [hdata, ← hat source output, ← hat source' output']
  simp only [Connections.at, List.find?_map, hkey]
  by_cases hsource : source' = source
  · subst hsource
    obtain ⟨entry, hentry⟩ := Option.isSome_iff_exists.mp
      ((List.find?_isSome).mpr (List.any_eq_true.mp hentry))
    have hname : entry.1 = source' := by simpa using List.find?_some hentry
    simp only [hentry, Option.map_some, hname, if_true, true_and]
    exact addTarget_getD entry.2 output _ output'
  · rw [if_neg fun h => hsource h.1]
    cases hfind : data.find? fun entry => decide (entry.1 = source') with
    | none => rfl
    | some entry =>
      have hname : entry.1 = source' := by simpa using List.find?_some hfind
      have hne : entry.1 ≠ source := hname ▸ hsource
      simp only [Option.map_some, if_neg hne]

/-- The names of the targets of a port after leading the open edges to a node. -/
theorem Connections.at_connectPending (pending : List Port) (connections : Connections) (name : String)
    (edges : List (Flow.Port String × String))
    (hedges : ∀ source output,
      (connections.at source output).map Target.node = targets edges (source, output)) :
    ∀ source output, ((connectPending connections pending name).at source output).map Target.node =
      targets (edges ++ pending.map fun port => (port, name)) (source, output) := by
  induction pending generalizing connections edges with
  | nil => simpa [connectPending] using hedges
  | cons port rest ih =>
    have hstep := ih (connections.add port.1 port.2 name) (edges ++ [(port, name)]) fun source output => by
      rw [Connections.at_add]
      have hsplit : targets (edges ++ [(port, name)]) (source, output) =
          targets edges (source, output) ++ targets [(port, name)] (source, output) := by
        simp [targets]
      rw [hsplit]
      by_cases hport : source = port.1 ∧ output = port.2
      · rw [if_pos hport, List.map_append, hedges]
        simp [targets, hport]
      · have hne : port ≠ (source, output) := fun h => hport ⟨by rw [h], by rw [h]⟩
        rw [if_neg hport, hedges]
        simp [targets, hne]
    simpa [connectPending] using hstep

/-- Every connection of the map joins two known nodes. -/
def Joins (known : String → Prop) (connections : Connections) : Prop :=
  ∀ entry ∈ connections, known entry.1 ∧ ∀ output ∈ entry.2, ∀ target ∈ output, known target.node

/-- Appending a known target keeps the targets known. -/
theorem mem_addTarget {main : List (List Target)} {output : ℕ} {target : Target} {known : String → Prop}
    (hmain : ∀ targets ∈ main, ∀ other ∈ targets, known other.node) (htarget : known target.node) :
    ∀ targets ∈ addTarget main output target, ∀ other ∈ targets, known other.node := by
  intro targets htargets other hother
  obtain ⟨i, hi, rfl⟩ := List.mem_iff_getElem.mp htargets
  have hgetD : (addTarget main output target).getD i [] = (addTarget main output target)[i] := by
    rw [List.getD_eq_getElem?_getD, List.getElem?_eq_getElem hi, Option.getD_some]
  rw [← hgetD, addTarget_getD] at hother
  have hold : ∀ j, other ∈ main.getD j [] → known other.node := by
    intro j hmem
    by_cases hj : j < main.length
    · rw [List.getD_eq_getElem?_getD, List.getElem?_eq_getElem hj, Option.getD_some] at hmem
      exact hmain _ (List.getElem_mem hj) other hmem
    · rw [List.getD_eq_getElem?_getD, List.getElem?_eq_none (Nat.le_of_not_lt hj)] at hmem
      cases hmem
  split at hother
  · rcases List.mem_append.mp hother with hmem | hmem
    · exact hold output hmem
    · rw [List.mem_singleton.mp hmem]
      exact htarget
  · exact hold i hother

/-- A connection between known nodes keeps the map among them. -/
theorem Joins.add {known : String → Prop} {connections : Connections} (h : Joins known connections)
    {source : String} (hsource : known source) (output : ℕ) {target : String} (htarget : known target) :
    Joins known (connections.add source output target) := by
  have hdata : Joins known (if connections.any (fun entry => entry.1 = source) then connections
      else connections ++ [(source, [])]) := by
    split
    · exact h
    · intro entry hentry
      rcases List.mem_append.mp hentry with hentry | hentry
      · exact h entry hentry
      · rw [List.mem_singleton.mp hentry]
        exact ⟨hsource, fun output houtput => by cases houtput⟩
  intro entry hentry
  obtain ⟨old, hold, rfl⟩ := List.mem_map.mp hentry
  obtain ⟨hname, htargets⟩ := hdata old hold
  split
  · exact ⟨hname, mem_addTarget htargets htarget⟩
  · exact ⟨hname, htargets⟩

/-- Leading known open edges to a known node keeps the map among the known nodes. -/
theorem Joins.connectPending {known : String → Prop} {connections : Connections}
    (h : Joins known connections) {pending : List Port} (hpending : ∀ port ∈ pending, known port.1)
    {name : String} (hname : known name) : Joins known (connectPending connections pending name) := by
  induction pending generalizing connections with
  | nil => exact h
  | cons port rest ih =>
    exact ih (h.add (hpending port List.mem_cons_self) port.2 hname)
      fun other hother => hpending other (List.mem_cons_of_mem _ hother)

/-! ## Texts compile when their references resolve -/

/-- The steps that a text refers to have emitted nodes. -/
def Resolves (nodeNames : NodeNames) (texts : List String) : Prop :=
  ∀ text ∈ texts, ∀ ref ∈ finditer text, (nodeNames.get ref.step).isSome

/-- A text with resolved references has an expression. -/
theorem jsExpression_ok {nodeNames : NodeNames} {value : String} (h : Resolves nodeNames [value]) :
    ∃ code, jsExpression nodeNames value = .ok code := by
  obtain ⟨parts, hparts⟩ := mapM_ok (jsPart nodeNames) (segments value) fun segment hsegment => by
    cases segment with
    | literal text => exact ⟨_, rfl⟩
    | reference ref =>
      obtain ⟨target, htarget⟩ := Option.isSome_iff_exists.mp
        (h value (List.mem_singleton.mpr rfl) ref (mem_finditer.mpr hsegment))
      exact ⟨_, by rw [jsPart, htarget]⟩
  exact ⟨_, by rw [jsExpression, hparts]; rfl⟩

/-- The service table only holds Fleet's own addresses. -/
theorem serviceUrl_ok (action : ActionName) : serviceUrl action = .ok (urlBase ++ servicePaths action) := by
  have hmatch : matchFleetUrl (urlBase ++ servicePaths action) = true := by cases action <;> decide
  rw [serviceUrl, if_pos hmatch]

/-- The identifying fields of a node. -/
structure NodeHead where
  id : String
  name : String
  type : String
deriving DecidableEq

/-- The identifying fields of an emitted node. -/
def Node.head (node : Node) : NodeHead := ⟨node.id, node.name, node.type⟩

/-- The identifying fields of the node that a step is emitted as. -/
def Step.head : Step → NodeHead
  | .action step => ⟨"http-" ++ step.id, nodeName (.action step), "n8n-nodes-base.httpRequest"⟩
  | .condition step => ⟨"if-" ++ step.id, nodeName (.condition step), "n8n-nodes-base.if"⟩

/-- The request node of an action with resolved references. -/
theorem httpNode_ok {step : ActionStep} {nodeNames : NodeNames} (position : ℤ × ℤ)
    (h : Resolves nodeNames (step.params.map Prod.snd)) :
    ∃ node, httpNode step nodeNames position = .ok node ∧ node.head = Step.head (.action step) := by
  obtain ⟨fields, hfields⟩ := mapM_ok (bodyField nodeNames) step.params fun param hparam => by
    have hresolves : Resolves nodeNames [param.2] := fun text htext => by
      rw [List.mem_singleton.mp htext]
      exact h param.2 (List.mem_map.mpr ⟨param, hparam, rfl⟩)
    obtain ⟨code, hcode⟩ := jsExpression_ok hresolves
    exact ⟨_, by rw [bodyField, hcode]; rfl⟩
  have hbody : jsonBody step.params nodeNames =
      .ok (braced ("JSON.stringify(\x7b" ++ ", ".intercalate fields ++ "\x7d)")) := by
    rw [jsonBody, hfields]
    rfl
  refine ⟨_, by rw [httpNode, serviceUrl_ok, hbody]; rfl, rfl⟩

/-- The right operand of a condition with resolved references. -/
theorem rightValue_ok {step : ConditionStep} {nodeNames : NodeNames} (h : Resolves nodeNames [step.right]) :
    ∃ value, rightValue step nodeNames = .ok value := by
  obtain ⟨code, hcode⟩ := jsExpression_ok h
  unfold rightValue
  simp only [hcode, Functor.map, Except.map]
  repeat' split
  all_goals exact ⟨_, rfl⟩

/-- The `if` node of a condition with resolved references. -/
theorem ifNode_ok {step : ConditionStep} {nodeNames : NodeNames} (position : ℤ × ℤ)
    (h : Resolves nodeNames [step.left, step.right]) :
    ∃ node, ifNode step nodeNames position = .ok node ∧ node.head = Step.head (.condition step) := by
  have hresolvesRight : Resolves nodeNames [step.right] := fun text htext =>
    h text (List.mem_cons_of_mem _ htext)
  have hresolvesLeft : Resolves nodeNames [step.left] := fun text htext => by
    rw [List.mem_singleton.mp htext]
    exact h step.left List.mem_cons_self
  obtain ⟨right, hright⟩ := rightValue_ok hresolvesRight
  obtain ⟨left, hleft⟩ := jsExpression_ok hresolvesLeft
  refine ⟨_, by rw [ifNode, hright, hleft]; rfl, rfl⟩

/-! ## The loop state and the wiring -/

/-- The loop state after emitting some steps, against the wiring of those steps. -/
structure Tracks (recipe : Recipe) (known : String → Prop) (done : List Step) (state : CompileState)
    (w : Wiring String) : Prop where
  heads : state.nodes.map Node.head = (triggerNodes recipe).map Node.head ++ done.map Step.head
  named : ∀ step ∈ done, (state.nodeNames.get step.id).isSome
  pending : state.pending = w.tails
  edges : ∀ source output,
    (state.connections.at source output).map Target.node = targets w.edges (source, output)
  joins : Joins known state.connections
  pending_known : ∀ port ∈ state.pending, known port.1

/-- A name entry hides older ones of the same step only. -/
theorem NodeNames.get_cons (nodeNames : NodeNames) (id name step : String) :
    NodeNames.get ((id, name) :: nodeNames) step = if id = step then some name else nodeNames.get step := by
  by_cases h : id = step
  · simp [NodeNames.get, h]
  · simp [NodeNames.get, h]

/-- References to earlier steps stay resolved when another node is named. -/
theorem Resolves.cons {nodeNames : NodeNames} {texts : List String} (h : Resolves nodeNames texts)
    (id name : String) : Resolves ((id, name) :: nodeNames) texts := by
  intro text htext ref href
  rw [NodeNames.get_cons]
  split
  · rfl
  · exact h text htext ref href

/-- References to emitted steps are resolved. -/
theorem Tracks.resolves {recipe : Recipe} {known : String → Prop} {done : List Step} {state : CompileState}
    {w : Wiring String} (h : Tracks recipe known done state w) {texts : List String}
    (hrefs : ∀ text ∈ texts, ∀ ref ∈ finditer text, ref.step ∈ done.map Step.id) :
    Resolves state.nodeNames texts := by
  intro text htext ref href
  obtain ⟨step, hstep, hid⟩ := List.mem_map.mp (hrefs text htext ref href)
  rw [← hid]
  exact h.named step hstep

/-- Emitting a node keeps the relation, whichever of its outputs is opened. -/
theorem Tracks.emit {recipe : Recipe} {known : String → Prop} {done : List Step} {state : CompileState}
    {w : Wiring String} (h : Tracks recipe known done state w) {step : Step} (hknown : known (nodeName step))
    {node : Node} (hhead : node.head = step.head) (output column : ℕ) :
    Tracks recipe known (done ++ [step])
      { nodes := state.nodes ++ [node]
        connections := connectPending state.connections state.pending (nodeName step)
        nodeNames := (step.id, nodeName step) :: state.nodeNames
        pending := [(nodeName step, output)]
        column := column }
      ⟨w.close (nodeName step), [(nodeName step, output)]⟩ where
  heads := by simp [h.heads, hhead]
  named := by
    intro other hother
    rw [NodeNames.get_cons]
    split
    · rfl
    · rename_i hne
      rcases List.mem_append.mp hother with hold | hnew
      · exact h.named other hold
      · exact absurd (by rw [List.mem_singleton.mp hnew]) hne
  pending := rfl
  edges := by
    rw [Wiring.close, ← h.pending]
    exact Connections.at_connectPending state.pending state.connections _ w.edges h.edges
  joins := h.joins.connectPending h.pending_known hknown
  pending_known := by
    intro port hport
    rw [List.mem_singleton.mp hport]
    exact hknown

/-- Opening another output of a known node keeps the relation. -/
theorem Tracks.reopen {recipe : Recipe} {known : String → Prop} {done : List Step} {state : CompileState}
    {w : Wiring String} (h : Tracks recipe known done state w) (pending : List Port)
    (hpending : ∀ port ∈ pending, known port.1) (column : ℕ) :
    Tracks recipe known done { state with pending := pending, column := column } ⟨w.edges, pending⟩ :=
  ⟨h.heads, h.named, rfl, h.edges, h.joins, hpending⟩

/-- Emitting an action succeeds and wires one step. -/
theorem emitAction_tracks {recipe : Recipe} {known : String → Prop} {done : List Step} {state : CompileState}
    {w : Wiring String} (h : Tracks recipe known done state w) (row : ℤ) (step : ActionStep)
    (hknown : known (nodeName (.action step)))
    (hrefs : ∀ text ∈ step.params.map Prod.snd, ∀ ref ∈ finditer text, ref.step ∈ done.map Step.id) :
    ∃ state', emitAction row state step = .ok state' ∧
      Tracks recipe known (done ++ [.action step]) state' (wireStep w (nodeName (.action step))) := by
  obtain ⟨node, hnode, hhead⟩ := httpNode_ok (((state.column + 1 : ℕ) : ℤ) * 240, row)
    ((h.resolves hrefs).cons step.id (nodeName (.action step)))
  refine ⟨_, by rw [emitAction, hnode]; rfl, ?_⟩
  exact h.emit hknown hhead 0 _

/-- Emitting a branch succeeds and wires its steps from one output of the condition. -/
theorem emitActions_tracks {recipe : Recipe} {known : String → Prop} (row : ℤ) (branch : List ActionStep)
    {done : List Step} {state : CompileState} {w : Wiring String} (h : Tracks recipe known done state w)
    (hknown : ∀ step ∈ branch, known (nodeName (.action step)))
    (hrefs : ∀ step ∈ branch, ∀ text ∈ step.params.map Prod.snd, ∀ ref ∈ finditer text,
      ref.step ∈ done.map Step.id) :
    ∃ state', branch.foldlM (emitAction row) state = .ok state' ∧
      Tracks recipe known (done ++ branch.map Step.action) state'
        ((branch.map fun step => nodeName (.action step)).foldl wireStep w) := by
  induction branch generalizing done state w with
  | nil => exact ⟨state, rfl, by simpa using h⟩
  | cons step rest ih =>
    obtain ⟨next, hnext, htracks⟩ := emitAction_tracks h row step (hknown step List.mem_cons_self)
      (hrefs step List.mem_cons_self)
    obtain ⟨state', hstate, htracks'⟩ := ih htracks
      (fun other hother => hknown other (List.mem_cons_of_mem _ hother))
      (fun other hother text htext ref href => by
        rw [List.map_append]
        exact List.mem_append_left _
          (hrefs other (List.mem_cons_of_mem _ hother) text htext ref href))
    refine ⟨state', by rw [List.foldlM_cons, hnext]; exact hstate, ?_⟩
    simpa using htracks'

end FleetWorkflow.Recipes
