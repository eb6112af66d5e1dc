import FleetWorkflow.Async.Prog
import FleetWorkflow.Async.Runs
import Mathlib.Data.Nat.Notation

/-!
# Checkpointed state graphs

The execution rule of a graph of nodes over a shared state, as its library documents it: a node
returns writes that are merged into the state, or interrupts the run; the routing after a node is
part of the node, so that its failure leaves the checkpoint at the node; the checkpoint is saved
while the next node already runs, and the failure of a save surfaces when the run ends. A resumed
run starts the interrupted node over, with the resume value, which later nodes do not see.
-/

namespace FleetWorkflow.Async

/-- What a node comes back with. -/
inductive NodeResult (W P : Type) where
  | wrote (writes : W)
  | interrupted (payload : P)

/-- A graph over nodes `ν`, state `S`, writes `W`, interrupt payloads `P` and resume values `D`. -/
structure StateGraph (C : Type) (R : C → Type) (E : Type) (ν S W P D : Type) where
  entry : ν
  body : ν → Option D → S → Prog C R E (NodeResult W P)
  merge : S → W → S
  route : ν → S → Except E (Option ν)

/-- The state at a node boundary: the node to run next, or none when the run is over. -/
structure Checkpoint (ν S : Type) where
  values : S
  next : Option ν

/-- The checkpointer of one thread, and the notice that a node starts. -/
structure Saver (C : Type) (R : C → Type) (E : Type) (ν S : Type) where
  enter : ν → Prog C R E Unit
  load : Prog C R E (Option (Checkpoint ν S))
  save : Checkpoint ν S → Prog C R E Unit

/-- The state in which a run stopped, and the payload when it was interrupted. -/
structure RunResult (S P : Type) where
  values : S
  interrupt : Option P

/-- A checkpointer whose calls are made as calls of another kind. -/
def Saver.embed {C C' : Type} {R : C → Type} {R' : C' → Type} {E ν S : Type} (wrap : C → C')
    (unwrap : ∀ c, R' (wrap c) → R c) (saver : Saver C R E ν S) : Saver C' R' E ν S where
  enter node := (saver.enter node).embed wrap unwrap
  load := saver.load.embed wrap unwrap
  save checkpoint := (saver.save checkpoint).embed wrap unwrap

namespace StateGraph

variable {C : Type} {R : C → Type} {E : Type} {ν S W P D : Type}

/-- Save a checkpoint unless an earlier save failed; the failure is kept for the end. -/
def saveAfter (saver : Saver C R E ν S) (failed : Option E) (checkpoint : Checkpoint ν S) :
    Prog C R E (Option E) :=
  match failed with
  | some error => return some error
  | none => do
    match ← (saver.save checkpoint).attempt with
    | .ok _ => return none
    | .error error => return some error

/-- End a run, with the failure of a save if there was one. -/
def finish (failed : Option E) (result : RunResult S P) : Prog C R E (RunResult S P) :=
  match failed with
  | some error => .raise error
  | none => return result

/-- What one superstep leads to: the end of the run, or the next node. -/
inductive Progress (E ν S P : Type) where
  | stopped (failed : Option E) (result : RunResult S P)
  | moved (failed : Option E) (node : ν) (values : S)

/-- Run one node, route from it and save the checkpoint. -/
def superstep (graph : StateGraph C R E ν S W P D) (saver : Saver C R E ν S) (failed : Option E)
    (resume : Option D) (node : ν) (values : S) : Prog C R E (Progress E ν S P) := do
  saver.enter node
  match ← graph.body node resume values with
  | .interrupted payload => return .stopped failed ⟨values, some payload⟩
  | .wrote writes =>
    let values := graph.merge values writes
    let next ← Prog.ofExcept (graph.route node values)
    let failed ← saveAfter saver failed ⟨values, next⟩
    match next with
    | none => return .stopped failed ⟨values, none⟩
    | some next => return .moved failed next values

/-- What a superstep does with what the body of its node comes back with. -/
def afterBody (graph : StateGraph C R E ν S W P D) (saver : Saver C R E ν S) (failed : Option E) (node : ν) (values : S) :
    NodeResult W P → Prog C R E (Progress E ν S P)
  | .interrupted payload => return .stopped failed ⟨values, some payload⟩
  | .wrote writes => do
    let next ← Prog.ofExcept (graph.route node (graph.merge values writes))
    let failed ← saveAfter saver failed ⟨graph.merge values writes, next⟩
    match next with
    | none => return .stopped failed ⟨graph.merge values writes, none⟩
    | some next => return .moved failed next (graph.merge values writes)

/-- A superstep enters its node, runs its body and goes on. -/
theorem superstep_eq (graph : StateGraph C R E ν S W P D) (saver : Saver C R E ν S) (failed : Option E)
    (resume : Option D) (node : ν) (values : S) : superstep graph saver failed resume node values =
      saver.enter node >>= fun _ => graph.body node resume values >>= afterBody graph saver failed node values := rfl

/-- Run nodes from one on; `fuel` is the recursion limit. -/
def advance (graph : StateGraph C R E ν S W P D) (saver : Saver C R E ν S) (recursion : E) :
    ℕ → Option E → Option D → ν → S → Prog C R E (RunResult S P)
  | 0, _, _, _, _ => .raise recursion
  | fuel + 1, failed, resume, node, values => do
    match ← superstep graph saver failed resume node values with
    | .stopped failed result => finish failed result
    | .moved failed node values => advance graph saver recursion fuel failed none node values

/-- `ainvoke(input)`: the input is merged into the saved state, and the run starts at the entry. -/
def invoke (graph : StateGraph C R E ν S W P D) (saver : Saver C R E ν S) (recursion : E) (limit : ℕ)
    (initial : S) (input : W) : Prog C R E (RunResult S P) := do
  let values := match ← saver.load with
    | some checkpoint => checkpoint.values
    | none => initial
  let values := graph.merge values input
  let failed ← saveAfter saver none ⟨values, some graph.entry⟩
  advance graph saver recursion limit failed none graph.entry values

/-- `ainvoke(Command(resume=...))`: the saved node starts over with the resume value. -/
def resume (graph : StateGraph C R E ν S W P D) (saver : Saver C R E ν S) (recursion empty : E) (limit : ℕ)
    (decision : D) : Prog C R E (RunResult S P) := do
  match ← saver.load with
  | none => .raise empty
  | some ⟨values, none⟩ => return ⟨values, none⟩
  | some ⟨values, some node⟩ => advance graph saver recursion limit none (some decision) node values

/-! ## Embedded runs -/

section Embed

variable {C' : Type} {R' : C' → Type} {wrap : C → C'} {unwrap : ∀ c, R' (wrap c) → R c} {saver : Saver C R E ν S}

/-- A save that is made as calls of another kind. -/
theorem saveAfter_embed (failed : Option E) (checkpoint : Checkpoint ν S) :
    saveAfter (saver.embed wrap unwrap) failed checkpoint = (saveAfter saver failed checkpoint).embed wrap unwrap := by
  cases failed with
  | some error => rfl
  | none =>
    simp only [saveAfter, Saver.embed, Prog.embed_bind, Prog.embed_attempt]
    congr
    funext result
    cases result <;> rfl

end Embed

/-! ## The rule of runs -/

section Rules

variable {γ : Type} {P' : Protocol C R E γ} {graph : StateGraph C R E ν S W P D} {saver : Saver C R E ν S}

/-- The exception of a run that a failed save turned into a failure. -/
def outcome (failed : Option E) (result : RunResult S P) : Except E (RunResult S P) :=
  match failed with
  | some error => .error error
  | none => .ok result

/-- Ending a run ends in its outcome. -/
theorem ensures_finish {failed : Option E} {result : RunResult S P}
    {post : Except E (RunResult S P) → γ → Prop} {g : γ} :
    P'.Ensures post (finish failed result) g ↔ post (outcome failed result) g := by
  cases failed with
  | none => exact Iff.rfl
  | some error => exact Iff.rfl

/-- What a superstep has to ensure for a run: the invariant at the node it moves to, and the
postcondition where it stops. -/
def Steps (invariant : Option E → Option D → ν → S → γ → Prop)
    (post : Except E (RunResult S P) → γ → Prop) : Except E (Progress E ν S P) → γ → Prop
  | .ok (.stopped failed result), g => post (outcome failed result) g
  | .ok (.moved failed node values), g => invariant failed none node values g
  | .error error, g => post (.error error) g

/-- A run ensures its postcondition when every superstep from the invariant does or keeps it. -/
theorem ensures_advance {recursion : E} {invariant : Option E → Option D → ν → S → γ → Prop}
    {post : Except E (RunResult S P) → γ → Prop}
    (hstep : ∀ failed resume node values g, invariant failed resume node values g →
      P'.Ensures (Steps invariant post) (superstep graph saver failed resume node values) g)
    (hlimit : ∀ failed resume node values g, invariant failed resume node values g →
      post (.error recursion) g)
    (fuel : ℕ) (failed : Option E) (resume : Option D) (node : ν) (values : S) (g : γ)
    (h : invariant failed resume node values g) :
    P'.Ensures post (advance graph saver recursion fuel failed resume node values) g := by
  induction fuel generalizing failed resume node values g with
  | zero => exact hlimit failed resume node values g h
  | succ fuel ih =>
    rw [advance, Protocol.ensures_bind]
    refine (hstep failed resume node values g h).mono fun result g' hresult => ?_
    match result with
    | .ok (.stopped failed' result) => exact ensures_finish.mpr hresult
    | .ok (.moved failed' node' values') => exact ih failed' none node' values' g' hresult
    | .error error => exact hresult

/-- What the body of a node has to ensure for a run, whatever becomes of the checkpoint: the invariant at the node to which
its writes lead, and the postcondition where the run stops. -/
def Leads (graph : StateGraph C R E ν S W P D) (invariant : Option E → Option D → ν → S → γ → Prop)
    (post : Except E (RunResult S P) → γ → Prop) (node : ν) (values : S) : Except E (NodeResult W P) → γ → Prop
  | .error error, g => post (.error error) g
  | .ok (.interrupted payload), g => ∀ failed, post (outcome failed ⟨values, some payload⟩) g
  | .ok (.wrote writes), g =>
    match graph.route node (graph.merge values writes) with
    | .error error => post (.error error) g
    | .ok none => ∀ failed, post (outcome failed ⟨graph.merge values writes, none⟩) g
    | .ok (some next) => ∀ failed, invariant failed none next (graph.merge values writes) g

/-- Saving a checkpoint leaves the state of a protocol, if the checkpointer does. -/
theorem ensures_saveAfter {g : γ} (hsave : ∀ checkpoint, P'.Ensures (fun _ g' => g' = g) (saver.save checkpoint) g)
    (failed : Option E) (checkpoint : Checkpoint ν S) :
    P'.Ensures (fun result g' => g' = g ∧ ∃ failed', result = .ok failed') (saveAfter saver failed checkpoint) g := by
  cases failed with
  | some error => exact ⟨rfl, _, rfl⟩
  | none =>
    apply Protocol.ensures_bind.mpr
    apply Protocol.ensures_attempt.mpr
    apply (hsave checkpoint).mono
    rintro saved g' rfl
    cases saved with
    | ok value => exact ⟨rfl, _, rfl⟩
    | error error => exact ⟨rfl, _, rfl⟩

/-- The rule of a superstep whose checkpointer leaves the states of the protocol in which a body ends: all is up to the
body. -/
theorem ensures_superstep (settled : γ → Prop) {invariant : Option E → Option D → ν → S → γ → Prop}
    {post : Except E (RunResult S P) → γ → Prop} {failed : Option E} {resume : Option D} {node : ν} {values : S} {g : γ}
    (henter : P'.Ensures (fun _ g' => g' = g) (saver.enter node) g)
    (hsave : ∀ checkpoint g, settled g → P'.Ensures (fun _ g' => g' = g) (saver.save checkpoint) g)
    (herror : ∀ error, post (.error error) g)
    (hbody : P'.Ensures (fun result g' => Leads graph invariant post node values result g' ∧
      ∀ value, result = .ok value → settled g') (graph.body node resume values) g) :
    P'.Ensures (Steps invariant post) (superstep graph saver failed resume node values) g := by
  rw [superstep, Protocol.ensures_bind]
  apply henter.mono
  rintro entered g' rfl
  cases entered with
  | error error => exact herror error
  | ok entered =>
    apply Protocol.ensures_bind.mpr
    apply hbody.mono
    rintro result g' ⟨hresult, hsettled⟩
    match result with
    | .error error => exact hresult
    | .ok (.interrupted payload) => exact hresult failed
    | .ok (.wrote writes) =>
      have hsave := fun checkpoint => hsave checkpoint g' (hsettled _ rfl)
      simp only [Leads] at hresult
      apply Protocol.ensures_ofExcept_bind
      · intro error hroute
        rw [hroute] at hresult
        exact hresult
      · intro next hroute
        rw [hroute] at hresult
        apply Protocol.ensures_bind.mpr
        apply (ensures_saveAfter hsave failed ⟨graph.merge values writes, next⟩).mono
        rintro saved g'' ⟨rfl, failed', rfl⟩
        cases next with
        | none => exact hresult failed'
        | some next => exact hresult failed'

/-- A new run is what it does from the entry on, if the checkpointer leaves the state of the protocol. -/
theorem ensures_invoke {post : Except E (RunResult S P) → γ → Prop} {recursion : E} {limit : ℕ} {initial : S} {input : W}
    {g : γ} (hload : P'.Ensures (fun _ g' => g' = g) saver.load g)
    (hsave : ∀ checkpoint, P'.Ensures (fun _ g' => g' = g) (saver.save checkpoint) g)
    (herror : ∀ error, post (.error error) g)
    (hadvance : ∀ failed values,
      P'.Ensures post (advance graph saver recursion limit failed none graph.entry values) g) :
    P'.Ensures post (invoke graph saver recursion limit initial input) g := by
  apply Protocol.ensures_bind.mpr
  apply hload.mono
  rintro loaded g' rfl
  cases loaded with
  | error error => exact herror error
  | ok loaded =>
    apply Protocol.ensures_bind.mpr
    apply (ensures_saveAfter hsave none _).mono
    rintro saved g'' ⟨rfl, failed, rfl⟩
    exact hadvance failed _

/-- A run that gets nearer to its end with every superstep is not cut off. -/
theorem ensures_advance_of_rank {recursion : E} {invariant : Option E → Option D → ν → S → γ → Prop}
    {post : Except E (RunResult S P) → γ → Prop} (rank : ν → ℕ)
    (hstep : ∀ failed resume node values g, invariant failed resume node values g →
      P'.Ensures (Steps (fun failed' resume' next values' g' =>
        rank next < rank node ∧ invariant failed' resume' next values' g') post)
        (superstep graph saver failed resume node values) g)
    (fuel : ℕ) (failed : Option E) (resume : Option D) (node : ν) (values : S) (g : γ) (hfuel : rank node < fuel)
    (h : invariant failed resume node values g) :
    P'.Ensures post (advance graph saver recursion fuel failed resume node values) g := by
  induction fuel generalizing failed resume node values g with
  | zero => exact absurd hfuel (Nat.not_lt_zero _)
  | succ fuel ih =>
    rw [advance, Protocol.ensures_bind]
    apply (hstep failed resume node values g h).mono
    intro result g' hresult
    match result with
    | .ok (.stopped failed' result) => exact ensures_finish.mpr hresult
    | .ok (.moved failed' node' values') =>
      exact ih failed' none node' values' g' (by have hless := hresult.1; omega) hresult.2
    | .error error => exact hresult

end Rules

/-! ## The calls of a run -/

section Only

variable {calls : C → Prop} {graph : StateGraph C R E ν S W P D} {saver : Saver C R E ν S}

/-- Saving a checkpoint makes the calls of the checkpointer. -/
theorem only_saveAfter (hsave : ∀ checkpoint, (saver.save checkpoint).Only calls) (failed : Option E)
    (checkpoint : Checkpoint ν S) : (saveAfter saver failed checkpoint).Only calls := by
  cases failed with
  | some error => trivial
  | none =>
    refine (hsave checkpoint).attempt.bind fun result => ?_
    cases result with
    | ok value => trivial
    | error error => trivial

/-- A run makes the calls of the checkpointer and of the nodes. -/
theorem only_advance (hbody : ∀ node resume values, (graph.body node resume values).Only calls)
    (henter : ∀ node, (saver.enter node).Only calls) (hsave : ∀ checkpoint, (saver.save checkpoint).Only calls)
    {recursion : E} (fuel : ℕ) (failed : Option E) (resume : Option D) (node : ν) (values : S) :
    (advance graph saver recursion fuel failed resume node values).Only calls := by
  induction fuel generalizing failed resume node values with
  | zero => trivial
  | succ fuel ih =>
    refine Prog.Only.bind ?_ fun progress => ?_
    · refine (henter node).bind fun _ => (hbody node resume values).bind fun result => ?_
      cases result with
      | interrupted payload => trivial
      | wrote writes =>
        refine (Prog.only_ofExcept _).bind fun next => Prog.Only.bind ?_ fun failed' => ?_
        · exact only_saveAfter hsave failed _
        · cases next with
          | none => trivial
          | some next => trivial
    · cases progress with
      | stopped failed' result =>
        cases failed' with
        | none => trivial
        | some error => trivial
      | moved failed' node' values' => exact ih failed' none node' values'

/-- A new run makes the calls of the checkpointer and of the nodes. -/
theorem only_invoke (hbody : ∀ node resume values, (graph.body node resume values).Only calls)
    (henter : ∀ node, (saver.enter node).Only calls) (hload : saver.load.Only calls)
    (hsave : ∀ checkpoint, (saver.save checkpoint).Only calls) {recursion : E} (limit : ℕ)
    (initial : S) (input : W) : (invoke graph saver recursion limit initial input).Only calls :=
  hload.bind fun _ => (only_saveAfter hsave none _).bind fun failed =>
    only_advance hbody henter hsave limit failed none graph.entry _

/-- A resumed run makes the calls of the checkpointer and of the nodes. -/
theorem only_resume (hbody : ∀ node resume values, (graph.body node resume values).Only calls)
    (henter : ∀ node, (saver.enter node).Only calls) (hload : saver.load.Only calls)
    (hsave : ∀ checkpoint, (saver.save checkpoint).Only calls) {recursion empty : E} (limit : ℕ)
    (decision : D) : (resume graph saver recursion empty limit decision).Only calls := by
  refine hload.bind fun checkpoint => ?_
  match checkpoint with
  | none => trivial
  | some ⟨values, none⟩ => trivial
  | some ⟨values, some node⟩ => exact only_advance hbody henter hsave limit none (some decision) node values

end Only

end StateGraph

/-!
## Runs of checkpointed graphs

How a run of a graph is put together from runs of its nodes, as long as the checkpointer answers.
-/

namespace StateGraph

variable {C : Type} {R : C → Type} {E : Type} {ν S W P D : Type} {graph : StateGraph C R E ν S W P D}
  {saver : Saver C R E ν S} {recursion : E} {resume : Option D} {node next : ν} {values : S} {writes : W}
  {entered events saved rest : List (Event C R E)} {error : E} {values' : S}

/-- A checkpoint that is saved. -/
theorem runs_saveAfter {checkpoint : Checkpoint ν S} (h : (saver.save checkpoint).Runs saved (.ok ())) :
    (saveAfter saver none checkpoint).Runs saved (.ok none) := by
  apply Prog.runs_bind.mpr
  refine .inr ⟨saved, [], .ok (), (List.append_nil saved).symm, Prog.runs_attempt.mpr ⟨_, h, rfl⟩, ?_⟩
  exact .done none

/-- A superstep that moves on. -/
theorem runs_superstep_moved (henter : (saver.enter node).Runs entered (.ok ()))
    (hbody : (graph.body node resume values).Runs events (.ok (.wrote writes)))
    (hroute : graph.route node (graph.merge values writes) = .ok (some next))
    (hsave : (saver.save ⟨graph.merge values writes, some next⟩).Runs saved (.ok ())) :
    (superstep graph saver none resume node values).Runs (entered ++ (events ++ saved))
      (.ok (.moved none next (graph.merge values writes))) := by
  apply Prog.runs_bind.mpr
  refine .inr ⟨entered, events ++ saved, (), rfl, henter, Prog.runs_bind.mpr ?_⟩
  refine .inr ⟨events, saved, .wrote writes, rfl, hbody, ?_⟩
  simp only [hroute, Prog.ofExcept_ok, Prog.done_bind]
  apply Prog.runs_bind.mpr
  exact .inr ⟨saved, [], none, (List.append_nil saved).symm, runs_saveAfter hsave, .done _⟩

/-- A superstep whose node raises. -/
theorem runs_superstep_error (henter : (saver.enter node).Runs entered (.ok ()))
    (hbody : (graph.body node resume values).Runs events (.error error)) :
    (superstep graph saver none resume node values).Runs (entered ++ events) (.error error) := by
  apply Prog.runs_bind.mpr
  exact .inr ⟨entered, events, (), rfl, henter, Prog.runs_bind.mpr (.inl ⟨error, hbody, rfl⟩)⟩

variable {fuel : ℕ} {result : Except E (RunResult S P)}

/-- A run goes on after a superstep that moves on. -/
theorem runs_advance_moved
    (hstep : (superstep graph saver none resume node values).Runs events (.ok (.moved none next values')))
    (hrest : (advance graph saver recursion fuel none none next values').Runs rest result) :
    (advance graph saver recursion (fuel + 1) none resume node values).Runs (events ++ rest) result :=
  Prog.runs_bind.mpr (.inr ⟨events, rest, _, rfl, hstep, hrest⟩)

/-- A run ends with the exception of a superstep. -/
theorem runs_advance_error (hstep : (superstep graph saver none resume node values).Runs events (.error error)) :
    (advance graph saver recursion (fuel + 1) none resume node values).Runs events (.error error) :=
  Prog.runs_bind.mpr (.inl ⟨error, hstep, rfl⟩)

end StateGraph

end FleetWorkflow.Async
