import Mathlib.Logic.Function.Basic
import FleetWorkflow.Async.Prog

/-!
# Interleaved coroutines

A pool holds one coroutine for each task and a state they share. A step lets one task make its
next call; a schedule is the list of tasks that step, in order, so that every interleaving is some
schedule. Conditions on a run are conditions on the pool before each of its steps.
-/

namespace FleetWorkflow.Async

variable {C : Type} {R : C → Type} {E : Type} {σ ι : Type}

/-- The shared state, the rest of each task, and the events so far with the task of each. -/
structure Pool (C : Type) (R : C → Type) (E : Type) (σ ι : Type) where
  shared : σ
  running : ι → Prog C R E Unit
  trace : List (ι × Event C R E)

namespace Pool

variable [DecidableEq ι] (answer : σ → (c : C) → σ × Except E (R c))

/-- One task makes its next call; a finished task does nothing. -/
def step (pool : Pool C R E σ ι) (task : ι) : Pool C R E σ ι :=
  match pool.running task with
  | .await c next =>
    { shared := (answer pool.shared c).1
      running := Function.update pool.running task (next (answer pool.shared c).2)
      trace := pool.trace ++ [(task, ⟨c, (answer pool.shared c).2⟩)] }
  | _ => pool

/-- Let tasks step in the order of a schedule. -/
def exec (pool : Pool C R E σ ι) (schedule : List ι) : Pool C R E σ ι := schedule.foldl (step answer) pool

/-- A condition holds before every step of a run. -/
def Along (condition : Pool C R E σ ι → ι → Prop) : Pool C R E σ ι → List ι → Prop
  | _, [] => True
  | pool, task :: rest => condition pool task ∧ Along condition (step answer pool task) rest

instance instDecidableAlong (condition : Pool C R E σ ι → ι → Prop) [∀ pool task, Decidable (condition pool task)] :
    ∀ pool schedule, Decidable (Along answer condition pool schedule)
  | _, [] => inferInstanceAs (Decidable True)
  | pool, task :: rest =>
    have := instDecidableAlong condition (step answer pool task) rest
    inferInstanceAs (Decidable (_ ∧ _))

/-- The call that a task would make next. -/
def pendingCall (pool : Pool C R E σ ι) (task : ι) : Option C :=
  match pool.running task with
  | .await c _ => some c
  | _ => none

variable {answer}

/-- A step of a waiting task is the reply to its call. -/
theorem step_await {pool : Pool C R E σ ι} {task : ι} {c : C} {next : Except E (R c) → Prog C R E Unit}
    (h : pool.running task = .await c next) :
    step answer pool task =
      { shared := (answer pool.shared c).1
        running := Function.update pool.running task (next (answer pool.shared c).2)
        trace := pool.trace ++ [(task, ⟨c, (answer pool.shared c).2⟩)] } := by
  rw [step, h]

/-- A step changes nothing, or replies to the call that its task waits for. -/
theorem step_cases (pool : Pool C R E σ ι) (task : ι) :
    step answer pool task = pool ∨ ∃ c next, pool.running task = .await c next := by
  cases h : pool.running task with
  | done value =>
    left
    rw [step, h]
  | raise error =>
    left
    rw [step, h]
  | await c next => exact .inr ⟨c, next, rfl⟩

/-- What every step preserves under a condition holds at the end of a run that meets it. -/
theorem Along.invariant {condition : Pool C R E σ ι → ι → Prop} {invariant : Pool C R E σ ι → Prop}
    (hstep : ∀ pool task, invariant pool → condition pool task → invariant (step answer pool task))
    {pool : Pool C R E σ ι} {schedule : List ι} (hcondition : Along answer condition pool schedule)
    (hpool : invariant pool) : invariant (exec answer pool schedule) := by
  induction schedule generalizing pool with
  | nil => exact hpool
  | cons task rest ih => exact ih hcondition.2 (hstep pool task hpool hcondition.1)

/-! ## Tasks that follow a protocol -/

section Follows

variable {γ : Type} {P : Protocol C R E γ} {ghost : ι → γ} {pool : Pool C R E σ ι} {task : ι}

/-- Every task keeps to a protocol from the ghost state it is in. -/
def Follows (P : Protocol C R E γ) (ghost : ι → γ) (pool : Pool C R E σ ι) : Prop :=
  ∀ task, P.Ensures (fun _ _ => True) (pool.running task) (ghost task)

omit [DecidableEq ι] in
/-- The call that a task waits for is allowed in its ghost state. -/
theorem Follows.allowed (h : Follows P ghost pool) {c : C} {next : Except E (R c) → Prog C R E Unit}
    (hawait : pool.running task = .await c next) : P.allowed (ghost task) c := by
  have htask := h task
  rw [hawait] at htask
  exact htask.1

/-- A reply that the protocol gives moves the ghost state of its task only. -/
theorem Follows.step (h : Follows P ghost pool) {c : C} {next : Except E (R c) → Prog C R E Unit}
    (hawait : pool.running task = .await c next) {moved : γ}
    (hmoved : P.answers (ghost task) c (answer pool.shared c).2 moved) :
    Follows P (Function.update ghost task moved) (pool.step answer task) := by
  intro other
  rw [step_await hawait]
  by_cases hother : other = task
  · subst hother
    simp only [Function.update_self]
    have htask := h other
    rw [hawait] at htask
    exact htask.2 _ _ hmoved
  · simp only [Function.update_of_ne hother]
    exact h other

end Follows

end Pool

end FleetWorkflow.Async
