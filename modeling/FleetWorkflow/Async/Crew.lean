import Mathlib.Data.List.Induction
import Mathlib.Logic.Function.Basic
import FleetWorkflow.Async.Prog

/-!
# Crews

Interleaved coroutines with results. A crew holds one coroutine for each task and a state they share; a schedule is the
list of tasks that step, in order. A moment of a schedule is one of its prefixes: what was shared then is what running the
prefix leaves.
-/

namespace FleetWorkflow.Async

variable {C : Type} {R : C → Type} {E : Type} {σ ι α : Type}

/-- The shared state, and what is left of each task. -/
structure Crew (C : Type) (R : C → Type) (E : Type) (σ ι α : Type) where
  shared : σ
  running : ι → Prog C R E α

section Starts

variable [DecidableEq ι] {task : ι} {schedule : List ι}

/-- The moment at which a task starts. -/
def startOf (task : ι) (schedule : List ι) : List ι := schedule.takeWhile (· ≠ task)

/-- The start of a task that has started stays where it is. -/
theorem startOf_concat (h : task ∈ schedule) (other : ι) : startOf task (schedule ++ [other]) = startOf task schedule := by
  induction schedule with
  | nil => cases h
  | cons head rest ih =>
    simp only [startOf, List.cons_append, List.takeWhile_cons] at ih ⊢
    by_cases hhead : head = task
    · simp [hhead]
    · have hrest : task ∈ rest := by simpa [Ne.symm hhead] using h
      simp only [ne_eq, hhead, not_false_eq_true, decide_true, if_true, List.cons.injEq, true_and]
      exact ih hrest

/-- A task starts with its first step. -/
theorem startOf_first (h : task ∉ schedule) : startOf task (schedule ++ [task]) = schedule := by
  have hall : ∀ other ∈ schedule, decide (other ≠ task) = true := by
    intro other hother
    have hne : other ≠ task := fun heq => h (heq ▸ hother)
    simpa using hne
  rw [startOf, List.takeWhile_append_of_pos hall]
  simp

/-- A task starts where it is first in the schedule. -/
theorem startOf_eq {start : List ι} (h : start ++ [task] <+: schedule) (hnew : task ∉ start) :
    startOf task schedule = start := by
  obtain ⟨rest, rfl⟩ := h
  have hall : ∀ other ∈ start, decide (other ≠ task) = true := by
    intro other hother
    have hne : other ≠ task := fun heq => hnew (heq ▸ hother)
    simpa using hne
  rw [startOf, List.append_assoc, List.takeWhile_append_of_pos hall]
  simp

/-- A start is a moment of the schedule. -/
theorem startOf_moment (task : ι) (schedule : List ι) : startOf task schedule <+: schedule := List.takeWhile_prefix _

end Starts

namespace Crew

variable [DecidableEq ι] (answer : σ → (c : C) → σ × Except E (R c))

/-- One task makes its next call; a finished task does nothing. -/
def step (crew : Crew C R E σ ι α) (task : ι) : Crew C R E σ ι α :=
  match crew.running task with
  | .await c next =>
    ⟨(answer crew.shared c).1, Function.update crew.running task (next (answer crew.shared c).2)⟩
  | _ => crew

/-- Let tasks step in the order of a schedule. -/
def exec (crew : Crew C R E σ ι α) (schedule : List ι) : Crew C R E σ ι α := schedule.foldl (step answer) crew

variable {answer} {crew : Crew C R E σ ι α} {task other : ι} {schedule : List ι}

/-- A step of a waiting task is the reply to its call. -/
theorem step_of_await (answer : σ → (c : C) → σ × Except E (R c)) {c : C} {next : Except E (R c) → Prog C R E α}
    (h : crew.running task = .await c next) :
    crew.step answer task =
      ⟨(answer crew.shared c).1, Function.update crew.running task (next (answer crew.shared c).2)⟩ := by
  rw [step, h]

/-- A step changes nothing, or replies to the call that its task waits for. -/
theorem step_cases (answer : σ → (c : C) → σ × Except E (R c)) (crew : Crew C R E σ ι α) (task : ι) :
    crew.step answer task = crew ∨ ∃ c next, crew.running task = .await c next := by
  cases h : crew.running task with
  | done value =>
    left
    rw [step, h]
  | raise error =>
    left
    rw [step, h]
  | await c next => exact .inr ⟨c, next, rfl⟩

/-- One more step at the end of a schedule. -/
theorem exec_concat (schedule : List ι) (task : ι) :
    crew.exec answer (schedule ++ [task]) = (crew.exec answer schedule).step answer task := by
  simp [exec]

/-- A step of one task leaves the others. -/
theorem running_step_of_ne (h : task ≠ other) : (crew.step answer other).running task = crew.running task := by
  rcases step_cases answer crew other with hsame | ⟨c, next, hawait⟩
  · rw [hsame]
  · rw [step_of_await answer hawait]
    exact Function.update_of_ne h _ _

/-- What is left of the task that made a call. -/
theorem running_step_self {c : C} {next : Except E (R c) → Prog C R E α} (h : crew.running task = .await c next) :
    (crew.step answer task).running task = next (answer crew.shared c).2 := by
  rw [step_of_await answer h]
  exact Function.update_self _ _ _

/-- What holds at the start and is kept by every step holds at every moment. -/
theorem exec_rule (motive : List ι → Crew C R E σ ι α → Prop) (hstart : motive [] crew)
    (hstep : ∀ schedule task, motive schedule (crew.exec answer schedule) →
      motive (schedule ++ [task]) ((crew.exec answer schedule).step answer task)) (schedule : List ι) :
    motive schedule (crew.exec answer schedule) := by
  induction schedule using List.reverseRecOn with
  | nil => exact hstart
  | append_singleton schedule task ih =>
    rw [exec_concat]
    exact hstep schedule task ih

/-- Nothing is done of a task before its first step. -/
theorem running_exec_of_not_mem (h : task ∉ schedule) :
    (crew.exec answer schedule).running task = crew.running task := by
  induction schedule using List.reverseRecOn with
  | nil => rfl
  | append_singleton schedule other ih =>
    rw [List.mem_append, not_or] at h
    rw [exec_concat, running_step_of_ne (fun heq => h.2 (by simp [heq]))]
    exact ih h.1

/-- Each task goes on making calls of its kind. -/
theorem only_exec (calls : ι → C → Prop) (h : ∀ task, (crew.running task).Only (calls task)) (schedule : List ι)
    (task : ι) : ((crew.exec answer schedule).running task).Only (calls task) := by
  revert task
  apply exec_rule (fun _ crew => ∀ task, (crew.running task).Only (calls task)) h
  intro schedule other ih task
  rcases step_cases answer (crew.exec answer schedule) other with hsame | ⟨c, next, hawait⟩
  · rw [hsame]
    exact ih task
  · by_cases htask : task = other
    · rw [htask, running_step_self hawait]
      have honly := ih other
      rw [hawait] at honly
      exact honly.2 _
    · rw [running_step_of_ne htask]
      exact ih task

/-! ## Protocols -/

/-- The rule of protocols: each task keeps to a protocol of its own, in a state of which something holds. What holds is
kept by the steps of the others, and each reply that a task gets moves its state on; an invariant of the schedule is kept
by every call that a protocol allows. All of it is asked for only as long as a condition on the schedule lasts. -/
theorem exec_ensures {γ : Type} (P : ι → Protocol C R E γ) (post : ι → Except E α → γ → Prop)
    (condition invariant : List ι → Prop) (holds : List ι → ι → γ → Prop)
    (hcondition : ∀ schedule task, condition (schedule ++ [task]) → condition schedule) (hinvariant : invariant [])
    (hstart : ∀ task, ∃ g, holds [] task g ∧ (P task).Ensures (post task) (crew.running task) g)
    (hcall : ∀ schedule task g c next, condition (schedule ++ [task]) → invariant schedule → holds schedule task g →
      (crew.exec answer schedule).running task = .await c next → (P task).allowed g c →
      invariant (schedule ++ [task]) ∧ ∃ g', (P task).answers g c (answer (crew.exec answer schedule).shared c).2 g' ∧
        holds (schedule ++ [task]) task g')
    (hidle : ∀ schedule task g result, crew.exec answer (schedule ++ [task]) = crew.exec answer schedule →
      invariant schedule → holds schedule task g → post task result g →
      invariant (schedule ++ [task]) ∧ holds (schedule ++ [task]) task g)
    (hothers : ∀ schedule task other g, task ≠ other → holds schedule task g → holds (schedule ++ [other]) task g)
    (schedule : List ι) (h : condition schedule) : invariant schedule ∧ ∀ task, ∃ g, holds schedule task g ∧
      (P task).Ensures (post task) ((crew.exec answer schedule).running task) g := by
  induction schedule using List.reverseRecOn with
  | nil => exact ⟨hinvariant, hstart⟩
  | append_singleton schedule task ih =>
    obtain ⟨hkept, htasks⟩ := ih (hcondition schedule task h)
    obtain ⟨g, hholds, hensures⟩ := htasks task
    -- The other tasks have what they had.
    have hrest (other : ι) (hother : other ≠ task) : ∃ g, holds (schedule ++ [task]) other g ∧
        (P other).Ensures (post other) ((crew.exec answer (schedule ++ [task])).running other) g := by
      obtain ⟨g, hholds, hensures⟩ := htasks other
      rw [exec_concat, running_step_of_ne hother]
      exact ⟨g, hothers schedule other task g hother hholds, hensures⟩
    have hfinished (result : Except E α) (hpost : post task result g)
        (hsame : crew.exec answer (schedule ++ [task]) = crew.exec answer schedule) :
        invariant (schedule ++ [task]) ∧ ∀ task', ∃ g, holds (schedule ++ [task]) task' g ∧
          (P task').Ensures (post task') ((crew.exec answer (schedule ++ [task])).running task') g := by
      obtain ⟨hkept', hholds'⟩ := hidle schedule task g result hsame hkept hholds hpost
      refine ⟨hkept', fun task' => ?_⟩
      by_cases htask : task' = task
      · rw [htask, hsame]
        exact ⟨g, hholds', hensures⟩
      · exact hrest task' htask
    cases hrun : (crew.exec answer schedule).running task with
    | done value =>
      rw [hrun] at hensures
      exact hfinished _ hensures (by rw [exec_concat, step, hrun])
    | raise error =>
      rw [hrun] at hensures
      exact hfinished _ hensures (by rw [exec_concat, step, hrun])
    | await c next =>
      rw [hrun] at hensures
      obtain ⟨hkept', g', hanswers, hholds'⟩ := hcall schedule task g c next h hkept hholds hrun hensures.1
      refine ⟨hkept', fun task' => ?_⟩
      by_cases htask : task' = task
      · rw [htask, exec_concat, running_step_self hrun]
        exact ⟨g', hholds', hensures.2 _ g' hanswers⟩
      · exact hrest task' htask

/-- The reply to a call moves the state of its task on and leaves those of the others. -/
theorem ensures_step {γ : Type} {P : ι → Protocol C R E γ} {post : ι → Except E α → γ → Prop} {states : ι → γ} {c : C}
    {next : Except E (R c) → Prog C R E α} {g : γ} (hrun : crew.running task = .await c next)
    (hanswers : (P task).answers (states task) c (answer crew.shared c).2 g)
    (h : ∀ other, (P other).Ensures (post other) (crew.running other) (states other)) (other : ι) :
    (P other).Ensures (post other) ((crew.step answer task).running other) (Function.update states task g other) := by
  by_cases hother : other = task
  · subst hother
    have hensures := h other
    rw [hrun] at hensures
    rw [running_step_self hrun, Function.update_self]
    exact hensures.2 _ g hanswers
  · rw [running_step_of_ne hother, Function.update_of_ne hother]
    exact h other

/-- The joint rule of protocols: the states of all tasks together, with the schedule, satisfy an invariant that every call
keeps, as long as a condition on the schedule lasts. -/
theorem exec_ensures_jointly {γ : Type} (P : ι → Protocol C R E γ) (post : ι → Except E α → γ → Prop)
    (condition : List ι → Prop) (invariant : List ι → (ι → γ) → Prop) (start : ι → γ)
    (hcondition : ∀ schedule task, condition (schedule ++ [task]) → condition schedule) (hstart : invariant [] start)
    (hensures : ∀ task, (P task).Ensures (post task) (crew.running task) (start task))
    (hcall : ∀ schedule states task c next, condition (schedule ++ [task]) → invariant schedule states →
      (∀ other, (P other).Ensures (post other) ((crew.exec answer schedule).running other) (states other)) →
      (crew.exec answer schedule).running task = .await c next →
      ∃ g, (P task).answers (states task) c (answer (crew.exec answer schedule).shared c).2 g ∧
        invariant (schedule ++ [task]) (Function.update states task g))
    (hidle : ∀ schedule states task, crew.exec answer (schedule ++ [task]) = crew.exec answer schedule →
      (∀ c next, (crew.exec answer schedule).running task ≠ .await c next) → invariant schedule states →
      invariant (schedule ++ [task]) states)
    (schedule : List ι) (h : condition schedule) : ∃ states, invariant schedule states ∧
      ∀ task, (P task).Ensures (post task) ((crew.exec answer schedule).running task) (states task) := by
  induction schedule using List.reverseRecOn with
  | nil => exact ⟨start, hstart, hensures⟩
  | append_singleton schedule task ih =>
    obtain ⟨states, hkept, htasks⟩ := ih (hcondition schedule task h)
    have hfinished (hsame : crew.exec answer (schedule ++ [task]) = crew.exec answer schedule)
        (hover : ∀ c next, (crew.exec answer schedule).running task ≠ .await c next) :
        ∃ states, invariant (schedule ++ [task]) states ∧
          ∀ other, (P other).Ensures (post other) ((crew.exec answer (schedule ++ [task])).running other) (states other) := by
      refine ⟨states, hidle schedule states task hsame hover hkept, ?_⟩
      rw [hsame]
      exact htasks
    cases hrun : (crew.exec answer schedule).running task with
    | done value =>
      apply hfinished (by rw [exec_concat, step, hrun])
      intro c next hawait
      rw [hrun] at hawait
      cases hawait
    | raise error =>
      apply hfinished (by rw [exec_concat, step, hrun])
      intro c next hawait
      rw [hrun] at hawait
      cases hawait
    | await c next =>
      obtain ⟨g, hanswers, hkept'⟩ := hcall schedule states task c next h hkept htasks hrun
      rw [exec_concat]
      exact ⟨_, hkept', ensures_step hrun hanswers htasks⟩

/-- A measure of the shared state that no call lowers is higher at later moments. -/
theorem measure_mono (measure : σ → ℕ) (h : ∀ s c, measure s ≤ measure (answer s c).1) {earlier later : List ι}
    (hearlier : earlier <+: later) : measure (crew.exec answer earlier).shared ≤ measure (crew.exec answer later).shared := by
  obtain ⟨rest, rfl⟩ := hearlier
  induction rest using List.reverseRecOn with
  | nil => simp
  | append_singleton rest task ih =>
    rw [← List.append_assoc, exec_concat]
    apply Nat.le_trans ih
    rcases step_cases answer (crew.exec answer (earlier ++ rest)) task with hsame | ⟨c, next, hawait⟩
    · exact Nat.le_of_eq (by rw [hsame])
    · rw [step_of_await answer hawait]
      exact h _ c

end Crew

end FleetWorkflow.Async
