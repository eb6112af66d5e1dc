import Mathlib.Logic.Basic
import Mathlib.Data.Nat.Notation

/-!
# Coroutines

A coroutine is a tree of awaited calls: it ends with a value or an exception, or waits for the
reply of a call, which may itself be an exception. Nothing is said here about who answers. A
protocol says which calls are allowed in which state and how their replies move the state on; the
rules below establish properties of whole coroutines from the calls they make.
-/

namespace FleetWorkflow.Async

/-- A coroutine over calls `C` with replies `R` and exceptions `E`. -/
inductive Prog (C : Type) (R : C → Type) (E : Type) (α : Type) where
  | done (value : α)
  | raise (error : E)
  | await (c : C) (next : Except E (R c) → Prog C R E α)

/-- A call together with its reply. -/
structure Event (C : Type) (R : C → Type) (E : Type) where
  call : C
  reply : Except E (R call)

/-- A responder that also keeps a log of what it answered. -/
def logged {C : Type} {R : C → Type} {E σ : Type} (answer : σ → (c : C) → σ × Except E (R c))
    (s : σ × List (Event C R E)) (c : C) : (σ × List (Event C R E)) × Except E (R c) :=
  (((answer s.1 c).1, s.2 ++ [⟨c, (answer s.1 c).2⟩]), (answer s.1 c).2)

namespace Prog

variable {C : Type} {R : C → Type} {E : Type} {α β : Type}

/-- Run one coroutine and then another on its value. -/
def bind : Prog C R E α → (α → Prog C R E β) → Prog C R E β
  | done value, f => f value
  | raise error, _ => raise error
  | await c next, f => await c fun reply => bind (next reply) f

instance : Monad (Prog C R E) where
  pure := done
  bind := bind

/-- Await one call; a failed reply is raised. -/
def call (c : C) : Prog C R E (R c) :=
  await c fun
    | .ok value => done value
    | .error error => raise error

/-- Raise the error of a computation that failed. -/
def ofExcept : Except E α → Prog C R E α
  | .ok value => done value
  | .error error => raise error

/-- Catch every exception. -/
def attempt : Prog C R E α → Prog C R E (Except E α)
  | done value => done (.ok value)
  | raise error => done (.error error)
  | await c next => await c fun reply => attempt (next reply)

/-- Catch the exceptions that a handler answers. -/
def handle (p : Prog C R E α) (handler : E → Option α) : Prog C R E α :=
  attempt p >>= fun
    | .ok value => done value
    | .error error =>
      match handler error with
      | some value => done value
      | none => raise error

/-- Raise another exception in the place of one that is raised. -/
def mapError (f : E → E) (p : Prog C R E α) : Prog C R E α := attempt p >>= fun outcome => ofExcept (outcome.mapError f)

/-- Run a coroutine and then, whatever it did, another one, whose exception comes first. -/
def withCleanup (p : Prog C R E α) (cleanup : Prog C R E Unit) : Prog C R E α :=
  attempt p >>= fun outcome => cleanup >>= fun _ => ofExcept outcome

/-- Make the calls of a coroutine as calls of another kind. -/
def embed {C' : Type} {R' : C' → Type} (wrap : C → C') (unwrap : ∀ c, R' (wrap c) → R c) :
    Prog C R E α → Prog C' R' E α
  | done value => done value
  | raise error => raise error
  | await c next => await (wrap c) fun reply => embed wrap unwrap (next (reply.map (unwrap c)))

@[simp] theorem pure_eq (value : α) : (pure value : Prog C R E α) = done value := rfl

@[simp] theorem done_bind (value : α) (f : α → Prog C R E β) : done value >>= f = f value := rfl

@[simp] theorem raise_bind (error : E) (f : α → Prog C R E β) :
    (raise error : Prog C R E α) >>= f = raise error := rfl

@[simp] theorem ofExcept_ok (value : α) : (ofExcept (.ok value) : Prog C R E α) = done value := rfl

@[simp] theorem await_bind (c : C) (next : Except E (R c) → Prog C R E α) (f : α → Prog C R E β) :
    await c next >>= f = await c fun reply => next reply >>= f := rfl

/-- Sequencing is associative. -/
theorem bind_assoc {γ : Type} (p : Prog C R E α) (f : α → Prog C R E β) (g : β → Prog C R E γ) :
    p >>= f >>= g = p >>= fun value => f value >>= g := by
  induction p with
  | done value => rfl
  | raise error => rfl
  | await c next ih =>
    simp only [await_bind]
    exact congrArg _ (funext ih)

/-- The calls of a sequence are made as calls of another kind in the same sequence. -/
theorem embed_bind {C' : Type} {R' : C' → Type} (wrap : C → C') (unwrap : ∀ c, R' (wrap c) → R c) (p : Prog C R E α)
    (f : α → Prog C R E β) :
    (p >>= f).embed wrap unwrap = p.embed wrap unwrap >>= fun value => (f value).embed wrap unwrap := by
  induction p with
  | done value => rfl
  | raise error => rfl
  | await c next ih =>
    simp only [await_bind, embed]
    exact congrArg _ (funext fun reply => ih _)

/-- A lifted computation makes no calls of any kind. -/
@[simp] theorem embed_ofExcept {C' : Type} {R' : C' → Type} (wrap : C → C') (unwrap : ∀ c, R' (wrap c) → R c)
    (result : Except E α) : (ofExcept result : Prog C R E α).embed wrap unwrap = ofExcept result := by
  cases result with
  | ok value => rfl
  | error error => rfl

/-- Exceptions are caught whatever the calls are made as. -/
theorem embed_attempt {C' : Type} {R' : C' → Type} (wrap : C → C') (unwrap : ∀ c, R' (wrap c) → R c) (p : Prog C R E α) :
    p.attempt.embed wrap unwrap = (p.embed wrap unwrap).attempt := by
  induction p with
  | done value => rfl
  | raise error => rfl
  | await c next ih =>
    simp only [attempt, embed]
    exact congrArg _ (funext fun reply => ih _)

/-! ## Which calls a coroutine can make -/

/-- Whatever the replies are, a coroutine makes calls of one kind only. -/
def Only (calls : C → Prop) : Prog C R E α → Prop
  | done _ => True
  | raise _ => True
  | await c next => calls c ∧ ∀ reply, Only calls (next reply)

section Only

variable {calls calls' : C → Prop}

/-- Every coroutine makes some calls. -/
theorem only_any (p : Prog C R E α) : Only (fun _ => True) p := by
  induction p with
  | done value => trivial
  | raise error => trivial
  | await c next ih => exact ⟨trivial, ih⟩

/-- A value makes no call. -/
theorem only_pure (value : α) : Only calls (pure value : Prog C R E α) := trivial

/-- A lifted computation makes no call. -/
theorem only_ofExcept (result : Except E α) : Only calls (ofExcept result : Prog C R E α) := by
  cases result with
  | ok value => trivial
  | error error => trivial

/-- One awaited call. -/
theorem only_call {c : C} (h : calls c) : Only calls (call c : Prog C R E (R c)) := by
  refine ⟨h, fun reply => ?_⟩
  cases reply with
  | ok value => trivial
  | error error => trivial

/-- The calls of a sequence are those of its parts. -/
theorem Only.bind {p : Prog C R E α} {f : α → Prog C R E β} (hp : Only calls p)
    (hf : ∀ value, Only calls (f value)) : Only calls (p >>= f) := by
  induction p with
  | done value => exact hf value
  | raise error => trivial
  | await c next ih => exact ⟨hp.1, fun reply => ih reply (hp.2 reply)⟩

/-- Catching exceptions makes no call. -/
theorem Only.attempt {p : Prog C R E α} (hp : Only calls p) : Only calls p.attempt := by
  induction p with
  | done value => trivial
  | raise error => trivial
  | await c next ih => exact ⟨hp.1, fun reply => ih reply (hp.2 reply)⟩

/-- Raising another exception makes no call. -/
theorem Only.mapError {f : E → E} {p : Prog C R E α} (hp : Only calls p) : Only calls (p.mapError f) :=
  hp.attempt.bind fun _ => only_ofExcept _

/-- A coroutine with its cleanup makes the calls of both. -/
theorem Only.withCleanup {p : Prog C R E α} {cleanup : Prog C R E Unit} (hp : Only calls p)
    (hcleanup : Only calls cleanup) : Only calls (p.withCleanup cleanup) :=
  hp.attempt.bind fun _ => hcleanup.bind fun _ => only_ofExcept _

/-- Handling exceptions makes no call. -/
theorem Only.handle {p : Prog C R E α} {handler : E → Option α} (hp : Only calls p) :
    Only calls (p.handle handler) := by
  refine hp.attempt.bind fun result => ?_
  cases result with
  | ok value => trivial
  | error error =>
    show Only calls (match handler error with
      | some value => done value
      | none => raise error)
    split <;> trivial

/-- A coroutine whose calls are of one kind makes calls of every wider kind. -/
theorem Only.mono {p : Prog C R E α} (hp : Only calls p) (h : ∀ c, calls c → calls' c) :
    Only calls' p := by
  induction p with
  | done value => trivial
  | raise error => trivial
  | await c next ih => exact ⟨h c hp.1, fun reply => ih reply (hp.2 reply)⟩

/-- Calls made as calls of another kind are still those that were made. -/
theorem Only.embed {C' : Type} {R' : C' → Type} {wrap : C → C'} {unwrap : ∀ c, R' (wrap c) → R c} {p : Prog C R E α}
    (hp : Only calls p) : (p.embed wrap unwrap).Only fun c' => ∃ c, c' = wrap c ∧ calls c := by
  induction p with
  | done value => trivial
  | raise error => trivial
  | await c next ih => exact ⟨⟨c, rfl, hp.1⟩, fun reply => ih _ (hp.2 _)⟩

end Only

/-! ## Answering the calls one after another -/

/-- Let a responder with a state answer every call of a coroutine. -/
def run {σ : Type} (answer : σ → (c : C) → σ × Except E (R c)) : Prog C R E α → σ → σ × Except E α
  | done value, s => (s, .ok value)
  | raise error, s => (s, .error error)
  | await c next, s => run answer (next (answer s c).2) (answer s c).1

/-- One awaited call is answered. -/
theorem run_call {σ : Type} (answer : σ → (c : C) → σ × Except E (R c)) (c : C) (s : σ) :
    (call c : Prog C R E (R c)).run answer s = answer s c := by
  simp only [call, run]
  cases answer s c with
  | mk s' reply =>
    cases reply with
    | ok value => rfl
    | error error => rfl

/-- A lifted computation leaves the state as it is. -/
@[simp] theorem run_ofExcept {σ : Type} (answer : σ → (c : C) → σ × Except E (R c)) (result : Except E α) (s : σ) :
    (ofExcept result : Prog C R E α).run answer s = (s, result) := by
  cases result with
  | ok value => rfl
  | error error => rfl

/-- A sequence answers the calls of its first part and then those of its second. -/
theorem run_bind {σ : Type} (answer : σ → (c : C) → σ × Except E (R c)) (p : Prog C R E α) (f : α → Prog C R E β)
    (s : σ) : (p >>= f).run answer s =
      match (p.run answer s).2 with
      | .ok value => (f value).run answer (p.run answer s).1
      | .error error => ((p.run answer s).1, .error error) := by
  induction p generalizing s with
  | done value => rfl
  | raise error => rfl
  | await c next ih => exact ih _ _

/-- Catching exceptions makes them part of the value. -/
theorem run_attempt {σ : Type} (answer : σ → (c : C) → σ × Except E (R c)) (p : Prog C R E α) (s : σ) :
    p.attempt.run answer s = ((p.run answer s).1, .ok (p.run answer s).2) := by
  induction p generalizing s with
  | done value => rfl
  | raise error => rfl
  | await c next ih => exact ih _ _

/-- A sequence whose first part returns goes on with its second. -/
theorem run_bind_of_ok {σ : Type} {answer : σ → (c : C) → σ × Except E (R c)} {p : Prog C R E α}
    {f : α → Prog C R E β} {s : σ} {value : α} (h : (p.run answer s).2 = .ok value) :
    (p >>= f).run answer s = (f value).run answer (p.run answer s).1 := by
  rw [run_bind, h]

/-- A sequence whose first part raises ends there. -/
theorem run_bind_of_error {σ : Type} {answer : σ → (c : C) → σ × Except E (R c)} {p : Prog C R E α}
    {f : α → Prog C R E β} {s : σ} {error : E} (h : (p.run answer s).2 = .error error) :
    (p >>= f).run answer s = ((p.run answer s).1, .error error) := by
  rw [run_bind, h]

/-- The parts of a sequence that returns. -/
theorem run_bind_eq_ok {σ : Type} {answer : σ → (c : C) → σ × Except E (R c)} {p : Prog C R E α}
    {f : α → Prog C R E β} {s s' : σ} {value : β} (h : (p >>= f).run answer s = (s', .ok value)) :
    ∃ s₁ first, p.run answer s = (s₁, .ok first) ∧ (f first).run answer s₁ = (s', .ok value) := by
  rw [run_bind] at h
  cases hp : p.run answer s with
  | mk s₁ result =>
    rw [hp] at h
    cases result with
    | error error => cases h
    | ok first => exact ⟨s₁, first, rfl, h⟩

/-- What a coroutine does is done also when its result is dropped and its exceptions are caught. -/
theorem run_discard_attempt {σ : Type} (answer : σ → (c : C) → σ × Except E (R c)) (p : Prog C R E α)
    (f : Unit → Prog C R E β) (s : σ) :
    (discard p.attempt >>= f).run answer s = (f ()).run answer (p.run answer s).1 := by
  induction p generalizing s with
  | done value => rfl
  | raise error => rfl
  | await c next ih => exact ih _ _

/-- A condition on the state and the call holds before every reply of a run. -/
def Along {σ : Type} (answer : σ → (c : C) → σ × Except E (R c)) (condition : σ → C → Prop) :
    Prog C R E α → σ → Prop
  | done _, _ => True
  | raise _, _ => True
  | await c next, s => condition s c ∧ Along answer condition (next (answer s c).2) (answer s c).1

/-- Let a responder answer at most a number of calls; there is no result when more are made. -/
def runFor {σ : Type} (answer : σ → (c : C) → σ × Except E (R c)) : ℕ → Prog C R E α → σ → σ × Option (Except E α)
  | _, done value, s => (s, some (.ok value))
  | _, raise error, s => (s, some (.error error))
  | 0, await _ _, s => (s, none)
  | n + 1, await c next, s => runFor answer n (next (answer s c).2) (answer s c).1

/-- A condition on the state and the call holds before every reply of such a run. -/
def AlongFor {σ : Type} (answer : σ → (c : C) → σ × Except E (R c)) (condition : σ → C → Prop) :
    ℕ → Prog C R E α → σ → Prop
  | _, done _, _ => True
  | _, raise _, _ => True
  | 0, await _ _, _ => True
  | n + 1, await c next, s => condition s c ∧ AlongFor answer condition n (next (answer s c).2) (answer s c).1

end Prog

/-! ## Protocols -/

/-- Which calls are allowed in a state, and how a reply moves the state on. -/
structure Protocol (C : Type) (R : C → Type) (E : Type) (γ : Type) where
  allowed : γ → C → Prop
  answers : γ → (c : C) → Except E (R c) → γ → Prop

namespace Protocol

variable {C : Type} {R : C → Type} {E : Type} {γ : Type} {α β : Type}

/-- Whatever replies the protocol gives, a coroutine makes allowed calls only and ends in the
postcondition. -/
def Ensures (P : Protocol C R E γ) (post : Except E α → γ → Prop) : Prog C R E α → γ → Prop
  | .done value, g => post (.ok value) g
  | .raise error, g => post (.error error) g
  | .await c next, g => P.allowed g c ∧ ∀ reply g', P.answers g c reply g' → P.Ensures post (next reply) g'

variable {P : Protocol C R E γ}

@[simp] theorem ensures_done {post : Except E α → γ → Prop} {value : α} {g : γ} :
    P.Ensures post (.done value) g ↔ post (.ok value) g := Iff.rfl

@[simp] theorem ensures_raise {post : Except E α → γ → Prop} {error : E} {g : γ} :
    P.Ensures post (.raise error) g ↔ post (.error error) g := Iff.rfl

/-- The rule of one awaited call. -/
theorem ensures_call {c : C} {post : Except E (R c) → γ → Prop} {g : γ} :
    P.Ensures post (.call c) g ↔
      P.allowed g c ∧ ∀ reply g', P.answers g c reply g' → post reply g' := by
  refine and_congr_right fun _ => forall_congr' fun reply => forall_congr' fun g' => imp_congr_right fun _ => ?_
  cases reply with
  | ok value => exact Iff.rfl
  | error error => exact Iff.rfl

/-- The rule of lifted computations. -/
@[simp] theorem ensures_ofExcept {result : Except E α} {post : Except E α → γ → Prop} {g : γ} :
    P.Ensures post (.ofExcept result) g ↔ post result g := by
  cases result with
  | ok value => exact Iff.rfl
  | error error => exact Iff.rfl

/-- What a sequence has to ensure after its first part. -/
def after (P : Protocol C R E γ) (post : Except E β → γ → Prop) (f : α → Prog C R E β) :
    Except E α → γ → Prop
  | .ok value, g => P.Ensures post (f value) g
  | .error error, g => post (.error error) g

/-- The rule of sequencing. -/
theorem ensures_bind {p : Prog C R E α} {f : α → Prog C R E β} {post : Except E β → γ → Prop} {g : γ} :
    P.Ensures post (p >>= f) g ↔ P.Ensures (P.after post f) p g := by
  induction p generalizing g with
  | done value => exact Iff.rfl
  | raise error => exact Iff.rfl
  | await c next ih =>
    exact and_congr_right fun _ => forall_congr' fun reply => forall_congr' fun g' => imp_congr_right fun _ => ih _

/-- The rule of a lifted computation at the start of a sequence. -/
theorem ensures_ofExcept_bind {result : Except E α} {f : α → Prog C R E β}
    {post : Except E β → γ → Prop} {g : γ} (herror : ∀ error, result = .error error → post (.error error) g)
    (hok : ∀ value, result = .ok value → P.Ensures post (f value) g) :
    P.Ensures post (.ofExcept result >>= f) g := by
  cases result with
  | error error => exact herror error rfl
  | ok value => exact hok value rfl

/-- The rule of one awaited call at the start of a sequence. -/
theorem ensures_call_bind {c : C} {f : R c → Prog C R E β} {post : Except E β → γ → Prop} {g : γ}
    (hallowed : P.allowed g c)
    (hreply : ∀ reply g', P.answers g c reply g' → P.after post f reply g') :
    P.Ensures post (.call c >>= f) g :=
  ensures_bind.mpr (ensures_call.mpr ⟨hallowed, hreply⟩)

/-- The rule of dropping a result. -/
theorem ensures_discard {p : Prog C R E α} {post : Except E Unit → γ → Prop} {g : γ} :
    P.Ensures post (discard p) g ↔ P.Ensures (fun result => post (result.map fun _ => ())) p g := by
  induction p generalizing g with
  | done value => exact Iff.rfl
  | raise error => exact Iff.rfl
  | await c next ih =>
    exact and_congr_right fun _ => forall_congr' fun reply => forall_congr' fun g' => imp_congr_right fun _ => ih _

/-- The rule of catching every exception. -/
theorem ensures_attempt {p : Prog C R E α} {post : Except E (Except E α) → γ → Prop} {g : γ} :
    P.Ensures post p.attempt g ↔ P.Ensures (fun result => post (.ok result)) p g := by
  induction p generalizing g with
  | done value => exact Iff.rfl
  | raise error => exact Iff.rfl
  | await c next ih =>
    exact and_congr_right fun _ => forall_congr' fun reply => forall_congr' fun g' => imp_congr_right fun _ => ih _

/-- The rule of consequence. -/
theorem Ensures.mono {post post' : Except E α → γ → Prop} {p : Prog C R E α} {g : γ}
    (h : P.Ensures post p g) (hpost : ∀ result g', post result g' → post' result g') :
    P.Ensures post' p g := by
  induction p generalizing g with
  | done value => exact hpost _ _ h
  | raise error => exact hpost _ _ h
  | await c next ih => exact ⟨h.1, fun reply g' hreply => ih reply (h.2 reply g' hreply)⟩

/-- The rule of conjunction. -/
theorem Ensures.and {post post' : Except E α → γ → Prop} {p : Prog C R E α} {g : γ} (h : P.Ensures post p g)
    (h' : P.Ensures post' p g) : P.Ensures (fun result g' => post result g' ∧ post' result g') p g := by
  induction p generalizing g with
  | done value => exact ⟨h, h'⟩
  | raise error => exact ⟨h, h'⟩
  | await c next ih => exact ⟨h.1, fun reply g' hreply => ih reply (h.2 reply g' hreply) (h'.2 reply g' hreply)⟩

/-- The rule of handled exceptions. -/
theorem ensures_handle {p : Prog C R E α} {handler : E → Option α} {post : Except E α → γ → Prop} {g : γ} :
    P.Ensures post (p.handle handler) g ↔
      P.Ensures (fun result g' =>
        match result with
        | .ok value => post (.ok value) g'
        | .error error =>
          match handler error with
          | some value => post (.ok value) g'
          | none => post (.error error) g') p g := by
  rw [Prog.handle, ensures_bind, ensures_attempt]
  refine ⟨fun h => h.mono ?_, fun h => h.mono ?_⟩
  · intro result g' hresult
    cases result with
    | ok value => exact hresult
    | error error =>
      simp only [after] at hresult
      split at hresult <;> simp_all
  · intro result g' hresult
    cases result with
    | ok value => exact hresult
    | error error =>
      simp only [after]
      split <;> simp_all

/-- The rule of a coroutine whose calls keep an invariant. -/
theorem ensures_only {calls : C → Prop} {invariant : γ → Prop} {p : Prog C R E α} {g : γ}
    (hp : p.Only calls) (hcalls : ∀ g c, invariant g → calls c →
      P.allowed g c ∧ ∀ reply g', P.answers g c reply g' → invariant g') (h : invariant g) :
    P.Ensures (fun _ g' => invariant g') p g := by
  induction p generalizing g with
  | done value => exact h
  | raise error => exact h
  | await c next ih =>
    exact ⟨(hcalls g c h hp.1).1, fun reply g' hreply =>
      ih reply (hp.2 reply) ((hcalls g c h hp.1).2 reply g' hreply)⟩

/-- The rule of a coroutine whose calls leave the state. -/
theorem ensures_still {calls : C → Prop} {p : Prog C R E α} {g : γ} (hp : p.Only calls)
    (hcalls : ∀ c, calls c → P.allowed g c ∧ ∀ reply g', P.answers g c reply g' → g' = g) :
    P.Ensures (fun _ g' => g' = g) p g := by
  refine @ensures_only _ _ _ _ _ _ calls (fun g' => g' = g) p g hp ?_ rfl
  rintro g' c rfl hc
  exact hcalls c hc

/-- The rule of an invariant that the calls of a coroutine keep. -/
theorem Ensures.keeps {calls : C → Prop} {invariant : γ → Prop} {post : Except E α → γ → Prop} {p : Prog C R E α}
    {g : γ} (h : P.Ensures post p g) (hp : p.Only calls)
    (hcalls : ∀ g c reply g', invariant g → calls c → P.answers g c reply g' → invariant g') (hg : invariant g) :
    P.Ensures (fun result g' => post result g' ∧ invariant g') p g := by
  induction p generalizing g with
  | done value => exact ⟨h, hg⟩
  | raise error => exact ⟨h, hg⟩
  | await c next ih =>
    refine ⟨h.1, ?_⟩
    intro reply g' hreply
    exact ih reply (h.2 reply g' hreply) (hp.2 reply) (hcalls g c reply g' hg hp.1 hreply)

section Run

variable {σ : Type} {answer : σ → (c : C) → σ × Except E (R c)} {condition : σ → C → Prop}
  {post : Except E α → γ → Prop} {p : Prog C R E α} {s : σ}

/-- A responder that keeps to the protocol and to an invariant, as long as a condition holds before
its replies, drives a coroutine into its postcondition. -/
theorem Ensures.run_along (view : σ → γ) (invariant : σ → Prop)
    (hanswer : ∀ s c, invariant s → P.allowed (view s) c → condition s c →
      P.answers (view s) c (answer s c).2 (view (answer s c).1) ∧ invariant (answer s c).1)
    (h : P.Ensures post p (view s)) (hs : invariant s) (halong : p.Along answer condition s) :
    post (p.run answer s).2 (view (p.run answer s).1) ∧ invariant (p.run answer s).1 := by
  induction p generalizing s with
  | done value => exact ⟨h, hs⟩
  | raise error => exact ⟨h, hs⟩
  | await c next ih =>
    have hreply := hanswer s c hs h.1 halong.1
    exact ih _ (h.2 _ _ hreply.1) hreply.2 halong.2

/-- A responder that keeps to the protocol and to an invariant drives a coroutine into its
postcondition. -/
theorem Ensures.run (view : σ → γ) (invariant : σ → Prop)
    (hanswer : ∀ s c, invariant s → P.allowed (view s) c →
      P.answers (view s) c (answer s c).2 (view (answer s c).1) ∧ invariant (answer s c).1)
    (h : P.Ensures post p (view s)) (hs : invariant s) :
    post (p.run answer s).2 (view (p.run answer s).1) ∧ invariant (p.run answer s).1 := by
  induction p generalizing s with
  | done value => exact ⟨h, hs⟩
  | raise error => exact ⟨h, hs⟩
  | await c next ih =>
    have hreply := hanswer s c hs h.1
    exact ih _ (h.2 _ _ hreply.1) hreply.2

/-- A responder that keeps to the protocol and to an invariant keeps the invariant for as many calls as it
answers, and a result that comes within them is in the postcondition. -/
theorem Ensures.runFor_along (view : σ → γ) (invariant : σ → Prop)
    (hanswer : ∀ s c, invariant s → P.allowed (view s) c → condition s c →
      P.answers (view s) c (answer s c).2 (view (answer s c).1) ∧ invariant (answer s c).1)
    (n : ℕ) (h : P.Ensures post p (view s)) (hs : invariant s) (halong : p.AlongFor answer condition n s) :
    invariant (p.runFor answer n s).1 ∧
      ∀ result, (p.runFor answer n s).2 = some result → post result (view (p.runFor answer n s).1) := by
  induction p generalizing s n with
  | done value =>
    refine ⟨by cases n <;> exact hs, fun result hresult => ?_⟩
    cases n <;> cases hresult <;> exact h
  | raise error =>
    refine ⟨by cases n <;> exact hs, fun result hresult => ?_⟩
    cases n <;> cases hresult <;> exact h
  | await c next ih =>
    cases n with
    | zero => exact ⟨hs, fun result hresult => by cases hresult⟩
    | succ n =>
      have hreply := hanswer s c hs h.1 halong.1
      exact ih _ n (h.2 _ _ hreply.1) hreply.2 halong.2

end Run

end Protocol

end FleetWorkflow.Async
