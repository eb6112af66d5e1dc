import FleetWorkflow.Async.Prog

/-!
# Traces of coroutines

A coroutine whose calls all return leaves a trace: the calls it made with the values they returned,
in order, and how it ended. Nothing is said about who chose the values.
-/

namespace FleetWorkflow.Async

/-- A call and the value that it returned. -/
abbrev Served (C : Type) (R : C → Type) := (c : C) × R c

namespace Prog

variable {C : Type} {R : C → Type} {E : Type} {α β : Type}

/-- A coroutine goes along a trace to its result. -/
inductive Goes : Prog C R E α → List (Served C R) → Except E α → Prop
  | done (value : α) : Goes (done value) [] (.ok value)
  | raise (error : E) : Goes (raise error) [] (.error error)
  | await {c : C} {next : Except E (R c) → Prog C R E α} {value : R c} {trace : List (Served C R)}
      {result : Except E α} (h : Goes (next (.ok value)) trace result) : Goes (await c next) (⟨c, value⟩ :: trace) result

variable {trace : List (Served C R)} {result : Except E α}

/-- A value ends the trace. -/
@[simp] theorem goes_done {value : α} :
    (done value : Prog C R E α).Goes trace result ↔ trace = [] ∧ result = .ok value := by
  constructor
  · intro h
    cases h
    exact ⟨rfl, rfl⟩
  · rintro ⟨rfl, rfl⟩
    exact .done value

/-- An exception ends the trace. -/
@[simp] theorem goes_raise {error : E} :
    (raise error : Prog C R E α).Goes trace result ↔ trace = [] ∧ result = .error error := by
  constructor
  · intro h
    cases h
    exact ⟨rfl, rfl⟩
  · rintro ⟨rfl, rfl⟩
    exact .raise error

/-- An awaited call starts the trace. -/
@[simp] theorem goes_await {c : C} {next : Except E (R c) → Prog C R E α} :
    (await c next).Goes trace result ↔
      ∃ value rest, trace = ⟨c, value⟩ :: rest ∧ (next (.ok value)).Goes rest result := by
  constructor
  · intro h
    cases h with
    | await h => exact ⟨_, _, rfl, h⟩
  · rintro ⟨value, rest, rfl, h⟩
    exact .await h

/-- A call at the start of a sequence. -/
@[simp] theorem goes_call_bind {c : C} {f : R c → Prog C R E α} :
    (call c >>= f).Goes trace result ↔
      ∃ value rest, trace = ⟨c, value⟩ :: rest ∧ (f value).Goes rest result :=
  goes_await

/-- The parts of a sequence. -/
theorem goes_bind {p : Prog C R E α} {f : α → Prog C R E β} {result : Except E β} :
    (p >>= f).Goes trace result ↔
      (∃ before after value, trace = before ++ after ∧ p.Goes before (.ok value) ∧ (f value).Goes after result) ∨
        ∃ error, p.Goes trace (.error error) ∧ result = .error error := by
  induction p generalizing trace with
  | done value =>
    constructor
    · intro h
      exact .inl ⟨[], trace, value, rfl, .done value, h⟩
    · rintro (⟨before, after, other, rfl, hp, h⟩ | ⟨error, hp, rfl⟩)
      · cases hp
        exact h
      · cases hp
  | raise error =>
    constructor
    · intro h
      cases h
      exact .inr ⟨error, .raise error, rfl⟩
    · rintro (⟨before, after, other, rfl, hp, h⟩ | ⟨other, hp, rfl⟩)
      · cases hp
      · cases hp
        exact .raise error
  | await c next ih =>
    rw [await_bind, goes_await]
    constructor
    · rintro ⟨value, rest, rfl, h⟩
      rcases (ih _).mp h with ⟨before, after, other, rfl, hp, h⟩ | ⟨error, hp, rfl⟩
      · exact .inl ⟨⟨c, value⟩ :: before, after, other, rfl, .await hp, h⟩
      · exact .inr ⟨error, .await hp, rfl⟩
    · rintro (⟨before, after, other, rfl, hp, h⟩ | ⟨error, hp, rfl⟩)
      · cases hp with
        | await hp => exact ⟨_, _, rfl, (ih _).mpr (.inl ⟨_, _, _, rfl, hp, h⟩)⟩
      · cases hp with
        | await hp => exact ⟨_, _, rfl, (ih _).mpr (.inr ⟨_, hp, rfl⟩)⟩

/-- A coroutine that makes calls of one kind only leaves calls of that kind in its trace. -/
theorem Only.goes {calls : C → Prop} {p : Prog C R E α} (hp : Only calls p) (h : p.Goes trace result) :
    ∀ served ∈ trace, calls served.1 := by
  induction h with
  | done value => exact fun served hserved => by cases hserved
  | raise error => exact fun served hserved => by cases hserved
  | await _ ih =>
    intro served hserved
    rcases List.mem_cons.mp hserved with rfl | hserved
    · exact hp.1
    · exact ih (hp.2 _) served hserved

/-! ## Restricted replies -/

/-- When every reply is a possible one, a coroutine makes calls of one kind only. -/
def OnlyGiven (possible : (c : C) → Except E (R c) → Prop) (calls : C → Prop) : Prog C R E α → Prop
  | done _ => True
  | raise _ => True
  | await c next => calls c ∧ ∀ reply, possible c reply → OnlyGiven possible calls (next reply)

variable {possible : (c : C) → Except E (R c) → Prop} {calls : C → Prop}

/-- Fewer possible replies lead to fewer calls. -/
theorem Only.given {p : Prog C R E α} (hp : Only calls p) : OnlyGiven possible calls p := by
  induction p with
  | done value => trivial
  | raise error => trivial
  | await c next ih => exact ⟨hp.1, fun reply _ => ih reply (hp.2 reply)⟩

/-- The calls of a sequence whose first part is one call. -/
theorem onlyGiven_call_bind {c : C} {f : R c → Prog C R E α} :
    OnlyGiven possible calls (call c >>= f) ↔
      calls c ∧ ∀ value, possible c (.ok value) → OnlyGiven possible calls (f value) := by
  constructor
  · intro h
    exact ⟨h.1, fun value hvalue => h.2 (.ok value) hvalue⟩
  · intro h
    refine ⟨h.1, fun reply hreply => ?_⟩
    cases reply with
    | ok value => exact h.2 value hreply
    | error error => trivial

/-- The first call of a sequence. -/
theorem OnlyGiven.first {c : C} {f : R c → Prog C R E α} (h : OnlyGiven possible calls (call c >>= f)) : calls c :=
  h.1

/-- What follows a possible reply. -/
theorem OnlyGiven.next {c : C} {f : R c → Prog C R E α} (h : OnlyGiven possible calls (call c >>= f)) (value : R c)
    (hvalue : possible c (.ok value)) : OnlyGiven possible calls (f value) :=
  h.2 (.ok value) hvalue

/-- The calls of the first part of a sequence. -/
theorem OnlyGiven.of_bind {p : Prog C R E α} {f : α → Prog C R E β} (h : OnlyGiven possible calls (p >>= f)) :
    OnlyGiven possible calls p := by
  induction p with
  | done value => trivial
  | raise error => trivial
  | await c next ih => exact ⟨h.1, fun reply hreply => ih reply (h.2 reply hreply)⟩

/-- Returning makes no further call. -/
theorem OnlyGiven.bind_pure {p : Prog C R E α} {f : α → β} (h : OnlyGiven possible calls p) :
    OnlyGiven possible calls (p >>= fun value => (pure (f value) : Prog C R E β)) := by
  induction p with
  | done value => trivial
  | raise error => trivial
  | await c next ih => exact ⟨h.1, fun reply hreply => ih reply (h.2 reply hreply)⟩

/-- Catching exceptions makes the same calls. -/
theorem onlyGiven_attempt {p : Prog C R E α} :
    OnlyGiven possible calls p.attempt ↔ OnlyGiven possible calls p := by
  induction p with
  | done value => exact Iff.rfl
  | raise error => exact Iff.rfl
  | await c next ih => exact and_congr_right fun _ => forall_congr' fun reply => imp_congr_right fun _ => ih reply

/-- When every reply is a possible one, a coroutine makes calls of one kind only, and what it returns meets a
condition. -/
def Yields (possible : (c : C) → Except E (R c) → Prop) (calls : C → Prop) (post : α → Prop) : Prog C R E α → Prop
  | done value => post value
  | raise _ => True
  | await c next => calls c ∧ ∀ reply, possible c reply → Yields possible calls post (next reply)

/-- A returned value meets the condition. -/
theorem yields_pure {post : α → Prop} {value : α} (h : post value) :
    Yields possible calls post (pure value : Prog C R E α) := h

/-- One call. -/
theorem yields_call {c : C} {post : R c → Prop} (hcall : calls c)
    (hpost : ∀ value, possible c (.ok value) → post value) :
    Yields possible calls post (call c : Prog C R E (R c)) := by
  refine ⟨hcall, fun reply hreply => ?_⟩
  cases reply with
  | ok value => exact hpost value hreply
  | error error => trivial

/-- A lifted computation. -/
theorem yields_ofExcept {computed : Except E α} {post : α → Prop} (h : ∀ value, computed = .ok value → post value) :
    Yields possible calls post (ofExcept computed : Prog C R E α) := by
  cases computed with
  | ok value => exact h value rfl
  | error error => trivial

/-- A sequence. -/
theorem Yields.bind {p : Prog C R E α} {f : α → Prog C R E β} {mid : α → Prop} {post : β → Prop}
    (hp : Yields possible calls mid p) (hf : ∀ value, mid value → Yields possible calls post (f value)) :
    Yields possible calls post (p >>= f) := by
  induction p with
  | done value => exact hf value hp
  | raise error => trivial
  | await c next ih => exact ⟨hp.1, fun reply hreply => ih reply (hp.2 reply hreply)⟩

/-- A sequence whose second part makes calls of one kind, whatever the first part returns. -/
theorem Yields.onlyGiven_bind {p : Prog C R E α} {f : α → Prog C R E β} {mid : α → Prop}
    (hp : Yields possible calls mid p) (hf : ∀ value, mid value → OnlyGiven possible calls (f value)) :
    OnlyGiven possible calls (p >>= f) := by
  induction p with
  | done value => exact hf value hp
  | raise error => trivial
  | await c next ih => exact ⟨hp.1, fun reply hreply => ih reply (hp.2 reply hreply)⟩

/-- Nothing is asked of what is returned. -/
theorem OnlyGiven.yields {p : Prog C R E α} (h : OnlyGiven possible calls p) :
    Yields possible calls (fun _ => True) p := by
  induction p with
  | done value => trivial
  | raise error => trivial
  | await c next ih => exact ⟨h.1, fun reply hreply => ih reply (h.2 reply hreply)⟩

end Prog

end FleetWorkflow.Async
