import FleetWorkflow.Async.Prog

/-!
# Runs of coroutines

All that happens while a coroutine runs: the calls that it makes in order, each with its reply, which
may be an exception, and how it ends. Nothing is said about who replies.
-/

namespace FleetWorkflow.Async

namespace Prog

variable {C : Type} {R : C → Type} {E : Type} {α β : Type}

/-- A coroutine makes calls with these replies and ends with a result. -/
inductive Runs : Prog C R E α → List (Event C R E) → Except E α → Prop
  | done (value : α) : Runs (done value) [] (.ok value)
  | raise (error : E) : Runs (raise error) [] (.error error)
  | await {c : C} {next : Except E (R c) → Prog C R E α} {reply : Except E (R c)} {events : List (Event C R E)}
      {result : Except E α} (h : Runs (next reply) events result) : Runs (await c next) (⟨c, reply⟩ :: events) result

variable {events : List (Event C R E)} {result : Except E α}

/-- A value ends the run. -/
@[simp] theorem runs_done {value : α} :
    (done value : Prog C R E α).Runs events result ↔ events = [] ∧ result = .ok value := by
  constructor
  · intro h
    cases h
    exact ⟨rfl, rfl⟩
  · rintro ⟨rfl, rfl⟩
    exact .done value

/-- An exception ends the run. -/
@[simp] theorem runs_raise {error : E} :
    (raise error : Prog C R E α).Runs events result ↔ events = [] ∧ result = .error error := by
  constructor
  · intro h
    cases h
    exact ⟨rfl, rfl⟩
  · rintro ⟨rfl, rfl⟩
    exact .raise error

/-- An awaited call starts the run. -/
theorem runs_await {c : C} {next : Except E (R c) → Prog C R E α} :
    (await c next).Runs events result ↔
      ∃ reply rest, events = ⟨c, reply⟩ :: rest ∧ (next reply).Runs rest result := by
  constructor
  · intro h
    cases h with
    | await h => exact ⟨_, _, rfl, h⟩
  · rintro ⟨reply, rest, rfl, h⟩
    exact .await h

/-- A call at the start of a sequence: its exception ends the run, its value goes on. -/
theorem runs_call_bind {c : C} {f : R c → Prog C R E α} :
    (call c >>= f).Runs events result ↔
      (∃ error, events = [⟨c, .error error⟩] ∧ result = .error error) ∨
        ∃ value rest, events = ⟨c, .ok value⟩ :: rest ∧ (f value).Runs rest result := by
  constructor
  · intro h
    obtain ⟨reply, rest, rfl, hrest⟩ := runs_await.mp h
    cases reply with
    | ok value => exact .inr ⟨value, rest, rfl, hrest⟩
    | error error =>
      obtain ⟨rfl, rfl⟩ := runs_raise.mp hrest
      exact .inl ⟨error, rfl, rfl⟩
  · rintro (⟨error, rfl, rfl⟩ | ⟨value, rest, rfl, h⟩)
    · exact .await (.raise error)
    · exact .await h

/-- The calls of a run are of the kind that the coroutine makes. -/
theorem Only.runs {calls : C → Prop} {p : Prog C R E α} (hp : Only calls p) (h : p.Runs events result) :
    ∀ event ∈ events, calls event.call := by
  induction h with
  | done value => exact fun event hevent => by cases hevent
  | raise error => exact fun event hevent => by cases hevent
  | await _ ih =>
    intro event hevent
    rcases List.mem_cons.mp hevent with rfl | hevent
    · exact hp.1
    · exact ih (hp.2 _) event hevent

/-- The parts of a sequence. -/
theorem runs_bind {p : Prog C R E α} {f : α → Prog C R E β} {result : Except E β} :
    (p >>= f).Runs events result ↔
      (∃ error, p.Runs events (.error error) ∧ result = .error error) ∨
        ∃ before after value, events = before ++ after ∧ p.Runs before (.ok value) ∧ (f value).Runs after result := by
  induction p generalizing events with
  | done value =>
    constructor
    · intro h
      exact .inr ⟨[], events, value, rfl, .done value, h⟩
    · rintro (⟨error, hp, rfl⟩ | ⟨before, after, other, rfl, hp, h⟩)
      · cases hp
      · cases hp
        exact h
  | raise error =>
    constructor
    · intro h
      cases h
      exact .inl ⟨error, .raise error, rfl⟩
    · rintro (⟨other, hp, rfl⟩ | ⟨before, after, other, rfl, hp, h⟩)
      · cases hp
        exact .raise error
      · cases hp
  | await c next ih =>
    rw [await_bind, runs_await]
    constructor
    · rintro ⟨reply, rest, rfl, h⟩
      rcases (ih reply).mp h with ⟨error, hp, rfl⟩ | ⟨before, after, other, rfl, hp, h⟩
      · exact .inl ⟨error, .await hp, rfl⟩
      · exact .inr ⟨⟨c, reply⟩ :: before, after, other, rfl, .await hp, h⟩
    · rintro (⟨error, hp, rfl⟩ | ⟨before, after, other, rfl, hp, h⟩)
      · obtain ⟨reply, rest, rfl, hnext⟩ := runs_await.mp hp
        exact ⟨reply, rest, rfl, (ih reply).mpr (.inl ⟨error, hnext, rfl⟩)⟩
      · obtain ⟨reply, rest, rfl, hnext⟩ := runs_await.mp hp
        exact ⟨reply, rest ++ after, rfl, (ih reply).mpr (.inr ⟨rest, after, other, rfl, hnext, h⟩)⟩

/-- Catching exceptions makes them part of the value. -/
theorem runs_attempt {p : Prog C R E α} {result : Except E (Except E α)} :
    p.attempt.Runs events result ↔ ∃ outcome, p.Runs events outcome ∧ result = .ok outcome := by
  induction p generalizing events with
  | done value =>
    rw [attempt, runs_done]
    constructor
    · rintro ⟨rfl, rfl⟩
      exact ⟨_, .done value, rfl⟩
    · rintro ⟨outcome, hp, rfl⟩
      cases hp
      exact ⟨rfl, rfl⟩
  | raise error =>
    rw [attempt, runs_done]
    constructor
    · rintro ⟨rfl, rfl⟩
      exact ⟨_, .raise error, rfl⟩
    · rintro ⟨outcome, hp, rfl⟩
      cases hp
      exact ⟨rfl, rfl⟩
  | await c next ih =>
    rw [attempt, runs_await]
    constructor
    · rintro ⟨reply, rest, rfl, h⟩
      obtain ⟨outcome, hp, rfl⟩ := (ih reply).mp h
      exact ⟨outcome, .await hp, rfl⟩
    · rintro ⟨outcome, hp, rfl⟩
      obtain ⟨reply, rest, rfl, hnext⟩ := runs_await.mp hp
      exact ⟨reply, rest, rfl, (ih reply).mpr ⟨outcome, hnext, rfl⟩⟩

/-- What happens determines the run: of two runs of a coroutine that start alike, neither goes on longer. -/
theorem Runs.unique {p : Prog C R E α} {events events' after after' : List (Event C R E)} {result result' : Except E α}
    (h : p.Runs events result) (h' : p.Runs events' result') (heq : events ++ after = events' ++ after') :
    events = events' ∧ result = result' := by
  induction h generalizing events' with
  | done value =>
    obtain ⟨rfl, rfl⟩ := runs_done.mp h'
    exact ⟨rfl, rfl⟩
  | raise error =>
    obtain ⟨rfl, rfl⟩ := runs_raise.mp h'
    exact ⟨rfl, rfl⟩
  | await _ ih =>
    obtain ⟨reply, rest, rfl, hrest⟩ := runs_await.mp h'
    injection heq with hevent htail
    cases hevent
    obtain ⟨rfl, rfl⟩ := ih hrest htail
    exact ⟨rfl, rfl⟩

/-- There is a run in which every call has the reply that is given for it. -/
theorem exists_runs (reply : (c : C) → Except E (R c)) (p : Prog C R E α) :
    ∃ events result, p.Runs events result ∧ ∀ event ∈ events, event.reply = reply event.call := by
  induction p with
  | done value => exact ⟨[], _, .done value, List.forall_mem_nil _⟩
  | raise error => exact ⟨[], _, .raise error, List.forall_mem_nil _⟩
  | await c next ih =>
    obtain ⟨events, result, hruns, hreplies⟩ := ih (reply c)
    exact ⟨⟨c, reply c⟩ :: events, result, .await hruns, List.forall_mem_cons.mpr ⟨rfl, hreplies⟩⟩

/-- A lifted computation is a run without calls. -/
@[simp] theorem runs_ofExcept {computed : Except E α} :
    (ofExcept computed : Prog C R E α).Runs events result ↔ events = [] ∧ result = computed := by
  cases computed with
  | ok value => exact runs_done
  | error error => exact runs_raise

/-- Another exception is raised after the same calls. -/
theorem runs_mapError {f : E → E} {p : Prog C R E α} :
    (p.mapError f).Runs events result ↔ ∃ outcome, p.Runs events outcome ∧ result = outcome.mapError f := by
  rw [mapError, runs_bind]
  constructor
  · rintro (⟨error, hp, rfl⟩ | ⟨before, after, outcome, rfl, hp, hraise⟩)
    · obtain ⟨outcome, _, hnever⟩ := runs_attempt.mp hp
      cases hnever
    · obtain ⟨outcome', hrun, heq⟩ := runs_attempt.mp hp
      cases heq
      obtain ⟨rfl, rfl⟩ := runs_ofExcept.mp hraise
      rw [List.append_nil]
      exact ⟨outcome, hrun, rfl⟩
  · rintro ⟨outcome, hrun, rfl⟩
    refine .inr ⟨events, [], outcome, (List.append_nil events).symm, runs_attempt.mpr ⟨outcome, hrun, rfl⟩, ?_⟩
    exact runs_ofExcept.mpr ⟨rfl, rfl⟩

/-- A lifted computation makes no call. -/
theorem runs_ofExcept_bind {computed : Except E α} {f : α → Prog C R E β} {result : Except E β} :
    (ofExcept computed >>= f).Runs events result ↔
      (∃ error, computed = .error error ∧ events = [] ∧ result = .error error) ∨
        ∃ value, computed = .ok value ∧ (f value).Runs events result := by
  cases computed with
  | ok value => simp [ofExcept]
  | error error => simp [ofExcept]

/-- A call is a run of one event. -/
theorem runs_call {c : C} {result : Except E (R c)} :
    (call c : Prog C R E (R c)).Runs events result ↔ events = [⟨c, result⟩] := by
  constructor
  · intro h
    obtain ⟨reply, rest, rfl, hrest⟩ := runs_await.mp h
    cases reply with
    | ok value =>
      obtain ⟨rfl, rfl⟩ := runs_done.mp hrest
      rfl
    | error error =>
      obtain ⟨rfl, rfl⟩ := runs_raise.mp hrest
      rfl
  · rintro rfl
    apply runs_await.mpr
    refine ⟨result, [], rfl, ?_⟩
    cases result with
    | ok value => exact .done value
    | error error => exact .raise error

/-- A cleanup runs after every outcome. -/
theorem runs_withCleanup {p : Prog C R E α} {cleanup : Prog C R E Unit} :
    (p.withCleanup cleanup).Runs events result ↔ ∃ before after outcome, events = before ++ after ∧
      p.Runs before outcome ∧ ((∃ error, cleanup.Runs after (.error error) ∧ result = .error error) ∨
        (cleanup.Runs after (.ok ()) ∧ result = outcome)) := by
  rw [withCleanup, runs_bind]
  constructor
  · rintro (⟨error, hp, rfl⟩ | ⟨before, after, outcome, rfl, hp, hafter⟩)
    · obtain ⟨outcome, _, hnever⟩ := runs_attempt.mp hp
      cases hnever
    · obtain ⟨outcome', hrun, heq⟩ := runs_attempt.mp hp
      cases heq
      refine ⟨before, after, outcome, rfl, hrun, ?_⟩
      rcases runs_bind.mp hafter with ⟨error, hcleanup, rfl⟩ | ⟨cleaned, rest, ⟨⟩, rfl, hcleanup, hrest⟩
      · exact .inl ⟨error, hcleanup, rfl⟩
      · obtain ⟨rfl, rfl⟩ := runs_ofExcept.mp hrest
        rw [List.append_nil]
        exact .inr ⟨hcleanup, rfl⟩
  · rintro ⟨before, after, outcome, rfl, hp, hcleanup⟩
    refine .inr ⟨before, after, outcome, rfl, runs_attempt.mpr ⟨outcome, hp, rfl⟩, runs_bind.mpr ?_⟩
    rcases hcleanup with ⟨error, hcleanup, rfl⟩ | ⟨hcleanup, rfl⟩
    · exact .inl ⟨error, hcleanup, rfl⟩
    · exact .inr ⟨after, [], (), (List.append_nil after).symm, hcleanup, runs_ofExcept.mpr ⟨rfl, rfl⟩⟩

/-- Handled exceptions are values of the run. -/
theorem runs_handle {p : Prog C R E α} {handler : E → Option α} :
    (p.handle handler).Runs events result ↔ ∃ outcome, p.Runs events outcome ∧
      result = match outcome with
        | .ok value => .ok value
        | .error error =>
          match handler error with
          | some value => .ok value
          | none => .error error := by
  rw [handle, runs_bind]
  constructor
  · rintro (⟨error, hp, rfl⟩ | ⟨before, after, outcome, rfl, hp, hafter⟩)
    · obtain ⟨outcome, _, hnever⟩ := runs_attempt.mp hp
      cases hnever
    · obtain ⟨outcome', hrun, heq⟩ := runs_attempt.mp hp
      cases heq
      cases outcome with
      | ok value =>
        obtain ⟨rfl, rfl⟩ := runs_done.mp hafter
        exact ⟨.ok value, by simpa using hrun, rfl⟩
      | error error =>
        dsimp only at hafter
        cases hhandler : handler error with
        | some value =>
          rw [hhandler] at hafter
          obtain ⟨rfl, rfl⟩ := runs_done.mp hafter
          exact ⟨.error error, by simpa using hrun, by simp [hhandler]⟩
        | none =>
          rw [hhandler] at hafter
          obtain ⟨rfl, rfl⟩ := runs_raise.mp hafter
          exact ⟨.error error, by simpa using hrun, by simp [hhandler]⟩
  · rintro ⟨outcome, hrun, rfl⟩
    refine .inr ⟨events, [], outcome, (List.append_nil events).symm, runs_attempt.mpr ⟨outcome, hrun, rfl⟩, ?_⟩
    cases outcome with
    | ok value => exact .done value
    | error error =>
      dsimp only
      cases handler error with
      | some value => exact .done value
      | none => exact .raise error

/-- A computation on what a coroutine returns. -/
theorem runs_bind_ofExcept {p : Prog C R E α} {f : α → Except E β} {result : Except E β} :
    (p >>= fun value => (ofExcept (f value) : Prog C R E β)).Runs events result ↔
      ∃ outcome, p.Runs events outcome ∧ result = outcome.bind f := by
  rw [runs_bind]
  constructor
  · rintro (⟨error, hp, rfl⟩ | ⟨before, after, value, rfl, hp, hafter⟩)
    · exact ⟨.error error, hp, rfl⟩
    · obtain ⟨rfl, rfl⟩ := runs_ofExcept.mp hafter
      rw [List.append_nil]
      exact ⟨.ok value, hp, rfl⟩
  · rintro ⟨outcome, hp, rfl⟩
    cases outcome with
    | error error => exact .inl ⟨error, hp, rfl⟩
    | ok value => exact .inr ⟨events, [], value, (List.append_nil events).symm, hp, runs_ofExcept.mpr ⟨rfl, rfl⟩⟩

/-! ## Settled runs -/

/-- A coroutine returns exactly when all that happens in its run is settled. -/
def Settles (settled : Event C R E → Prop) (p : Prog C R E α) : Prop :=
  ∀ events result, p.Runs events result → ((∃ value, result = .ok value) ↔ ∀ event ∈ events, settled event)

variable {settled : Event C R E → Prop}

/-- Returning is settled. -/
theorem settles_pure (value : α) : (pure value : Prog C R E α).Settles settled := by
  intro events result h
  obtain ⟨rfl, rfl⟩ := runs_done.mp h
  simp

/-- A call whose reply is settled exactly when it is a value. -/
theorem settles_call {c : C} (h : ∀ reply, settled ⟨c, reply⟩ ↔ ∃ value, reply = .ok value) :
    (call c : Prog C R E (R c)).Settles settled := by
  intro events result hrun
  obtain rfl := runs_call.mp hrun
  simp [h]

/-- A sequence. -/
theorem Settles.bind {p : Prog C R E α} {f : α → Prog C R E β} (hp : p.Settles settled)
    (hf : ∀ value, (f value).Settles settled) : (p >>= f).Settles settled := by
  intro events result h
  rcases runs_bind.mp h with ⟨error, hrun, rfl⟩ | ⟨before, after, value, rfl, hbefore, hafter⟩
  · have hsettled := hp events _ hrun
    simp only [reduceCtorEq, exists_false, false_iff] at hsettled ⊢
    exact hsettled
  · have hsettled := (hp before _ hbefore).mp ⟨value, rfl⟩
    rw [hf value after result hafter]
    simp only [List.mem_append]
    constructor
    · rintro h event (hevent | hevent)
      · exact hsettled event hevent
      · exact h event hevent
    · exact fun h event hevent => h event (.inr hevent)

/-- A coroutine with its cleanup. -/
theorem Settles.withCleanup {p : Prog C R E α} {cleanup : Prog C R E Unit} (hp : p.Settles settled)
    (hcleanup : cleanup.Settles settled) : (p.withCleanup cleanup).Settles settled := by
  intro events result h
  obtain ⟨before, after, outcome, rfl, hbefore, hafter⟩ := runs_withCleanup.mp h
  simp only [List.forall_mem_append]
  rw [← hp before outcome hbefore]
  rcases hafter with ⟨error, hafter, rfl⟩ | ⟨hafter, rfl⟩
  · rw [← hcleanup after _ hafter]
    simp
  · rw [← hcleanup after _ hafter]
    simp

end Prog

/-! ## Runs under a protocol -/

namespace Protocol

variable {C : Type} {R : C → Type} {E : Type} {α : Type}

/-- The protocol whose state is all that has happened: calls of one kind are allowed, and what happens is as assumed. -/
def recording (allowed : C → Prop) (assumed : Event C R E → Prop) : Protocol C R E (List (Event C R E)) where
  allowed _ c := allowed c
  answers seen c reply seen' := assumed ⟨c, reply⟩ ∧ seen' = seen ++ [⟨c, reply⟩]

variable {allowed : C → Prop} {assumed : Event C R E → Prop}

/-- What a coroutine ensures of the record holds of every run in which all that happens is as assumed. -/
theorem Ensures.recorded {post : Except E α → List (Event C R E) → Prop} {p : Prog C R E α}
    {seen events : List (Event C R E)} {result : Except E α} (h : (recording allowed assumed).Ensures post p seen)
    (hrun : p.Runs events result) (hassumed : ∀ event ∈ events, assumed event) :
    (∀ event ∈ events, allowed event.call) ∧ post result (seen ++ events) := by
  induction hrun generalizing seen with
  | done value => simpa using h
  | raise error => simpa using h
  | await hrest ih =>
    obtain ⟨hfirst, hrest⟩ := List.forall_mem_cons.mp hassumed
    have htail := ih (h.2 _ _ ⟨hfirst, rfl⟩) hrest
    rw [List.append_assoc, List.singleton_append] at htail
    exact ⟨List.forall_mem_cons.mpr ⟨h.1, htail.1⟩, htail.2⟩

/-- The record only grows. -/
theorem Ensures.grows {post : Except E α → List (Event C R E) → Prop} {p : Prog C R E α}
    {seen : List (Event C R E)} (h : (recording allowed assumed).Ensures post p seen) :
    (recording allowed assumed).Ensures (fun result seen' => post result seen' ∧ seen <+: seen') p seen := by
  induction p generalizing seen with
  | done value => exact ⟨h, List.prefix_rfl⟩
  | raise error => exact ⟨h, List.prefix_rfl⟩
  | await c next ih =>
    refine ⟨h.1, fun reply seen' hreply => (ih reply (h.2 reply seen' hreply)).mono fun result seen'' hresult => ?_⟩
    obtain ⟨-, rfl⟩ := hreply
    exact ⟨hresult.1, (List.prefix_append seen _).trans hresult.2⟩

end Protocol

end FleetWorkflow.Async
