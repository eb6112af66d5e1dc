import FleetWorkflow.Async.Runs

/-!
# Simulations between protocols

One protocol follows another on some calls when related states stay related: what the other allows it allows, and what it
answers the other could have answered. What a coroutine ensures in the protocol that is followed, it ensures in the one
that follows. A history is what happened, as the state of a protocol.
-/

namespace FleetWorkflow.Async.Protocol

variable {C : Type} {R : C → Type} {E : Type} {γ δ : Type} {α : Type}

/-- On the given calls, related states stay related: `Q` allows what `P` allows, and its answers are answers of `P`. -/
structure Follows (Q : Protocol C R E δ) (P : Protocol C R E γ) (calls : C → Prop) (rel : δ → γ → Prop) : Prop where
  allowed : ∀ d g c, rel d g → calls c → P.allowed g c → Q.allowed d c
  answers : ∀ d g c reply d', rel d g → calls c → Q.answers d c reply d' → ∃ g', P.answers g c reply g' ∧ rel d' g'

variable {P : Protocol C R E γ} {Q : Protocol C R E δ} {calls : C → Prop} {rel : δ → γ → Prop}
  {post : Except E α → γ → Prop} {p : Prog C R E α} {g : γ} {d : δ}

/-- What is ensured in the protocol that is followed is ensured in the one that follows. -/
theorem Ensures.follow (hfollows : Q.Follows P calls rel) (hp : p.Only calls) (h : P.Ensures post p g)
    (hrel : rel d g) : Q.Ensures (fun result d' => ∃ g', post result g' ∧ rel d' g') p d := by
  induction p generalizing g d with
  | done value => exact ⟨g, h, hrel⟩
  | raise error => exact ⟨g, h, hrel⟩
  | await c next ih =>
    refine ⟨hfollows.allowed d g c hrel hp.1 h.1, ?_⟩
    intro reply d' hreply
    obtain ⟨g', hanswer, hrel'⟩ := hfollows.answers d g c reply d' hrel hp.1 hreply
    exact ih reply (hp.2 reply) (h.2 reply g' hanswer) hrel'

/-- What every allowed call of a kind keeps, a coroutine keeps that makes allowed calls of that kind. -/
theorem Ensures.keeps_allowed {invariant : γ → Prop} (h : P.Ensures post p g) (hp : p.Only calls)
    (hkeeps : ∀ g c reply g', invariant g → calls c → P.allowed g c → P.answers g c reply g' → invariant g')
    (hg : invariant g) : P.Ensures (fun result g' => post result g' ∧ invariant g') p g := by
  induction p generalizing g with
  | done value => exact ⟨h, hg⟩
  | raise error => exact ⟨h, hg⟩
  | await c next ih =>
    refine ⟨h.1, ?_⟩
    intro reply g' hreply
    exact ih reply (h.2 reply g' hreply) (hp.2 reply) (hkeeps g c reply g' hg hp.1 h.1 hreply)

/-! ## Histories -/

/-- The protocol whose state is all that has happened, which decides what is allowed. -/
def history (allowed : List (Event C R E) → C → Prop) : Protocol C R E (List (Event C R E)) where
  allowed := allowed
  answers seen c reply seen' := seen' = seen ++ [⟨c, reply⟩]

variable {β : Type} {allowed : List (Event C R E) → C → Prop} {seen : List (Event C R E)}

/-- The rule of one call at the start of a sequence, where nothing is asked of errors. -/
theorem ensures_history_bind {c : C} {f : R c → Prog C R E β} (hallowed : allowed seen c)
    (hnext : ∀ value, (history allowed).Ensures (fun _ _ => True) (f value) (seen ++ [⟨c, .ok value⟩])) :
    (history allowed).Ensures (fun _ _ => True) (Prog.call c >>= f) seen := by
  refine ensures_call_bind hallowed ?_
  rintro reply _ rfl
  cases reply with
  | error error => trivial
  | ok value => exact hnext value

/-- The rule of the last call, where nothing is asked. -/
theorem ensures_history_call {c : C} (hallowed : allowed seen c) :
    (history allowed).Ensures (fun _ _ => True) (Prog.call c) seen :=
  ensures_call.mpr ⟨hallowed, fun _ _ _ => trivial⟩

/-- The rule of a coroutine whose calls are allowed after every beginning of a run: it leaves its run in the history. -/
theorem ensures_history_runs {before : List (Event C R E)} (hp : p.Only calls)
    (hallowed : ∀ path c, (∀ event ∈ path, calls event.call) → calls c → allowed (before ++ path) c) :
    (history allowed).Ensures (fun result seen' => ∃ path, seen' = before ++ path ∧ p.Runs path result) p before := by
  induction p generalizing before with
  | done value => exact ⟨[], (List.append_nil _).symm, .done value⟩
  | raise error => exact ⟨[], (List.append_nil _).symm, .raise error⟩
  | await c next ih =>
    have hfirst := hallowed [] c (fun event hevent => by cases hevent) hp.1
    rw [List.append_nil] at hfirst
    refine ⟨hfirst, ?_⟩
    rintro reply _ rfl
    apply (ih reply (hp.2 reply) fun path c' hpath hc' => ?_).mono
    · rintro result _ ⟨path, rfl, hruns⟩
      exact ⟨⟨c, reply⟩ :: path, by rw [List.append_assoc, List.singleton_append], .await hruns⟩
    · rw [List.append_assoc, List.singleton_append]
      exact hallowed _ c' (List.forall_mem_cons.mpr ⟨hp.1, hpath⟩) hc'

/-- The rule of calls that are made as calls of another kind: what is allowed of them is allowed of what they are made as,
and its answers are answers to them. -/
theorem Ensures.embed {C' : Type} {R' : C' → Type} {Q : Protocol C' R' E γ} {wrap : C → C'} {unwrap : ∀ c, R' (wrap c) → R c}
    (hallowed : ∀ g c, P.allowed g c → Q.allowed g (wrap c))
    (hanswers : ∀ g c reply g', Q.answers g (wrap c) reply g' → P.answers g c (reply.map (unwrap c)) g')
    (h : P.Ensures post p g) : Q.Ensures post (p.embed wrap unwrap) g := by
  induction p generalizing g with
  | done value => exact h
  | raise error => exact h
  | await c next ih =>
    refine ⟨hallowed g c h.1, fun reply g' hreply => ?_⟩
    exact ih _ (h.2 _ g' (hanswers g c reply g' hreply))

end FleetWorkflow.Async.Protocol
