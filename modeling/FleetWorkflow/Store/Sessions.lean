import FleetWorkflow.Async.Prog

/-!
# Database sessions

Requests to a database, each in a session of its own. What a request writes is seen by its own statements at once and by
other requests when it is committed; a request that ends without a commit leaves nothing behind. Any statement can fail,
before it has an effect or after it.
-/

namespace FleetWorkflow.Store

open Async

/-- How a statement fails: it is refused, or it has its effect and this is not reported. -/
inductive Fault (E : Type) where
  | refused (error : E)
  | unreported (error : E)

/-- The error that is raised. -/
def Fault.error {E : Type} : Fault E → E
  | refused error => error
  | unreported error => error

/-- A statement whose outcome is known, and what a fault makes of it. -/
def faulty {E σ α : Type} (fault : Option (Fault E)) (s : σ) (executed : Except E (σ × α)) : σ × Except E α :=
  match fault, executed with
  | some (.refused error), _ => (s, .error error)
  | _, .error error => (s, .error error)
  | some (.unreported error), .ok (s', _) => (s', .error error)
  | none, .ok (s', value) => (s', .ok value)

/-- A statement has no effect and fails, or it has its effect and is reported or not. -/
theorem faulty_cases {E σ α : Type} (fault : Option (Fault E)) (s : σ) (executed : Except E (σ × α)) :
    (∃ error, faulty fault s executed = (s, .error error)) ∨
      ∃ s' value reply, executed = .ok (s', value) ∧ faulty fault s executed = (s', reply) ∧
        ∀ value', reply = .ok value' → value' = value := by
  unfold faulty
  split
  · exact .inl ⟨_, rfl⟩
  · exact .inl ⟨_, rfl⟩
  · exact .inr ⟨_, _, _, rfl, rfl, fun value' hvalue => by cases hvalue⟩
  · exact .inr ⟨_, _, _, rfl, rfl, fun value' hvalue => (Except.ok.inj hvalue).symm⟩

/-- What a statement keeps is kept when it fails too. -/
theorem faulty_keeps {E σ α : Type} {s : σ} {executed : Except E (σ × α)} (fault : Option (Fault E)) (keeps : σ → Prop)
    (hs : keeps s) (h : ∀ s' value, executed = .ok (s', value) → keeps s') : keeps (faulty fault s executed).1 := by
  rcases faulty_cases fault s executed with ⟨error, hfaulty⟩ | ⟨s', value, reply, hexecuted, hfaulty, -⟩
  · rwa [hfaulty]
  · rw [hfaulty]
    exact h s' value hexecuted

/-- A state that is committed, the state as a session sees it, and how many statements the session has made. -/
structure Transaction (σ : Type) where
  committed : σ
  pending : σ
  statements : ℕ

namespace Transaction

variable {σ : Type}

/-- The session of a new request. -/
def start (s : σ) : Transaction σ := ⟨s, s, 0⟩

/-- One more statement, without an effect. -/
def skip (t : Transaction σ) : Transaction σ := { t with statements := t.statements + 1 }

/-- One more statement, with its effect, which may commit it. -/
def move (t : Transaction σ) (s : σ) (commits : Bool) : Transaction σ :=
  ⟨if commits then s else t.committed, s, t.statements + 1⟩

end Transaction

/-- What a statement makes of the state that its session sees, and which statements commit. -/
structure Database (C : Type) (R : C → Type) (E σ : Type) where
  execute : σ → (c : C) → Except E (σ × R c)
  commits : C → Bool

namespace Database

variable {C : Type} {R : C → Type} {E σ α : Type} (db : Database C R E σ) (fault : ℕ → Option (Fault E))

/-- Answer one statement. -/
def answer (t : Transaction σ) (c : C) : Transaction σ × Except E (R c) :=
  faulty (fault t.statements) t.skip
    ((db.execute t.pending c).map fun executed => (t.move executed.1 (db.commits c), executed.2))

/-- The state after a request. -/
def serve (p : Prog C R E α) (s : σ) : σ := (p.run (db.answer fault) (.start s)).1.committed

/-- Statements are answered by the database, whichever of them fail. -/
def protocol : Protocol C R E (Transaction σ) where
  allowed _ _ := True
  answers t c reply t' := ∃ fault, db.answer fault t c = (t', reply)

variable {db fault} {t t' : Transaction σ} {c : C} {reply : Except E (R c)} {p : Prog C R E α} {s : σ}

/-- A statement has no effect and fails, or it has its effect and is reported or not. -/
theorem answers_cases (h : db.protocol.answers t c reply t') :
    (∃ error, reply = .error error ∧ t' = t.skip) ∨
      ∃ s value, db.execute t.pending c = .ok (s, value) ∧ t' = t.move s (db.commits c) ∧
        ∀ value', reply = .ok value' → value' = value := by
  obtain ⟨fault, hanswer⟩ := h
  rw [answer] at hanswer
  rcases faulty_cases (fault t.statements) t.skip ((db.execute t.pending c).map fun executed =>
    (t.move executed.1 (db.commits c), executed.2)) with ⟨error, hfaulty⟩ | ⟨t'', value, reply', hexecuted, hfaulty, hreply⟩
  · rw [hfaulty] at hanswer
    cases hanswer
    exact .inl ⟨error, rfl, rfl⟩
  · rw [hfaulty] at hanswer
    cases hanswer
    cases hexecute : db.execute t.pending c with
    | error error =>
      rw [hexecute] at hexecuted
      cases hexecuted
    | ok executed =>
      rw [hexecute] at hexecuted
      cases hexecuted
      exact .inr ⟨executed.1, executed.2, rfl, rfl, hreply⟩

/-- The rule of one statement: it fails without an effect, or it has its effect and what comes after it is ensured. -/
theorem ensures_statement {β : Type} {f : R c → Prog C R E β} {post : Except E β → Transaction σ → Prop}
    (hfailed : ∀ error, post (.error error) t.skip)
    (hdone : ∀ s value, db.execute t.pending c = .ok (s, value) →
      (∀ error, post (.error error) (t.move s (db.commits c))) ∧
        db.protocol.Ensures post (f value) (t.move s (db.commits c))) :
    db.protocol.Ensures post (Prog.call c >>= f) t := by
  refine ⟨trivial, fun reply t' hanswer => ?_⟩
  rcases answers_cases hanswer with ⟨error, rfl, rfl⟩ | ⟨s, value, hexecute, rfl, hreply⟩
  · exact hfailed error
  · obtain ⟨hlost, hnext⟩ := hdone s value hexecute
    cases reply with
    | error error => exact hlost error
    | ok value' =>
      obtain rfl := hreply value' rfl
      exact hnext

/-- The rule of the last statement. -/
theorem ensures_last {post : Except E (R c) → Transaction σ → Prop} (hfailed : ∀ error, post (.error error) t.skip)
    (hdone : ∀ s value, db.execute t.pending c = .ok (s, value) →
      (∀ error, post (.error error) (t.move s (db.commits c))) ∧ post (.ok value) (t.move s (db.commits c))) :
    db.protocol.Ensures post (Prog.call c) t :=
  Protocol.ensures_call.mpr ⟨trivial, fun reply t' hanswer => by
    rcases answers_cases hanswer with ⟨error, rfl, rfl⟩ | ⟨s, value, hexecute, rfl, hreply⟩
    · exact hfailed error
    · obtain ⟨hlost, hnext⟩ := hdone s value hexecute
      cases reply with
      | error error => exact hlost error
      | ok value' =>
        obtain rfl := hreply value' rfl
        exact hnext⟩

/-- What is ensured of a request holds of its result and of the session that it leaves. -/
theorem ensures_run {post : Except E α → Transaction σ → Prop} (h : db.protocol.Ensures post p (.start s)) :
    post (p.run (db.answer fault) (.start s)).2 (p.run (db.answer fault) (.start s)).1 := by
  have hanswer (t : Transaction σ) (c : C) : db.protocol.answers t c (db.answer fault t c).2 (db.answer fault t c).1 :=
    ⟨fault, rfl⟩
  exact (h.run id (fun _ => True) (fun t c _ _ => ⟨hanswer t c, trivial⟩) trivial).1

/-- What the statements of a request keep, the request keeps. -/
theorem serve_keeps {calls : C → Prop} {invariant : σ → Prop} (hp : p.Only calls)
    (hkeeps : ∀ s c s' value, calls c → invariant s → db.execute s c = .ok (s', value) → invariant s')
    (hs : invariant s) : invariant (db.serve fault p s) := by
  have hboth : db.protocol.Ensures (fun _ t => invariant t.committed ∧ invariant t.pending) p (.start s) := by
    apply Protocol.ensures_only hp
    · intro t c ht hc
      refine ⟨trivial, fun reply t' hanswer => ?_⟩
      rcases answers_cases hanswer with ⟨_, -, rfl⟩ | ⟨s', value, hexecute, rfl, -⟩
      · exact ht
      · have hs' : invariant s' := hkeeps _ _ _ _ hc ht.2 hexecute
        refine ⟨?_, hs'⟩
        rw [Transaction.move]
        split
        · exact hs'
        · exact ht.1
    · exact ⟨hs, hs⟩
  exact (ensures_run hboth).1

end Database

end FleetWorkflow.Store
