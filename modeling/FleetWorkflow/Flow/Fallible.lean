import Mathlib.Data.List.Forall2

/-!
# Loops that may fail

What a successful `bind` or `mapM` in `Except` says about its steps, and when such a loop succeeds.
-/

namespace FleetWorkflow.Flow

variable {ε α β : Type}

/-- A sequence succeeds when both of its parts do. -/
theorem bind_eq_ok {x : Except ε α} {f : α → Except ε β} {b : β} :
    x >>= f = .ok b ↔ ∃ a, x = .ok a ∧ f a = .ok b := by
  cases x <;> simp [bind, Except.bind]

/-- A mapped computation succeeds when the computation does. -/
theorem map_eq_ok {x : Except ε α} {f : α → β} {b : β} : x.map f = .ok b ↔ ∃ a, x = .ok a ∧ f a = b := by
  cases x <;> simp [Except.map]

/-- What follows a value. -/
theorem ok_bind (a : α) (f : α → Except ε β) : (Except.ok a).bind f = f a := rfl

/-- The steps of a sequence are mapped like the sequence. -/
theorem bind_map {γ : Type} (x : Except ε α) (f : α → Except ε β) (g : β → γ) :
    (x.bind fun a => (f a).map g) = (x.bind f).map g := by
  cases x <;> rfl

/-- A guarded value is there when the guard does not fire. -/
theorem guard_eq_ok {p : Prop} [Decidable p] {e : ε} {a b : α} :
    (if p then .error e else .ok a : Except ε α) = .ok b ↔ ¬p ∧ b = a := by
  by_cases hp : p <;> simp [hp, eq_comm]

/-- A computation raises one error only. -/
def RaisesOnly (e : ε) (x : Except ε α) : Prop := ∀ error, x = .error error → error = e

/-- A sequence raises one error only when both of its parts do. -/
theorem RaisesOnly.bind {e : ε} {x : Except ε α} {f : α → Except ε β} (hx : RaisesOnly e x)
    (hf : ∀ a, RaisesOnly e (f a)) : RaisesOnly e (x >>= f) := by
  cases x with
  | ok a => exact hf a
  | error error => exact fun error' h => hx error' (congrArg _ (Except.error.inj h))

/-- A mapped computation raises what the computation does. -/
theorem RaisesOnly.map {e : ε} {x : Except ε α} (hx : RaisesOnly e x) (f : α → β) : RaisesOnly e (x.map f) := by
  cases x with
  | ok a => exact fun _ h => by cases h
  | error error => exact fun error' h => hx error' (congrArg _ (Except.error.inj h))

/-- A value raises nothing. -/
theorem raisesOnly_ok {e : ε} {a : α} : RaisesOnly e (.ok a : Except ε α) := fun _ h => by cases h

/-- A raised error is raised. -/
theorem raisesOnly_error {e : ε} : RaisesOnly e (.error e : Except ε α) := fun _ h => (Except.error.inj h).symm

/-- A loop raises one error only when its body does. -/
theorem RaisesOnly.foldlM {σ : Type} {e : ε} {f : σ → α → Except ε σ} (hf : ∀ s a, RaisesOnly e (f s a)) (xs : List α) (s : σ) :
    RaisesOnly e (xs.foldlM f s) := by
  induction xs generalizing s with
  | nil => exact raisesOnly_ok
  | cons x rest ih =>
    rw [List.foldlM_cons]
    exact (hf s x).bind ih

/-- A mapping loop succeeds on a list when its body does on every element. -/
theorem mapM_ok (f : α → Except ε β) (xs : List α) (h : ∀ x ∈ xs, ∃ y, f x = .ok y) :
    ∃ ys, xs.mapM f = .ok ys := by
  induction xs with
  | nil => exact ⟨[], rfl⟩
  | cons x rest ih =>
    obtain ⟨y, hy⟩ := h x List.mem_cons_self
    obtain ⟨ys, hys⟩ := ih fun x' hx' => h x' (List.mem_cons_of_mem _ hx')
    exact ⟨y :: ys, by rw [List.mapM_cons, hy, hys]; rfl⟩

/-- A successful mapping loop pairs each element with its result, in order. -/
theorem forall₂_of_mapM {f : α → Except ε β} {xs : List α} {ys : List β} (h : xs.mapM f = .ok ys) :
    List.Forall₂ (fun x y => f x = .ok y) xs ys := by
  induction xs generalizing ys with
  | nil =>
    cases h
    exact .nil
  | cons x rest ih =>
    rw [List.mapM_cons, bind_eq_ok] at h
    obtain ⟨first, hfirst, h⟩ := h
    obtain ⟨others, hothers, h⟩ := bind_eq_ok.mp h
    cases h
    exact .cons hfirst (ih hothers)

/-- A mapping loop has the results of a function exactly when its body has on every element. -/
theorem mapM_eq_map_iff {f : α → Except ε β} {g : α → β} {xs : List α} :
    xs.mapM f = .ok (xs.map g) ↔ ∀ x ∈ xs, f x = .ok (g x) := by
  induction xs with
  | nil => simp [pure, Except.pure]
  | cons x rest ih =>
    rw [List.forall_mem_cons, ← ih, List.mapM_cons, List.map_cons, bind_eq_ok]
    constructor
    · rintro ⟨first, hfirst, h⟩
      obtain ⟨others, hothers, heq⟩ := bind_eq_ok.mp h
      cases heq
      exact ⟨hfirst, hothers⟩
    · rintro ⟨hfirst, hrest⟩
      exact ⟨g x, hfirst, bind_eq_ok.mpr ⟨rest.map g, hrest, rfl⟩⟩

/-- Paired lists agree on what the pairs agree on. -/
theorem map_eq_of_forall₂ {γ : Type} {r : α → β → Prop} {xs : List α} {ys : List β} {k : α → γ} {g : β → γ}
    (h : List.Forall₂ r xs ys) (hg : ∀ x y, r x y → g y = k x) : ys.map g = xs.map k := by
  induction h with
  | nil => rfl
  | cons hfirst _ ih => rw [List.map_cons, List.map_cons, hg _ _ hfirst, ih]

/-- Every element of the second list is paired. -/
theorem exists_of_forall₂ {r : α → β → Prop} {xs : List α} {ys : List β} (h : List.Forall₂ r xs ys) {y : β}
    (hy : y ∈ ys) : ∃ x ∈ xs, r x y := by
  induction h with
  | nil => cases hy
  | cons hfirst _ ih =>
    rcases List.mem_cons.mp hy with rfl | hy
    · exact ⟨_, List.mem_cons_self, hfirst⟩
    · obtain ⟨x, hx, hr⟩ := ih hy
      exact ⟨x, List.mem_cons_of_mem _ hx, hr⟩

/-- Every result of a successful mapping loop comes from some element. -/
theorem of_mem_mapM {f : α → Except ε β} {xs : List α} {ys : List β}
    (h : xs.mapM f = .ok ys) {y : β} (hy : y ∈ ys) : ∃ x ∈ xs, f x = .ok y :=
  exists_of_forall₂ (forall₂_of_mapM h) hy

/-- Every element of a successful mapping loop has a result. -/
theorem mem_mapM {f : α → Except ε β} {xs : List α} {ys : List β} (h : xs.mapM f = .ok ys) {x : α}
    (hx : x ∈ xs) : ∃ y ∈ ys, f x = .ok y :=
  exists_of_forall₂ (forall₂_of_mapM h).flip hx

/-- A successful loop without results has succeeded on every element. -/
theorem of_forM {f : α → Except ε PUnit} {xs : List α} (h : xs.forM f = .ok ()) {x : α} (hx : x ∈ xs) :
    f x = .ok () := by
  induction xs with
  | nil => cases hx
  | cons first rest ih =>
    obtain ⟨⟨⟩, hfirst, hrest⟩ := bind_eq_ok.mp h
    rcases List.mem_cons.mp hx with rfl | hx
    · exact hfirst
    · exact ih hrest hx

/-- A loop without results succeeds when its body does on every element. -/
theorem forM_eq_ok_iff {f : α → Except ε PUnit} {xs : List α} : xs.forM f = .ok () ↔ ∀ x ∈ xs, f x = .ok () := by
  constructor
  · intro h x hx
    exact of_forM h hx
  · intro h
    induction xs with
    | nil => rfl
    | cons first rest ih =>
      rw [List.forall_mem_cons] at h
      exact bind_eq_ok.mpr ⟨(), h.1, ih h.2⟩

/-- What every round of a loop preserves holds after a successful loop. -/
theorem foldlM_invariant {σ : Type} {f : σ → α → Except ε σ} {xs : List α} {s s' : σ} {p : σ → Prop}
    (hstep : ∀ s x s', x ∈ xs → p s → f s x = .ok s' → p s') (hs : p s) (h : xs.foldlM f s = .ok s') :
    p s' := by
  induction xs generalizing s with
  | nil =>
    cases h
    exact hs
  | cons x rest ih =>
    rw [List.foldlM_cons, bind_eq_ok] at h
    obtain ⟨next, hnext, h⟩ := h
    exact ih (fun s x s' hx => hstep s x s' (List.mem_cons_of_mem _ hx))
      (hstep s x next List.mem_cons_self hs hnext) h

end FleetWorkflow.Flow
