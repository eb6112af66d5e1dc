import Mathlib.Data.List.Defs

/-!
# Lists cut into pieces

What `List.toChunks` does: the pieces put together are the list, none is empty or longer than asked for, and mapping the
list maps the pieces. A joined list is its first piece and the others with separators, and a list with an exception is cut
at the first one.
-/

namespace FleetWorkflow.Flow

variable {α β : Type} {n : ℕ} {xs piece : List α}

/-- The pieces put together are what was filled and what is left. -/
theorem flatten_go (n : ℕ) (xs : List α) (filling : Array α) (pieces : Array (List α)) :
    (List.toChunks.go n xs filling pieces).flatten = pieces.toList.flatten ++ filling.toList ++ xs := by
  induction xs generalizing filling pieces with
  | nil => simp [List.toChunks.go]
  | cons x xs ih =>
    rw [List.toChunks.go]
    split
    · rw [ih]
      simp
    · rw [ih]
      simp

/-- The pieces of a list put together are the list. -/
theorem flatten_toChunks (n : ℕ) (xs : List α) : (xs.toChunks n).flatten = xs := by
  cases xs with
  | nil => cases n <;> rfl
  | cons x xs =>
    cases n with
    | zero => simp [List.toChunks]
    | succ n =>
      rw [List.toChunks.eq_3 _ _ _ (Nat.succ_ne_zero n), flatten_go]
      rfl

/-- What is in a piece is in the list. -/
theorem mem_of_mem_toChunks (h : piece ∈ xs.toChunks n) {x : α} (hx : x ∈ piece) : x ∈ xs := by
  rw [← flatten_toChunks n xs]
  exact List.mem_flatten_of_mem h hx

/-- A piece that is full is closed before the next element. -/
theorem length_of_mem_go (xs : List α) {filling : Array α} {pieces : Array (List α)}
    (hfilling : 1 ≤ filling.size ∧ filling.size ≤ n) (hpieces : ∀ piece ∈ pieces, 1 ≤ piece.length ∧ piece.length ≤ n) :
    ∀ piece ∈ List.toChunks.go n xs filling pieces, 1 ≤ piece.length ∧ piece.length ≤ n := by
  have hpush : ∀ piece ∈ pieces.push filling.toList, 1 ≤ piece.length ∧ piece.length ≤ n := by
    intro piece hpiece
    rcases Array.mem_push.mp hpiece with hpiece | rfl
    · exact hpieces piece hpiece
    · exact hfilling
  induction xs generalizing filling pieces with
  | nil =>
    intro piece hpiece
    rw [List.toChunks.go, Array.mem_toList_iff] at hpiece
    exact hpush piece hpiece
  | cons x xs ih =>
    rw [List.toChunks.go]
    split
    · have hone : 1 ≤ ((Array.mkEmpty n).push x).size ∧ ((Array.mkEmpty n).push x).size ≤ n := by
        simp
        omega
      apply ih hone hpush
      intro piece hpiece
      rcases Array.mem_push.mp hpiece with hpiece | rfl
      · exact hpush piece hpiece
      · exact hone
    · rename_i hfull
      have hmore : 1 ≤ (filling.push x).size ∧ (filling.push x).size ≤ n := by
        simp at hfull ⊢
        omega
      apply ih hmore hpieces
      intro piece hpiece
      rcases Array.mem_push.mp hpiece with hpiece | rfl
      · exact hpieces piece hpiece
      · exact hmore

/-- No piece is empty, and none is too long. -/
theorem length_of_mem_toChunks (hn : 1 ≤ n) (h : piece ∈ xs.toChunks n) : 1 ≤ piece.length ∧ piece.length ≤ n := by
  cases xs with
  | nil => simp [List.toChunks] at h
  | cons x xs =>
    rw [List.toChunks.eq_3 _ _ _ (Nat.ne_of_gt hn)] at h
    exact length_of_mem_go xs (by simpa using hn) (fun _ h => by simp at h) piece h

/-- The pieces of a mapped list are the mapped pieces. -/
theorem toChunks_map (f : α → β) (n : ℕ) (xs : List α) : (xs.map f).toChunks n = (xs.toChunks n).map (List.map f) := by
  have hgo : ∀ (m : ℕ) (xs : List α) (filling : Array α) (pieces : Array (List α)),
      List.toChunks.go m (xs.map f) (filling.map f) (pieces.map (List.map f)) =
        (List.toChunks.go m xs filling pieces).map (List.map f) := by
    intro m xs
    induction xs with
    | nil => intro filling pieces; simp [List.toChunks.go]
    | cons x xs ih =>
      intro filling pieces
      rw [List.map_cons, List.toChunks.go, List.toChunks.go, Array.size_map]
      split
      · rw [← ih]
        simp
      · rw [← ih]
        simp
  cases xs with
  | nil => cases n <;> rfl
  | cons x xs =>
    cases n with
    | zero => rfl
    | succ n =>
      rw [List.map_cons, List.toChunks.eq_3 _ _ _ (Nat.succ_ne_zero n), List.toChunks.eq_3 _ _ _ (Nat.succ_ne_zero n),
        ← hgo]
      simp

/-- Joined lists are the first one, and the others with the separator in front of each. -/
theorem intercalate_cons_eq_flatMap (separator first : List α) (rest : List (List α)) :
    separator.intercalate (first :: rest) = first ++ rest.flatMap fun other => separator ++ other := by
  induction rest generalizing first with
  | nil => simp
  | cons next rest ih => rw [List.intercalate_cons_cons, ih, List.flatMap_cons, List.append_assoc, List.append_assoc]

/-- When not all of a list are of a kind, there is a first one that is not. -/
theorem exists_first_not {α : Type} (P : α → Prop) {xs : List α} (h : ¬ ∀ x ∈ xs, P x) :
    ∃ before x after, xs = before ++ x :: after ∧ (∀ y ∈ before, P y) ∧ ¬ P x := by
  induction xs with
  | nil => exact absurd (List.forall_mem_nil P) h
  | cons x xs ih =>
    by_cases hx : P x
    · obtain ⟨before, y, after, rfl, hbefore, hy⟩ := ih fun hall => h (List.forall_mem_cons.mpr ⟨hx, hall⟩)
      exact ⟨x :: before, y, after, rfl, List.forall_mem_cons.mpr ⟨hx, hbefore⟩, hy⟩
    · exact ⟨[], x, xs, rfl, List.forall_mem_nil P, hx⟩

end FleetWorkflow.Flow
