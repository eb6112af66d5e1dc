import Mathlib.Data.List.Sort
import Mathlib.Order.Defs.LinearOrder

/-!
# Rankings

The best of some items by a key, in descending order; the order of items of equal keys is left open. A selection covers the
items if each of those left out is matched by enough of those selected. Selections are joined group by group, and the best
of a covering selection are the best of all.
-/

namespace FleetWorkflow.Flow

variable {α β : Type} [LinearOrder β] (key : α → β)

/-- The items are in descending order of their keys. -/
def Descending (items : List α) : Prop := items.Pairwise fun a b => key b ≤ key a

/-- A list is a ranking of items. -/
def Ranks (ranking items : List α) : Prop := ranking.Perm items ∧ Descending key ranking

/-- A list holds the best of some items, up to a number of them, in descending order. -/
def IsTopOf (k : ℕ) (items top : List α) : Prop := ∃ ranking, Ranks key ranking items ∧ top = ranking.take k

/-- A selection covers the items: for each one left out there are so many selected ones that are at least as good. -/
def Covering (k : ℕ) (items selected : List α) : Prop :=
  ∃ rest, (selected ++ rest).Perm items ∧ ∀ item ∈ rest, k ≤ selected.countP fun other => key item ≤ key other

variable {key} {k : ℕ} {items selected ranking : List α}

/-- Sorting ranks items. -/
theorem ranks_insertionSort (items : List α) : Ranks key (items.insertionSort fun a b => key b ≤ key a) items :=
  ⟨List.perm_insertionSort (fun a b => key b ≤ key a) items,
    List.pairwise_insertionSort (fun a b => key b ≤ key a) items⟩

/-- Nothing covers nothing. -/
theorem covering_nil : Covering key k [] [] := ⟨[], .nil, fun _ h => by cases h⟩

/-- Coverings are joined. -/
theorem Covering.append {items' selected' : List α} (h : Covering key k items selected) (h' : Covering key k items' selected') :
    Covering key k (items ++ items') (selected ++ selected') := by
  obtain ⟨rest, hperm, hrest⟩ := h
  obtain ⟨rest', hperm', hrest'⟩ := h'
  refine ⟨rest ++ rest', ?_, fun item hitem => ?_⟩
  · apply List.Perm.trans _ (hperm.append hperm')
    simp only [List.append_assoc]
    exact (List.perm_append_comm_assoc selected' rest rest').append_left selected
  · rw [List.countP_append]
    rcases List.mem_append.mp hitem with hitem | hitem
    · exact Nat.le_add_right_of_le (hrest item hitem)
    · exact Nat.le_add_left_of_le (hrest' item hitem)

/-- In descending order, what is before something is at least as good. -/
theorem Descending.take_drop (h : Descending key ranking) {item other : α} (hitem : item ∈ ranking.take k)
    (hother : other ∈ ranking.drop k) : key other ≤ key item := by
  rw [Descending, ← List.take_append_drop k ranking, List.pairwise_append] at h
  exact h.2.2 item hitem other hother

/-- The best cover the items. -/
theorem IsTopOf.covering {top : List α} (h : IsTopOf key k items top) : Covering key k items top := by
  obtain ⟨ranking, ⟨hperm, hdescending⟩, rfl⟩ := h
  refine ⟨ranking.drop k, by rwa [List.take_append_drop], fun item hitem => ?_⟩
  have hall : (ranking.take k).countP (fun other => decide (key item ≤ key other)) = (ranking.take k).length := by
    rw [List.countP_eq_length]
    intro other hother
    simpa using hdescending.take_drop hother hitem
  have hlong : k < ranking.length := by
    by_contra hshort
    rw [List.drop_of_length_le (by omega)] at hitem
    cases hitem
  rw [hall, List.length_take]
  omega

/-- In descending order, the first are at least as good as something that so many are at least as good as. -/
theorem Descending.le_of_countP (h : Descending key ranking) {bound : β}
    (hcount : k ≤ ranking.countP fun item => bound ≤ key item) {item : α} (hitem : item ∈ ranking.take k) :
    bound ≤ key item := by
  induction ranking generalizing k with
  | nil => simp at hitem
  | cons first rest ih =>
    cases k with
    | zero => simp at hitem
    | succ k =>
      obtain ⟨hfirst, hrest⟩ := List.pairwise_cons.mp h
      by_cases hbound : bound ≤ key first
      · rw [List.countP_cons_of_pos (by simpa using hbound)] at hcount
        rcases List.mem_cons.mp hitem with rfl | hitem
        · exact hbound
        · exact ih hrest (by omega) hitem
      · have hnone : rest.countP (fun item => decide (bound ≤ key item)) = 0 := by
          rw [List.countP_eq_zero]
          intro other hother hle
          exact hbound ((of_decide_eq_true hle).trans (hfirst other hother))
        rw [List.countP_cons_of_neg (by simpa using hbound), hnone] at hcount
        omega

/-- The best of a covering selection are the best of all. -/
theorem Covering.isTopOf (h : Covering key k items selected) (hranks : Ranks key ranking selected) :
    IsTopOf key k items (ranking.take k) := by
  obtain ⟨rest, hperm, hrest⟩ := h
  obtain ⟨hranking, hdescending⟩ := hranks
  -- What is left out is ranked behind what is chosen.
  obtain ⟨others, hothers, hsorted⟩ : ∃ others, Ranks key others (ranking.drop k ++ rest) := ⟨_, ranks_insertionSort _⟩
  refine ⟨ranking.take k ++ others, ⟨?_, ?_⟩, ?_⟩
  · apply ((hothers.append_left _).trans _).trans hperm
    rw [← List.append_assoc, List.take_append_drop]
    exact hranking.append_right rest
  · apply List.pairwise_append.mpr
    refine ⟨hdescending.sublist (List.take_sublist k ranking), hsorted, fun item hitem other hother => ?_⟩
    rcases List.mem_append.mp (hothers.mem_iff.mp hother) with hother | hother
    · exact hdescending.take_drop hitem hother
    · apply hdescending.le_of_countP _ hitem
      rw [hranking.countP_eq]
      exact hrest other hother
  · by_cases hlong : k ≤ ranking.length
    · rw [List.take_append_of_le_length (by rw [List.length_take]; omega), List.take_take, Nat.min_self]
    · have hnone : others = [] := by
        apply List.eq_nil_iff_forall_not_mem.mpr
        intro other hother
        rcases List.mem_append.mp (hothers.mem_iff.mp hother) with hother | hother
        · rw [List.drop_of_length_le (by omega)] at hother
          cases hother
        · have hcount := hrest other hother
          have hbound := List.countP_le_length (p := fun item => decide (key other ≤ key item)) (l := selected)
          have hlength := hranking.length_eq
          omega
      rw [hnone, List.append_nil, List.take_take, Nat.min_self]

end FleetWorkflow.Flow
