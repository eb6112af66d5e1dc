import Mathlib.Algebra.Order.Group.Nat
import Mathlib.Data.List.Count
import Mathlib.Logic.Function.Basic

/-!
# Quotas

Items come one after another, each under a key, and the first ones under a key are admitted up to a limit. How many are
admitted under a key is bounded by what is left of its quota, and what becomes of an item depends on the items under
its own key only.
-/

namespace FleetWorkflow.Flow

variable {α κ : Type}

/-- What is one of two kinds is counted with them. -/
theorem countP_le_add {p first second : α → Bool} (h : ∀ item, p item = true → first item = true ∨ second item = true)
    (items : List α) : items.countP p ≤ items.countP first + items.countP second := by
  induction items with
  | nil => simp
  | cons item rest ih =>
    simp only [List.countP_cons]
    have hitem := h item
    cases hp : p item with
    | false =>
      rw [if_neg Bool.false_ne_true]
      omega
    | true =>
      rcases hitem hp with hkind | hkind
      · rw [if_pos rfl, hkind, if_pos rfl]
        omega
      · rw [if_pos rfl, hkind, if_pos rfl]
        omega

section Quota

variable [DecidableEq κ]

variable (limit : ℕ) (key : α → κ)

/-- One more item was seen under a key. -/
def countUp (seen : κ → ℕ) (k : κ) : κ → ℕ := Function.update seen k (seen k + 1)

/-- The items that are admitted, after a number of items under each key. -/
def firstUnder (seen : κ → ℕ) : List α → List α
  | [] => []
  | item :: rest =>
    if seen (key item) < limit then item :: firstUnder (countUp seen (key item)) rest
    else firstUnder (countUp seen (key item)) rest

variable {limit key} {seen : κ → ℕ} {items : List α}

/-- The key of an item counts the item. -/
theorem countUp_self (seen : κ → ℕ) (k : κ) : countUp seen k k = seen k + 1 := Function.update_self ..

/-- Other keys do not. -/
theorem countUp_of_ne {k k' : κ} (h : k' ≠ k) (seen : κ → ℕ) : countUp seen k k' = seen k' := Function.update_of_ne h ..

/-- Under one key no more items are admitted than are left of its quota. -/
theorem countP_firstUnder_le (k : κ) :
    (firstUnder limit key seen items).countP (fun item => key item = k) ≤ limit - seen k := by
  induction items generalizing seen with
  | nil => simp [firstUnder]
  | cons item rest ih =>
    have hrest := @ih (countUp seen (key item))
    rw [firstUnder]
    by_cases hkey : key item = k
    · subst hkey
      rw [countUp_self] at hrest
      split
      · rw [List.countP_cons_of_pos (by simp)]
        omega
      · omega
    · rw [countUp_of_ne (Ne.symm hkey)] at hrest
      split
      · rw [List.countP_cons_of_neg (by simpa using hkey)]
        exact hrest
      · exact hrest

/-- What is admitted under some keys depends on what was seen, and on what comes, under these keys only. -/
theorem filter_firstUnder (concerns : κ → Bool) {seen' : κ → ℕ} (hseen : ∀ k, concerns k = true → seen k = seen' k) :
    (firstUnder limit key seen items).filter (fun item => concerns (key item)) =
      firstUnder limit key seen' (items.filter fun item => concerns (key item)) := by
  induction items generalizing seen seen' with
  | nil => rfl
  | cons item rest ih =>
    by_cases hitem : concerns (key item) = true
    · have hnext : ∀ k, concerns k = true → countUp seen (key item) k = countUp seen' (key item) k := by
        intro k hk
        by_cases hkey : k = key item
        · rw [hkey, countUp_self, countUp_self, hseen _ hitem]
        · rw [countUp_of_ne hkey, countUp_of_ne hkey, hseen k hk]
      rw [List.filter_cons, if_pos hitem, firstUnder, firstUnder, hseen _ hitem]
      split
      · rw [List.filter_cons, if_pos hitem, ih hnext]
      · exact ih hnext
    · have hnext : ∀ k, concerns k = true → countUp seen (key item) k = seen' k := by
        intro k hk
        have hkey : k ≠ key item := by
          intro hkey
          rw [hkey] at hk
          exact hitem hk
        rw [countUp_of_ne hkey, hseen k hk]
      rw [List.filter_cons, if_neg hitem, firstUnder]
      split
      · rw [List.filter_cons, if_neg hitem, ih hnext]
      · exact ih hnext

end Quota

end FleetWorkflow.Flow
