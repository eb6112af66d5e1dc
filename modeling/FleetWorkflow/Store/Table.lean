import Mathlib.Data.List.Basic
import Mathlib.Logic.Function.Basic

/-!
# Tables with generated ids

A table holds rows under the ids that a counter hands out, and every row carries its own id. Both
facts are part of the type, so that a row that was found names the place it was found at.
-/

namespace FleetWorkflow.Store

/-- Rows under generated ids; `key` reads the id that a row carries. -/
structure Table (Row : Type) (key : Row → ℕ) where
  row : ℕ → Option Row
  next : ℕ
  fresh : ∀ id, next ≤ id → row id = none
  keyed : ∀ id r, row id = some r → key r = id

namespace Table

variable {Row : Type} {key : Row → ℕ} (table : Table Row key)

/-- The table without rows. -/
def empty : Table Row key where
  row _ := none
  next := 0
  fresh _ _ := rfl
  keyed _ _ h := by cases h

/-- All rows, in the order of their ids. -/
def rows : List Row := (List.range table.next).filterMap table.row

/-- Add a row under the next id. -/
def insert (r : Row) (hr : key r = table.next) : Table Row key where
  row := Function.update table.row table.next (some r)
  next := table.next + 1
  fresh id hid := by
    rw [Function.update_of_ne (by omega)]
    exact table.fresh id (by omega)
  keyed id r' h := by
    by_cases hid : id = table.next
    · subst hid
      rw [Function.update_self] at h
      exact Option.some.inj h ▸ hr
    · rw [Function.update_of_ne hid] at h
      exact table.keyed id r' h

/-- Change the row of an id. -/
def update (id : ℕ) (f : Row → Row) (hf : ∀ r, key (f r) = key r) : Table Row key where
  row := Function.update table.row id ((table.row id).map f)
  next := table.next
  fresh id' hid' := by
    by_cases hid : id' = id
    · subst hid
      rw [Function.update_self, table.fresh id' hid']
      rfl
    · rw [Function.update_of_ne hid]
      exact table.fresh id' hid'
  keyed id' r' h := by
    by_cases hid : id' = id
    · subst hid
      rw [Function.update_self, Option.map_eq_some_iff] at h
      obtain ⟨r, hr, hr'⟩ := h
      rw [← hr', hf]
      exact table.keyed id' r hr
    · rw [Function.update_of_ne hid] at h
      exact table.keyed id' r' h

/-- Remove the row of an id. -/
def delete (id : ℕ) : Table Row key where
  row := Function.update table.row id none
  next := table.next
  fresh id' hid' := by
    by_cases hid : id' = id
    · rw [hid, Function.update_self]
    · rw [Function.update_of_ne hid]
      exact table.fresh id' hid'
  keyed id' r' h := by
    by_cases hid : id' = id
    · rw [hid, Function.update_self] at h
      cases h
    · rw [Function.update_of_ne hid] at h
      exact table.keyed id' r' h

/-- The rows are those found under some id. -/
theorem mem_rows {r : Row} : r ∈ table.rows ↔ ∃ id, table.row id = some r := by
  rw [rows, List.mem_filterMap]
  constructor
  · rintro ⟨id, _, h⟩
    exact ⟨id, h⟩
  · rintro ⟨id, h⟩
    refine ⟨id, ?_, h⟩
    rw [List.mem_range]
    by_contra hid
    rw [table.fresh id (by omega)] at h
    cases h

/-- A listed row is found under the id that it carries. -/
theorem row_key {r : Row} (h : r ∈ table.rows) : table.row (key r) = some r := by
  obtain ⟨id, hid⟩ := table.mem_rows.mp h
  rw [table.keyed id r hid]
  exact hid

/-- Reading after an insertion. -/
@[simp] theorem row_insert (r : Row) (hr : key r = table.next) (id : ℕ) :
    (table.insert r hr).row id = if id = table.next then some r else table.row id :=
  Function.update_apply _ _ _ _

/-- Reading after an update. -/
@[simp] theorem row_update (id : ℕ) (f : Row → Row) (hf : ∀ r, key (f r) = key r) (id' : ℕ) :
    (table.update id f hf).row id' = if id' = id then (table.row id).map f else table.row id' :=
  Function.update_apply _ _ _ _

/-- Reading after a deletion. -/
@[simp] theorem row_delete (id id' : ℕ) :
    (table.delete id).row id' = if id' = id then none else table.row id' :=
  Function.update_apply _ _ _ _

/-- The place of the next row is free. -/
theorem row_next : table.row table.next = none := table.fresh _ (Nat.le_refl _)

end Table

end FleetWorkflow.Store
