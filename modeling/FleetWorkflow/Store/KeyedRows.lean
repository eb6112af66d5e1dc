import Mathlib.Data.List.Nodup

/-!
# Rows with a unique key

A table in storage order whose rows differ in a key. Nothing is assumed of the order, which an update
or a vacuum may change.
-/

namespace FleetWorkflow.Store

/-- Rows that differ in their key. -/
structure KeyedRows (Row κ : Type) (key : Row → κ) where
  rows : List Row
  distinct : (rows.map key).Nodup

namespace KeyedRows

variable {Row κ : Type} {key : Row → κ} (table : KeyedRows Row κ key)

/-- The table without rows. -/
def empty : KeyedRows Row κ key := ⟨[], List.nodup_nil⟩

/-- The row of a key. -/
def find [DecidableEq κ] (k : κ) : Option Row := table.rows.find? fun row => key row = k

/-- `INSERT ... ON CONFLICT DO NOTHING`: a row whose key is taken is left out. -/
def addIfNew [DecidableEq κ] (row : Row) : KeyedRows Row κ key :=
  if h : key row ∈ table.rows.map key then table
  else
    { rows := table.rows ++ [row]
      distinct := by
        rw [List.map_append, List.nodup_append]
        refine ⟨table.distinct, List.nodup_singleton _, ?_⟩
        intro k hk k' hk' heq
        rw [List.map_singleton, List.mem_singleton] at hk'
        exact h (hk' ▸ heq ▸ hk) }

/-- `UPDATE`: change rows without changing their keys. -/
def update (f : Row → Row) (hf : ∀ row, key (f row) = key row) : KeyedRows Row κ key where
  rows := table.rows.map f
  distinct := by
    have hkeys : (key ∘ f) = key := funext hf
    rw [List.map_map, hkeys]
    exact table.distinct

/-- `DELETE ... WHERE`: drop the rows that a condition selects. -/
def deleteWhere (selected : Row → Bool) : KeyedRows Row κ key where
  rows := table.rows.filter fun row => !selected row
  distinct := table.distinct.sublist (List.filter_sublist.map key)

/-- The rows after an insertion that may be left out. -/
theorem mem_addIfNew [DecidableEq κ] (row other : Row) :
    other ∈ (table.addIfNew row).rows ↔
      other ∈ table.rows ∨ (other = row ∧ ∀ earlier ∈ table.rows, key earlier ≠ key row) := by
  unfold addIfNew
  split
  · rename_i htaken
    obtain ⟨earlier, hearlier, hkey⟩ := List.mem_map.mp htaken
    simp only [iff_self_or]
    rintro ⟨-, hfree⟩
    exact absurd hkey (hfree earlier hearlier)
  · rename_i hfree
    simp only [List.mem_append, List.mem_singleton]
    refine or_congr_right ⟨fun h => ⟨h, ?_⟩, And.left⟩
    intro earlier hearlier hkey
    exact hfree (List.mem_map.mpr ⟨earlier, hearlier, hkey⟩)

/-- Insertions keep the rows there are. -/
theorem mem_foldl_addIfNew_of_mem [DecidableEq κ] {α : Type} (rowOf : α → Row) (values : List α) {row : Row}
    (h : row ∈ table.rows) : row ∈ (values.foldl (fun table value => table.addIfNew (rowOf value)) table).rows := by
  induction values generalizing table with
  | nil => exact h
  | cons value rest ih => exact ih _ ((table.mem_addIfNew _ _).mpr (.inl h))

/-- Insertions add no other rows, and none whose key was taken. -/
theorem mem_of_mem_foldl_addIfNew [DecidableEq κ] {α : Type} (rowOf : α → Row) (values : List α) {row : Row}
    (h : row ∈ (values.foldl (fun table value => table.addIfNew (rowOf value)) table).rows) :
    row ∈ table.rows ∨ (∃ value ∈ values, row = rowOf value) ∧ ∀ earlier ∈ table.rows, key earlier ≠ key row := by
  induction values generalizing table with
  | nil => exact .inl h
  | cons value rest ih =>
    rcases ih _ h with hrow | ⟨⟨found, hfound, hrow⟩, hfree⟩
    · rcases (table.mem_addIfNew _ _).mp hrow with hold | ⟨rfl, hfree⟩
      · exact .inl hold
      · exact .inr ⟨⟨value, List.mem_cons_self, rfl⟩, hfree⟩
    · refine .inr ⟨⟨found, List.mem_cons_of_mem _ hfound, hrow⟩, fun earlier hearlier => ?_⟩
      exact hfree earlier ((table.mem_addIfNew _ _).mpr (.inl hearlier))

/-- After insertions the key of each inserted row is taken. -/
theorem exists_key_foldl_addIfNew [DecidableEq κ] {α : Type} (rowOf : α → Row) (values : List α) {value : α}
    (h : value ∈ values) : ∃ row ∈ (values.foldl (fun table value => table.addIfNew (rowOf value)) table).rows,
      key row = key (rowOf value) := by
  induction values generalizing table with
  | nil => cases h
  | cons first rest ih =>
    rcases List.mem_cons.mp h with rfl | hrest
    · have htaken : ∃ row ∈ (table.addIfNew (rowOf value)).rows, key row = key (rowOf value) := by
        by_cases hfree : ∀ earlier ∈ table.rows, key earlier ≠ key (rowOf value)
        · exact ⟨rowOf value, (table.mem_addIfNew _ _).mpr (.inr ⟨rfl, hfree⟩), rfl⟩
        · push Not at hfree
          obtain ⟨earlier, hearlier, hkey⟩ := hfree
          exact ⟨earlier, (table.mem_addIfNew _ _).mpr (.inl hearlier), hkey⟩
      obtain ⟨row, hrow, hkey⟩ := htaken
      exact ⟨row, mem_foldl_addIfNew_of_mem _ rowOf rest hrow, hkey⟩
    · exact ih _ hrest

/-- The rows after an update. -/
theorem mem_update (f : Row → Row) (hf : ∀ row, key (f row) = key row) (row : Row) :
    row ∈ (table.update f hf).rows ↔ ∃ before ∈ table.rows, f before = row := by
  simp [update]

/-- The rows after a deletion. -/
@[simp] theorem mem_deleteWhere (selected : Row → Bool) (row : Row) :
    row ∈ (table.deleteWhere selected).rows ↔ row ∈ table.rows ∧ selected row = false := by
  simp [deleteWhere]

/-- Rows of one key are one row. -/
theorem eq_of_key {row row' : Row} (h : row ∈ table.rows) (h' : row' ∈ table.rows) (hkey : key row = key row') :
    row = row' :=
  List.inj_on_of_nodup_map table.distinct h h' hkey

/-- The row of a key is the one found. -/
theorem find_eq_some [DecidableEq κ] {k : κ} {row : Row} :
    table.find k = some row ↔ row ∈ table.rows ∧ key row = k := by
  refine ⟨fun h => ⟨List.mem_of_find?_eq_some h, by simpa using List.find?_some h⟩, ?_⟩
  rintro ⟨hmem, hkey⟩
  cases hfind : table.find k with
  | none => exact absurd hkey (by simpa using List.find?_eq_none.mp hfind row hmem)
  | some found =>
    have hfound : key found = k := by simpa using List.find?_some hfind
    rw [table.eq_of_key (List.mem_of_find?_eq_some hfind) hmem (hfound.trans hkey.symm)]

end KeyedRows

/-!
## Foreign keys

Rows that refer to the rows of another table. A deletion that drops no row referred to leaves every
reference its row.
-/

namespace KeyedRows

variable {Row Child κ : Type} {key : Row → κ} (table : KeyedRows Row κ key) (refersTo : Child → κ)
  (children : List Child)

/-- Every child refers to a row. -/
def Referenced : Prop := ∀ child ∈ children, ∃ row ∈ table.rows, key row = refersTo child

/-- Some child refers to a selected row. -/
def isReferenced [DecidableEq κ] (selected : Row → Bool) : Bool :=
  children.any fun child => table.rows.any fun row => selected row && key row = refersTo child

variable {table refersTo children} {selected : Row → Bool}

/-- No child refers to a selected row. -/
theorem isReferenced_eq_false [DecidableEq κ] : table.isReferenced refersTo children selected = false ↔
    ∀ child ∈ children, ∀ row ∈ table.rows, key row = refersTo child → selected row = false := by
  simp only [isReferenced, List.any_eq_false]
  apply forall₂_congr
  intro child hchild
  rw [Bool.not_eq_true, List.any_eq_false]
  apply forall₂_congr
  intro row hrow
  by_cases hkey : key row = refersTo child <;> simp [hkey]

/-- A deletion of rows that no child refers to leaves every child its row. -/
theorem Referenced.deleteWhere [DecidableEq κ] (h : table.Referenced refersTo children)
    (hfree : table.isReferenced refersTo children selected = false) :
    (table.deleteWhere selected).Referenced refersTo children := by
  intro child hchild
  obtain ⟨row, hrow, hkey⟩ := h child hchild
  have hkept := isReferenced_eq_false.mp hfree child hchild row hrow hkey
  exact ⟨row, (table.mem_deleteWhere _ row).mpr ⟨hrow, hkept⟩, hkey⟩

/-- Fewer children refer to rows as well. -/
theorem Referenced.mono {children' : List Child} (h : table.Referenced refersTo children)
    (hsubset : ∀ child ∈ children', child ∈ children) : table.Referenced refersTo children' :=
  fun child hchild => h child (hsubset child hchild)

end KeyedRows

end FleetWorkflow.Store
