import Mathlib.Data.List.Basic

/-!
# Paths

A relative path is a text between slashes. Many texts spell one path: empty segments and single dots go nowhere,
and two dots go back out of the directory before them. What a path names is what its segments lead to.
-/

namespace FleetWorkflow.Python.Path

/-- A part of a path between slashes. -/
abbrev Segment := List Char

/-- The segment of the directory itself. -/
def here : Segment := ['.']

/-- The segment that leads out of a directory. -/
def up : Segment := ['.', '.']

/-- The segments of a path. -/
def segments (path : List Char) : List Segment := path.splitOn '/'

/-- Follow one segment from a place, whose last directory comes first; from the start there is no way out. -/
def follow (place : List Segment) (segment : Segment) : List Segment :=
  if segment = [] ∨ segment = here then place
  else if segment = up then
    match place with
    | [] => [up]
    | last :: before => if last = up then up :: place else before
  else segment :: place

/-- The place that a path names. -/
def resolve (path : List Char) : List Segment := ((segments path).foldl follow []).reverse

/-- A path names something inside a directory. -/
def isInside (directory : Segment) (path : List Char) : Bool :=
  match resolve path with
  | first :: _ :: _ => first = directory
  | _ => false

/-- Every segment of a path leads further in. -/
def Canonical (path : List Char) : Prop := ∀ segment ∈ segments path, segment ≠ [] ∧ segment ≠ here ∧ segment ≠ up

/-- Segments that lead further in are followed one by one. -/
theorem foldl_follow {rest place : List Segment} (h : ∀ segment ∈ rest, segment ≠ [] ∧ segment ≠ here ∧ segment ≠ up) :
    rest.foldl follow place = rest.reverse ++ place := by
  induction rest generalizing place with
  | nil => rfl
  | cons segment rest ih =>
    obtain ⟨hempty, hhere, hup⟩ := h segment List.mem_cons_self
    have hfollow : follow place segment = segment :: place := by simp [follow, hempty, hhere, hup]
    rw [List.foldl_cons, hfollow, ih (fun other hother => h other (List.mem_cons_of_mem _ hother))]
    simp

/-- A canonical path names its segments. -/
theorem resolve_of_canonical {path : List Char} (h : Canonical path) : resolve path = segments path := by
  rw [resolve, foldl_follow h, List.append_nil, List.reverse_reverse]

/-- For canonical paths it is enough to look at how they start. -/
theorem isInside_of_canonical {path : List Char} (hpath : Canonical path) {directory : Segment} (h : '/' ∉ directory) :
    isInside directory path = (directory ++ ['/']).isPrefixOf path := by
  rw [isInside, resolve_of_canonical hpath, Bool.eq_iff_iff, List.isPrefixOf_iff_prefix]
  constructor
  · intro hinside
    match hsegments : segments path with
    | [] | [_] => simp [hsegments] at hinside
    | first :: second :: rest =>
      simp only [hsegments, decide_eq_true_eq] at hinside
      have hjoined : List.intercalate ['/'] (segments path) = path := List.intercalate_splitOn '/'
      rw [hsegments, hinside] at hjoined
      refine ⟨List.intercalate ['/'] (second :: rest), ?_⟩
      rw [← hjoined, List.append_assoc]
      rfl
  · rintro ⟨rest, rfl⟩
    have hsegments : segments (directory ++ ['/'] ++ rest) = directory :: segments rest := by
      rw [segments, List.append_assoc, List.singleton_append, List.splitOn_append_cons_self_of_not_mem h]
      rfl
    have hrest : segments rest ≠ [] := List.splitOn_ne_nil '/' rest
    match hmore : segments rest with
    | [] => exact absurd hmore hrest
    | second :: more =>
      rw [hsegments, hmore]
      exact decide_eq_true rfl

end FleetWorkflow.Python.Path
