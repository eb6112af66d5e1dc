import FleetWorkflow.Python.Text

/-!
# Step references

`STEP_REFERENCE_RE`, the only templating a recipe text may use. Each repetition of the pattern is
followed by a character outside its class, so no backtracking can change a match, and
one left-to-right scan cuts a text into literal segments and references. The `finditer`, `search`
and `sub` calls of the source all read that one segmentation.
-/

namespace FleetWorkflow.Recipes

open FleetWorkflow.Python

/-- The groups of one match of the reference pattern. -/
structure StepReference where
  step : String
  path : String
deriving DecidableEq, Repr

/-- A piece of a text: characters between references, or one reference. -/
inductive Segment where
  | literal (text : String)
  | reference (ref : StepReference)
deriving DecidableEq, Repr

/-- The class of the `step` group. -/
def isStepChar (c : Char) : Bool := isAsciiLower c || isAsciiDigit c || c = '_'

/-- The class of the words of the `path` group. -/
def isPathChar (c : Char) : Bool := isAsciiLower c || isAsciiUpper c || isAsciiDigit c || c = '_'

/-- The rest of a dotted path: word characters, and dots that start another word. -/
def scanPathRest : List Char → List Char
  | [] => []
  | c :: rest =>
    if isPathChar c then c :: scanPathRest rest
    else if c = '.' then
      match rest with
      | d :: _ => if isPathChar d then c :: scanPathRest rest else []
      | [] => []
    else []

/-- The longest dotted path at the start of the text, empty when there is none. -/
def scanPath : List Char → List Char
  | [] => []
  | c :: rest => if isPathChar c then scanPathRest (c :: rest) else []

/-- The text after a fixed prefix. -/
def dropLiteral (expected cs : List Char) : Option (List Char) :=
  if expected.isPrefixOf cs then some (cs.drop expected.length) else none

/-- One match of the reference pattern at the start of the text, and the text after it. -/
def matchReference (cs : List Char) : Option (StepReference × List Char) := do
  let afterOpen ← dropLiteral ['{', '{'] cs
  let afterSteps ← dropLiteral ['s', 't', 'e', 'p', 's', '.'] (afterOpen.dropWhile isSpace)
  let step := afterSteps.takeWhile isStepChar
  if step.length < 1 || 64 < step.length then none
  let afterDot ← dropLiteral ['.'] (afterSteps.dropWhile isStepChar)
  let path := scanPath afterDot
  if path = [] then none
  let rest ← dropLiteral ['}', '}'] ((afterDot.drop path.length).dropWhile isSpace)
  return (⟨String.ofList step, String.ofList path⟩, rest)

/-- Put a character in front of a segmentation. -/
def pushChar (c : Char) : List Segment → List Segment
  | .literal text :: rest => .literal (String.ofList (c :: text.toList)) :: rest
  | segments => .literal (String.ofList [c]) :: segments

/-- Cut a text into segments; `skip` characters still belong to the last reference. -/
def scanSegments : ℕ → List Char → List Segment
  | _, [] => []
  | skip + 1, _ :: rest => scanSegments skip rest
  | 0, c :: rest =>
    match matchReference (c :: rest) with
    | some (ref, after) => .reference ref :: scanSegments (rest.length - after.length) rest
    | none => pushChar c (scanSegments 0 rest)

/-- The segments of a recipe text. -/
def segments (value : String) : List Segment := scanSegments 0 value.toList

/-- `STEP_REFERENCE_RE.finditer(value)`, as the matched groups in order. -/
def finditer (value : String) : List StepReference :=
  (segments value).filterMap fun
    | .literal _ => none
    | .reference ref => some ref

/-- `STEP_REFERENCE_RE.sub("", value)`. -/
def residue (value : String) : List Char :=
  (segments value).flatMap fun
    | .literal text => text.toList
    | .reference _ => []

/-- `STEP_REFERENCE_RE.search(value)` succeeds. -/
def hasReference (value : String) : Bool := !(finditer value).isEmpty

example : segments "a \x7b\x7b steps.q_1.n.m\x7d\x7d\x7b\x7b\x7bsteps.x.y \x7d\x7d\x7d" =
    [.literal "a ", .reference ⟨"q_1", "n.m"⟩, .literal "\x7b", .reference ⟨"x", "y"⟩, .literal "\x7d"] := by
  decide

/-- The references of a text are exactly those of its segments. -/
theorem mem_finditer {value : String} {ref : StepReference} :
    ref ∈ finditer value ↔ Segment.reference ref ∈ segments value := by
  simp only [finditer, List.mem_filterMap]
  constructor
  · rintro ⟨segment, hmem, hsome⟩
    cases segment with
    | literal text => cases hsome
    | reference other => cases hsome; exact hmem
  · intro hmem
    exact ⟨.reference ref, hmem, rfl⟩

/-- A literal segment's characters are left over when the references are removed. -/
theorem mem_residue {value text : String} (htext : Segment.literal text ∈ segments value) {c : Char}
    (hc : c ∈ text.toList) : c ∈ residue value :=
  List.mem_flatMap.mpr ⟨.literal text, htext, hc⟩

/-- A path holds word characters and dots. -/
theorem mem_scanPathRest {cs : List Char} {c : Char} (hc : c ∈ scanPathRest cs) :
    isPathChar c = true ∨ c = '.' := by
  induction cs with
  | nil => cases hc
  | cons d rest ih =>
    rw [scanPathRest.eq_def] at hc
    dsimp only at hc
    by_cases hword : isPathChar d = true
    · rw [if_pos hword] at hc
      rcases List.mem_cons.mp hc with rfl | hc
      · exact .inl hword
      · exact ih hc
    · rw [if_neg hword] at hc
      by_cases hdot : d = '.'
      · rw [if_pos hdot] at hc
        split at hc
        · split at hc
          · rcases List.mem_cons.mp hc with rfl | hc
            · exact .inr hdot
            · exact ih hc
          · cases hc
        · cases hc
      · rw [if_neg hdot] at hc
        cases hc

/-- The path of a match is what the path scanner found, and not empty. -/
theorem matchReference_path {cs : List Char} {ref : StepReference} {rest : List Char}
    (h : matchReference cs = some (ref, rest)) :
    ∃ after, ref.path.toList = scanPath after ∧ scanPath after ≠ [] := by
  simp only [matchReference, Option.bind_eq_bind, Option.bind_eq_some_iff] at h
  obtain ⟨afterOpen, -, afterSteps, -, h⟩ := h
  split at h
  · cases h
  · obtain ⟨afterDot, -, h⟩ := Option.bind_eq_some_iff.mp h
    split at h
    · cases h
    · rename_i hpath
      obtain ⟨rest', -, h⟩ := Option.bind_eq_some_iff.mp h
      cases h
      exact ⟨afterDot, by simp, hpath⟩

/-- A reference of a text was matched somewhere in it. -/
theorem exists_match_of_mem_segments {value : String} {ref : StepReference}
    (h : Segment.reference ref ∈ segments value) :
    ∃ cs rest, cs <:+ value.toList ∧ matchReference cs = some (ref, rest) := by
  have hscan : ∀ (cs : List Char) (skip : ℕ), Segment.reference ref ∈ scanSegments skip cs →
      ∃ found rest, found <:+ cs ∧ matchReference found = some (ref, rest) := by
    intro cs
    induction cs with
    | nil =>
      intro skip hmem
      cases skip <;> cases hmem
    | cons c cs ih =>
      intro skip hmem
      have hlater : ∀ skip, Segment.reference ref ∈ scanSegments skip cs →
          ∃ found rest, found <:+ c :: cs ∧ matchReference found = some (ref, rest) := by
        intro skip hmem
        obtain ⟨found, rest, hsuffix, hmatch⟩ := ih skip hmem
        exact ⟨found, rest, hsuffix.trans (List.suffix_cons c cs), hmatch⟩
      cases skip with
      | succ skip => exact hlater skip hmem
      | zero =>
        rw [scanSegments] at hmem
        split at hmem
        · rename_i other after hmatch
          rcases List.mem_cons.mp hmem with heq | hmem
          · cases heq
            exact ⟨_, _, List.suffix_refl _, hmatch⟩
          · exact hlater _ hmem
        · have hpush : ∀ segments, Segment.reference ref ∈ pushChar c segments →
              Segment.reference ref ∈ segments := by
            intro segments hin
            cases segments with
            | nil => simp [pushChar] at hin
            | cons segment rest =>
              cases segment with
              | literal text => simpa [pushChar] using hin
              | reference other => simpa [pushChar] using hin
          exact hlater 0 (hpush _ hmem)
  exact hscan value.toList 0 h

/-- A text with a reference has a brace. -/
theorem brace_mem_of_hasReference {value : String} (h : hasReference value = true) : '{' ∈ value.toList := by
  rw [hasReference, Bool.not_eq_true', List.isEmpty_eq_false_iff_exists_mem] at h
  obtain ⟨ref, href⟩ := h
  obtain ⟨cs, rest, hsuffix, hmatch⟩ := exists_match_of_mem_segments (mem_finditer.mp href)
  obtain ⟨after, hopen, -⟩ := Option.bind_eq_some_iff.mp hmatch
  rw [dropLiteral] at hopen
  split at hopen
  · rename_i hstarts
    exact hsuffix.subset ((List.isPrefixOf_iff_prefix.mp hstarts).subset List.mem_cons_self)
  · cases hopen

/-- The path of a reference is not empty, and holds word characters and dots. -/
theorem path_of_mem_segments {value : String} {ref : StepReference}
    (h : Segment.reference ref ∈ segments value) :
    ref.path.toList ≠ [] ∧ ∀ c ∈ ref.path.toList, isPathChar c = true ∨ c = '.' := by
  obtain ⟨cs, rest, -, hmatch⟩ := exists_match_of_mem_segments h
  obtain ⟨after, hpath, hne⟩ := matchReference_path hmatch
  rw [hpath]
  refine ⟨hne, fun c hc => ?_⟩
  cases after with
  | nil => cases hc
  | cons d rest =>
    rw [scanPath] at hc
    split at hc
    · exact mem_scanPathRest hc
    · cases hc

end FleetWorkflow.Recipes
