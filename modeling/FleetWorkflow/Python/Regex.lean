import Mathlib.Data.List.Forall2
import FleetWorkflow.Python.Text

/-!
# Regular expressions

The part of `re` that the patterns of the fleet need: repeated character classes, word boundaries,
sequences and alternatives, matched by backtracking in the order of preference. A replacement goes
through a text from left to right. None of the patterns matches the empty text.
-/

namespace FleetWorkflow.Python

/-- A place in a text: the character before it and the text after it. -/
structure Place where
  before : Option Char
  rest : List Char

/-- A pattern. -/
inductive Re where
  | chars (p : Char → Bool) (least : ℕ) (most : Option ℕ)
  | boundary
  | seq (first second : Re)
  | alt (first second : Re)

namespace Re

/-- One character of a class. -/
def one (p : Char → Bool) : Re := chars p 1 (some 1)

/-- A fixed number of characters of a class. -/
def times (n : ℕ) (p : Char → Bool) : Re := chars p n (some n)

/-- An optional character of a class. -/
def maybe (p : Char → Bool) : Re := chars p 0 (some 1)

/-- A list of patterns, one after the other. -/
def all : List Re → Re
  | [] => chars (fun _ => false) 0 none
  | [re] => re
  | re :: rest => seq re (all rest)

/-- A literal text. -/
def text (cs : List Char) : Re := all (cs.map fun c => one (· = c))

/-- The places after a run of characters of a class, the longest run first. -/
def runs (p : Char → Bool) : Option ℕ → Option Char → List Char → List Place
  | _, before, [] => [⟨before, []⟩]
  | most, before, c :: rest =>
    if most ≠ some 0 && p c then runs p (most.map Nat.pred) (some c) rest ++ [⟨before, c :: rest⟩]
    else [⟨before, c :: rest⟩]

/-- The places where a match can end, in the order of preference. -/
def ends (isWord : Char → Bool) : Re → Place → List Place
  | chars p least most, place =>
    let places := runs p most place.before place.rest
    places.take (places.length - least)
  | boundary, place => if place.before.any isWord ≠ place.rest.head?.any isWord then [place] else []
  | seq first second, place => (first.ends isWord place).flatMap (second.ends isWord)
  | alt first second, place => first.ends isWord place ++ second.ends isWord place

/-- A part of a text: a match, or a character that no match begins at. -/
inductive Piece where
  | matched (cs : List Char)
  | skipped (c : Char)

/-- The parts of a text from a place on. -/
def piecesFrom (isWord : Char → Bool) (re : Re) : ℕ → Option Char → List Char → List Piece
  | 0, _, rest => rest.map .skipped
  | _ + 1, _, [] => []
  | fuel + 1, before, c :: rest =>
    match (re.ends isWord ⟨before, c :: rest⟩).head? with
    | some place =>
      if place.rest.length < (c :: rest).length then
        .matched ((c :: rest).take ((c :: rest).length - place.rest.length)) ::
          piecesFrom isWord re fuel place.before place.rest
      else .skipped c :: piecesFrom isWord re fuel (some c) rest
    | none => .skipped c :: piecesFrom isWord re fuel (some c) rest

/-- The matches of a pattern in a text, and the characters between them. -/
def pieces (isWord : Char → Bool) (re : Re) (cs : List Char) : List Piece := piecesFrom isWord re cs.length none cs

/-- A piece after a replacement. -/
def Piece.replaced (f : List Char → List Char) : Piece → List Char
  | matched cs => f cs
  | skipped c => [c]

/-- `pattern.sub(f, text)`. -/
def sub (isWord : Char → Bool) (re : Re) (f : List Char → List Char) (cs : List Char) : List Char :=
  (re.pieces isWord cs).flatMap (Piece.replaced f)

/-- `pattern.findall(text)`, for a pattern without groups. -/
def findall (isWord : Char → Bool) (re : Re) (cs : List Char) : List (List Char) :=
  (re.pieces isWord cs).filterMap fun
    | .matched cs => some cs
    | .skipped _ => none

/-! ## Where a match can end -/

section Ends

variable {isWord : Char → Bool} {p : Char → Bool} {b : Option Char} {cs : List Char} {place : Place}

/-- The ends of a run of any length. -/
theorem mem_runs : place ∈ runs p none b cs ↔
    ∃ run rest, cs = run ++ rest ∧ (∀ c ∈ run, p c) ∧ place = ⟨run.getLast?.or b, rest⟩ := by
  induction cs generalizing b with
  | nil =>
    simp only [runs, List.mem_singleton]
    constructor
    · intro h
      exact ⟨[], [], rfl, by simp, h⟩
    · rintro ⟨run, rest, hsplit, -, h⟩
      obtain ⟨rfl, rfl⟩ := List.append_eq_nil_iff.mp hsplit.symm
      exact h
  | cons c cs ih =>
    by_cases hc : p c
    · simp only [runs, hc, ne_eq, reduceCtorEq, not_false_eq_true, decide_true, Bool.and_true, if_true, Option.map_none,
        List.mem_append, List.mem_singleton, ih]
      constructor
      · rintro (⟨run, rest, rfl, hrun, rfl⟩ | h)
        · refine ⟨c :: run, rest, rfl, ?_, ?_⟩
          · intro d hd
            rcases List.mem_cons.mp hd with rfl | hd
            · exact hc
            · exact hrun d hd
          · rw [List.getLast?_cons]
            cases run.getLast? <;> rfl
        · exact ⟨[], c :: cs, rfl, by simp, h⟩
      · rintro ⟨run, rest, hsplit, hrun, rfl⟩
        cases run with
        | nil =>
          right
          rw [← List.nil_append rest, ← hsplit]
          rfl
        | cons d run =>
          obtain ⟨rfl, rfl⟩ := List.cons.inj hsplit
          left
          refine ⟨run, rest, rfl, fun e he => hrun e (List.mem_cons_of_mem _ he), ?_⟩
          rw [List.getLast?_cons]
          cases run.getLast? <;> rfl
    · simp only [runs, hc, Bool.and_false, if_false, List.mem_singleton, Bool.false_eq_true]
      constructor
      · intro h
        exact ⟨[], c :: cs, rfl, by simp, h⟩
      · rintro ⟨run, rest, hsplit, hrun, rfl⟩
        cases run with
        | nil =>
          rw [← List.nil_append rest, ← hsplit]
          rfl
        | cons d run =>
          obtain ⟨rfl, rfl⟩ := List.cons.inj hsplit
          exact absurd (hrun c List.mem_cons_self) hc

/-- The ends of a run of any length of a class. -/
theorem mem_ends_many : place ∈ (chars p 0 none).ends isWord ⟨b, cs⟩ ↔
    ∃ run rest, cs = run ++ rest ∧ (∀ c ∈ run, p c) ∧ place = ⟨run.getLast?.or b, rest⟩ := by
  simp only [ends, Nat.sub_zero, List.take_length, mem_runs]

/-- The end of one character of a class. -/
theorem mem_ends_one : place ∈ (one p).ends isWord ⟨b, cs⟩ ↔ ∃ c rest, cs = c :: rest ∧ p c ∧ place = ⟨some c, rest⟩ := by
  cases cs with
  | nil => simp [one, ends, runs]
  | cons c rest =>
    have hnone : runs p (some 0) (some c) rest = [⟨some c, rest⟩] := by
      cases rest with
      | nil => rfl
      | cons d rest => rfl
    by_cases hc : p c
    · simp [one, ends, runs, hc, hnone]
    · simp [one, ends, runs, hc]

/-- The ends of an optional character of a class. -/
theorem mem_ends_maybe : place ∈ (maybe p).ends isWord ⟨b, cs⟩ ↔
    place = ⟨b, cs⟩ ∨ ∃ c rest, cs = c :: rest ∧ p c ∧ place = ⟨some c, rest⟩ := by
  cases cs with
  | nil => simp [maybe, ends, runs]
  | cons c rest =>
    have hnone : runs p (some 0) (some c) rest = [⟨some c, rest⟩] := by
      cases rest with
      | nil => rfl
      | cons d rest => rfl
    by_cases hc : p c
    · simp [maybe, ends, runs, hc, hnone, or_comm]
    · simp [maybe, ends, runs, hc]

/-- The ends of two patterns, one after the other. -/
theorem mem_ends_seq {first second : Re} {start : Place} :
    place ∈ (seq first second).ends isWord start ↔ ∃ mid ∈ first.ends isWord start, place ∈ second.ends isWord mid :=
  List.mem_flatMap

/-- The end of a word boundary. -/
theorem mem_ends_boundary {start : Place} : place ∈ boundary.ends isWord start ↔
    start.before.any isWord ≠ start.rest.head?.any isWord ∧ place = start := by
  rw [ends]
  split
  · rename_i h
    simp [h]
  · rename_i h
    simp only [List.not_mem_nil, false_iff]
    exact fun hboth => h hboth.1

/-- The end of a word, letter by letter. -/
theorem mem_ends_word {first : Char → Bool} {letters : List (Char → Bool)} :
    place ∈ (all ((first :: letters).map one)).ends isWord ⟨b, cs⟩ ↔ ∃ word rest, cs = word ++ rest ∧
      List.Forall₂ (fun letter c => letter c = true) (first :: letters) word ∧ place = ⟨word.getLast?, rest⟩ := by
  induction letters generalizing first b cs with
  | nil =>
    simp only [List.map_cons, List.map_nil, all, mem_ends_one]
    constructor
    · rintro ⟨c, rest, rfl, hc, rfl⟩
      exact ⟨[c], rest, rfl, .cons hc .nil, rfl⟩
    · rintro ⟨word, rest, rfl, hword, rfl⟩
      cases hword with
      | cons hc hnil =>
        cases hnil
        exact ⟨_, rest, rfl, hc, rfl⟩
  | cons second letters ih =>
    simp only [List.map_cons, all, mem_ends_seq, mem_ends_one] at ih ⊢
    constructor
    · rintro ⟨mid, ⟨c, rest, rfl, hc, rfl⟩, hplace⟩
      obtain ⟨word, rest', rfl, hword, rfl⟩ := ih.mp hplace
      refine ⟨c :: word, rest', rfl, .cons hc hword, ?_⟩
      cases hword with
      | cons _ _ => rfl
    · rintro ⟨word, rest, rfl, hword, rfl⟩
      cases hword with
      | cons hc hrest =>
        refine ⟨_, ⟨_, _, rfl, hc, rfl⟩, ih.mpr ⟨_, rest, rfl, hrest, ?_⟩⟩
        cases hrest with
        | cons _ _ => rfl

end Ends

end Re

end FleetWorkflow.Python
