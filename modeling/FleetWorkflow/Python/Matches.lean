import Mathlib.Data.List.Chain
import FleetWorkflow.Python.Regex
import FleetWorkflow.Python.Spans

/-!
# Matches of the parts of a text

Where a pattern matches in a text that is made of parts with white space between them. A pattern that
takes no run of white space of some width, and none at its ends, matches in the text where it matches
in the parts.
-/

namespace FleetWorkflow.Python

/-- A place with more text after it. -/
def Place.extend (after : List Char) (place : Place) : Place := ⟨place.before, place.rest ++ after⟩

namespace Re

/-- For each character of a piece, whether it belongs to a match that is wanted. -/
def Piece.marks (wanted : List Char → Bool) : Piece → List Bool
  | matched cs => List.replicate cs.length (wanted cs)
  | skipped _ => [false]

/-- The characters of a piece. -/
def Piece.chars : Piece → List Char
  | matched cs => cs
  | skipped c => [c]

/-- The wanted matches among pieces that begin at an offset. -/
def spansOf (wanted : List Char → Bool) : ℕ → List Piece → List Span
  | _, [] => []
  | offset, .matched cs :: rest =>
    if wanted cs then ⟨offset, offset + cs.length⟩ :: spansOf wanted (offset + cs.length) rest
    else spansOf wanted (offset + cs.length) rest
  | offset, .skipped _ :: rest => spansOf wanted (offset + 1) rest

/-- The spans of the wanted matches of `pattern.finditer(text)`. -/
def finditer (isWord : Char → Bool) (re : Re) (wanted : List Char → Bool) (cs : List Char) : List Span :=
  spansOf wanted 0 (re.pieces isWord cs)

/-- The pieces from a place on. -/
def piecesAt (isWord : Char → Bool) (re : Re) (before : Option Char) (cs : List Char) : List Piece :=
  re.piecesFrom isWord cs.length before cs

/-- For each character of a text, whether it belongs to a wanted match. -/
def marks (isWord : Char → Bool) (re : Re) (wanted : List Char → Bool) (cs : List Char) : List Bool :=
  (re.pieces isWord cs).flatMap (Piece.marks wanted)

theorem le_start_of_mem_spansOf {wanted : List Char → Bool} {pieces : List Piece} {offset : ℕ} {span : Span}
    (h : span ∈ spansOf wanted offset pieces) : offset ≤ span.start := by
  induction pieces generalizing offset with
  | nil => simp [spansOf] at h
  | cons piece rest ih =>
    cases piece with
    | skipped c => exact (Nat.le_succ offset).trans (ih h)
    | matched cs =>
      rw [spansOf] at h
      split at h
      · rcases List.mem_cons.mp h with rfl | h
        · exact Nat.le_refl offset
        · exact (Nat.le_add_right offset _).trans (ih h)
      · exact (Nat.le_add_right offset _).trans (ih h)

/-- A position is marked when a span covers it. -/
theorem mem_spansOf {wanted : List Char → Bool} {pieces : List Piece} {offset i : ℕ} :
    (∃ span ∈ spansOf wanted offset pieces, span.start ≤ offset + i ∧ offset + i < span.stop) ↔
      (pieces.flatMap (Piece.marks wanted))[i]? = some true := by
  induction pieces generalizing offset i with
  | nil => simp [spansOf]
  | cons piece rest ih =>
    cases piece with
    | skipped c =>
      simp only [spansOf, List.flatMap_cons, Piece.marks, List.singleton_append]
      cases i with
      | zero =>
        simp only [Nat.add_zero, List.getElem?_cons_zero, Option.some.injEq, Bool.false_eq_true, iff_false,
          not_exists, not_and]
        intro span hspan hstart
        have := le_start_of_mem_spansOf hspan
        omega
      | succ i =>
        rw [List.getElem?_cons_succ, ← @ih (offset + 1) i, Nat.add_right_comm offset 1 i]
        rfl
    | matched cs =>
      have hrest : (∃ span ∈ spansOf wanted offset (.matched cs :: rest),
          span.start ≤ offset + i ∧ offset + i < span.stop) ↔ (wanted cs ∧ i < cs.length) ∨
            ∃ span ∈ spansOf wanted (offset + cs.length) rest, span.start ≤ offset + i ∧ offset + i < span.stop := by
        rw [spansOf]
        split
        · rename_i hwanted
          simp [hwanted]
        · rename_i hwanted
          simp [hwanted]
      rw [hrest, List.flatMap_cons, Piece.marks]
      by_cases hi : i < cs.length
      · rw [List.getElem?_append_left (by simpa using hi), List.getElem?_replicate, if_pos hi]
        have hnone : ¬ ∃ span ∈ spansOf wanted (offset + cs.length) rest,
            span.start ≤ offset + i ∧ offset + i < span.stop := by
          rintro ⟨span, hspan, hstart, -⟩
          have := le_start_of_mem_spansOf hspan
          omega
        simp [hi, hnone]
      · obtain ⟨j, rfl⟩ := Nat.exists_eq_add_of_le (Nat.le_of_not_lt hi)
        rw [List.getElem?_append_right (by simp), List.length_replicate, Nat.add_sub_cancel_left,
          ← @ih (offset + cs.length) j, Nat.add_assoc]
        simp

/-! ## What a match takes -/

section Takes

variable {isWord : Char → Bool} {p : Char → Bool} {b : Option Char} {cs : List Char} {place : Place}

/-- A run of a class, with the character before what is left. -/
theorem run_of_mem_runs {most : Option ℕ} (h : place ∈ runs p most b cs) :
    ∃ run, cs = run ++ place.rest ∧ place.before = run.getLast?.or b ∧ ∀ c ∈ run, p c := by
  induction cs generalizing b most with
  | nil =>
    simp only [runs, List.mem_singleton] at h
    subst h
    exact ⟨[], rfl, rfl, by simp⟩
  | cons c cs ih =>
    rw [runs] at h
    split at h
    · rename_i hc
      simp only [Bool.and_eq_true] at hc
      rcases List.mem_append.mp h with h | h
      · obtain ⟨run, hrun, hbefore, hall⟩ := ih h
        refine ⟨c :: run, by rw [hrun, List.cons_append], ?_, ?_⟩
        · rw [hbefore, List.getLast?_cons]
          cases run.getLast? <;> rfl
        · simpa [hc.2] using hall
      · rw [List.mem_singleton.mp h]
        exact ⟨[], rfl, rfl, by simp⟩
    · rw [List.mem_singleton.mp h]
      exact ⟨[], rfl, rfl, by simp⟩

/-- The places of a run come with the longest run first. -/
theorem length_getElem_runs {most : Option ℕ} {j : ℕ} (hj : j < (runs p most b cs).length) :
    (runs p most b cs)[j].rest.length + ((runs p most b cs).length - 1 - j) = cs.length := by
  induction cs generalizing b most j with
  | nil =>
    simp only [runs, List.length_singleton, Nat.lt_one_iff] at hj
    subst hj
    rfl
  | cons c cs ih =>
    by_cases hc : (most ≠ some 0 && p c) = true
    · simp only [runs, hc, if_true, List.length_append, List.length_singleton] at hj ⊢
      by_cases hlast : j < (runs p (most.map Nat.pred) (some c) cs).length
      · have := ih hlast
        rw [List.getElem_append_left hlast, List.length_cons]
        omega
      · have hj' : j = (runs p (most.map Nat.pred) (some c) cs).length := by omega
        subst hj'
        simp
    · simp only [runs, hc, Bool.false_eq_true, if_false, List.length_singleton, Nat.lt_one_iff] at hj ⊢
      subst hj
      rfl

/-- What a class takes. -/
theorem run_of_mem_chars {least : ℕ} {most : Option ℕ} (h : place ∈ (chars p least most).ends isWord ⟨b, cs⟩) :
    ∃ run, cs = run ++ place.rest ∧ place.before = run.getLast?.or b ∧ (∀ c ∈ run, p c) ∧ least ≤ run.length := by
  simp only [ends] at h
  obtain ⟨run, hrun, hbefore, hall⟩ := run_of_mem_runs (List.mem_of_mem_take h)
  refine ⟨run, hrun, hbefore, hall, ?_⟩
  obtain ⟨j, hj, hplace⟩ := List.getElem_of_mem h
  rw [List.length_take] at hj
  rw [List.getElem_take] at hplace
  have := @length_getElem_runs p b cs most j (by omega)
  rw [hplace] at this
  have hlength := congrArg List.length hrun
  rw [List.length_append] at hlength
  omega

/-- What a pattern takes is what its classes take. -/
def Only (q : Char → Prop) : Re → Prop
  | chars p _ _ => ∀ c, p c → q c
  | boundary => True
  | seq first second => first.Only q ∧ second.Only q
  | alt first second => first.Only q ∧ second.Only q

/-- What a match takes, and the character before what is left. -/
theorem run_of_mem_ends {q : Char → Prop} {re : Re} (hre : re.Only q) (h : place ∈ re.ends isWord ⟨b, cs⟩) :
    ∃ run, cs = run ++ place.rest ∧ place.before = run.getLast?.or b ∧ ∀ c ∈ run, q c := by
  induction re generalizing b cs place with
  | chars p least most =>
    obtain ⟨run, hrun, hbefore, hall, -⟩ := run_of_mem_chars h
    exact ⟨run, hrun, hbefore, fun c hc => hre c (hall c hc)⟩
  | boundary =>
    obtain ⟨-, rfl⟩ := mem_ends_boundary.mp h
    exact ⟨[], rfl, rfl, by simp⟩
  | seq first second ihfirst ihsecond =>
    obtain ⟨mid, hmid, h⟩ := mem_ends_seq.mp h
    obtain ⟨run, hrun, hbefore, hall⟩ := ihfirst hre.1 hmid
    obtain ⟨run', hrun', hbefore', hall'⟩ := @ihsecond mid.before mid.rest place hre.2 h
    refine ⟨run ++ run', by rw [hrun, hrun', List.append_assoc], ?_, ?_⟩
    · rw [hbefore', hbefore, List.getLast?_append, Option.or_assoc]
    · intro c hc
      rcases List.mem_append.mp hc with hc | hc
      · exact hall c hc
      · exact hall' c hc
  | alt first second ihfirst ihsecond =>
    rcases List.mem_append.mp h with h | h
    · exact ihfirst hre.1 h
    · exact ihsecond hre.2 h

/-- Every pattern takes something, if only nothing. -/
theorem only_true (re : Re) : re.Only fun _ => True := by
  induction re with
  | chars p least most => exact fun _ _ => trivial
  | boundary => trivial
  | seq first second ihfirst ihsecond => exact ⟨ihfirst, ihsecond⟩
  | alt first second ihfirst ihsecond => exact ⟨ihfirst, ihsecond⟩

theorem length_rest_le {re : Re} {start : Place} (h : place ∈ re.ends isWord start) :
    place.rest.length ≤ start.rest.length := by
  obtain ⟨run, hrun, -⟩ := @run_of_mem_ends isWord start.before start.rest place _ re re.only_true h
  rw [hrun, List.length_append]
  omega

end Takes

/-! ## A text after a text -/

section Windows

variable {isWord : Char → Bool} {after : List Char}

/-- The places that are not beyond the beginning of what comes after. -/
def within (after : List Char) (places : List Place) : List Place :=
  places.filter fun place => after.length ≤ place.rest.length

theorem runs_cons_pos {p : Char → Bool} {most : Option ℕ} {c : Char} (hc : (most ≠ some 0 && p c) = true)
    (b : Option Char) (cs : List Char) :
    runs p most b (c :: cs) = runs p (most.map Nat.pred) (some c) cs ++ [⟨b, c :: cs⟩] := by
  rw [runs, if_pos hc]

theorem runs_cons_neg {p : Char → Bool} {most : Option ℕ} {c : Char} (hc : ¬ (most ≠ some 0 && p c) = true)
    (b : Option Char) (cs : List Char) : runs p most b (c :: cs) = [⟨b, c :: cs⟩] := by
  rw [runs, if_neg hc]

theorem runs_append (p : Char → Bool) (most : Option ℕ) (b : Option Char) (cs : List Char) :
    ∃ longer, runs p most b (cs ++ after) = longer ++ (runs p most b cs).map (Place.extend after) ∧
      ∀ place ∈ longer, place.rest.length < after.length := by
  induction cs generalizing b most with
  | nil =>
    cases after with
    | nil => exact ⟨[], rfl, by simp⟩
    | cons c after =>
      by_cases hc : (most ≠ some 0 && p c) = true
      · refine ⟨runs p (most.map Nat.pred) (some c) after, ?_, ?_⟩
        · rw [List.nil_append, runs_cons_pos hc]
          rfl
        · intro place hplace
          obtain ⟨run, hrun, -⟩ := run_of_mem_runs hplace
          rw [hrun, List.length_cons, List.length_append]
          omega
      · refine ⟨[], ?_, by simp⟩
        rw [List.nil_append, runs_cons_neg hc]
        rfl
  | cons c cs ih =>
    by_cases hc : (most ≠ some 0 && p c) = true
    · obtain ⟨longer, hruns, hlonger⟩ := ih (most.map Nat.pred) (some c)
      refine ⟨longer, ?_, hlonger⟩
      rw [List.cons_append, runs_cons_pos hc, runs_cons_pos hc, hruns, List.map_append, List.append_assoc]
      rfl
    · refine ⟨[], ?_, by simp⟩
      rw [List.cons_append, runs_cons_neg hc, runs_cons_neg hc]
      rfl

theorem flatMap_filter_of_nil {A B : Type*} {f : A → List B} {q : A → Bool} {xs : List A}
    (h : ∀ x, q x = false → f x = []) : (xs.filter q).flatMap f = xs.flatMap f := by
  induction xs with
  | nil => rfl
  | cons x xs ih =>
    by_cases hx : q x = true
    · rw [List.filter_cons_of_pos hx, List.flatMap_cons, List.flatMap_cons, ih]
    · rw [List.filter_cons_of_neg hx, List.flatMap_cons, h x (by simpa using hx), ih, List.nil_append]

theorem within_eq_nil {places : List Place} (h : ∀ place ∈ places, place.rest.length < after.length) :
    within after places = [] := by
  apply List.filter_eq_nil_iff.mpr
  intro place hplace
  simpa using h place hplace

theorem within_eq_self {places : List Place} (h : ∀ place ∈ places, after.length ≤ place.rest.length) :
    within after places = places := by
  apply List.filter_eq_self.mpr
  intro place hplace
  simpa using h place hplace

theorem within_map_extend (places : List Place) :
    within after (places.map (Place.extend after)) = places.map (Place.extend after) := by
  apply within_eq_self
  intro place hplace
  obtain ⟨inner, -, rfl⟩ := List.mem_map.mp hplace
  simp [Place.extend]

/-- The ends of a pattern that are within a text do not depend on what comes after, if no word goes on
there. -/
theorem within_ends (hafter : after.head?.any isWord = false) (re : Re) (b : Option Char) (cs : List Char) :
    within after (re.ends isWord ⟨b, cs ++ after⟩) = (re.ends isWord ⟨b, cs⟩).map (Place.extend after) := by
  induction re generalizing b cs with
  | chars p least most =>
    obtain ⟨longer, hruns, hlonger⟩ := @runs_append after p most b cs
    simp only [ends, hruns, List.length_append, List.length_map]
    rw [List.take_append, within, List.filter_append]
    have hnone : (longer.take (longer.length + (runs p most b cs).length - least)).filter
        (fun place => after.length ≤ place.rest.length) = [] :=
      within_eq_nil fun place hplace => hlonger place (List.mem_of_mem_take hplace)
    have hcount : longer.length + (runs p most b cs).length - least - longer.length =
        (runs p most b cs).length - least := by omega
    rw [hnone, List.nil_append, hcount, ← List.map_take]
    exact within_map_extend _
  | boundary =>
    have hhead : (cs ++ after).head?.any isWord = cs.head?.any isWord := by
      cases cs with
      | nil => simpa using hafter
      | cons c cs => rfl
    simp only [ends, hhead]
    split
    · exact within_map_extend [⟨b, cs⟩]
    · rfl
  | seq first second ihfirst ihsecond =>
    have hinner : ∀ mid : Place, within after (second.ends isWord (mid.extend after)) =
        (second.ends isWord mid).map (Place.extend after) := fun mid => ihsecond mid.before mid.rest
    -- What the first pattern leaves beyond the text, the second cannot bring back.
    have hbeyond : ∀ mid : Place, ¬ after.length ≤ mid.rest.length →
        within after (second.ends isWord mid) = [] := by
      intro mid hmid
      apply within_eq_nil
      intro place hplace
      have := length_rest_le hplace
      omega
    calc within after ((first.ends isWord ⟨b, cs ++ after⟩).flatMap (second.ends isWord))
        = (first.ends isWord ⟨b, cs ++ after⟩).flatMap fun mid => within after (second.ends isWord mid) :=
          List.filter_flatMap
      _ = (within after (first.ends isWord ⟨b, cs ++ after⟩)).flatMap fun mid =>
            within after (second.ends isWord mid) := (flatMap_filter_of_nil fun mid hmid => hbeyond mid (by simpa using hmid)).symm
      _ = (first.ends isWord ⟨b, cs⟩).flatMap fun mid => (second.ends isWord mid).map (Place.extend after) := by
          rw [ihfirst, List.flatMap_map]
          simp only [hinner]
      _ = ((first.ends isWord ⟨b, cs⟩).flatMap (second.ends isWord)).map (Place.extend after) := by
          rw [List.map_flatMap]
  | alt first second ihfirst ihsecond =>
    simp only [ends, within, List.filter_append, List.map_append] at ihfirst ihsecond ⊢
    rw [ihfirst, ihsecond]

/-- Two places with the same text left, both or neither after a word. -/
structure Alike (isWord : Char → Bool) (place other : Place) : Prop where
  rest : place.rest = other.rest
  word : place.before.any isWord = other.before.any isWord

theorem alike_runs (p : Char → Bool) (most : Option ℕ) {b b' : Option Char}
    (hb : b.any isWord = b'.any isWord) (cs : List Char) :
    List.Forall₂ (Alike isWord) (runs p most b cs) (runs p most b' cs) := by
  cases cs with
  | nil => exact .cons ⟨rfl, hb⟩ .nil
  | cons c cs =>
    by_cases hc : (most ≠ some 0 && p c) = true
    · rw [runs_cons_pos hc, runs_cons_pos hc]
      exact List.rel_append (List.forall₂_same.mpr fun _ _ => ⟨rfl, rfl⟩) (.cons ⟨rfl, hb⟩ .nil)
    · rw [runs_cons_neg hc, runs_cons_neg hc]
      exact .cons ⟨rfl, hb⟩ .nil

/-- Of what comes before, a pattern sees only whether a word ends there. -/
theorem alike_ends (re : Re) {b b' : Option Char} (hb : b.any isWord = b'.any isWord) (cs : List Char) :
    List.Forall₂ (Alike isWord) (re.ends isWord ⟨b, cs⟩) (re.ends isWord ⟨b', cs⟩) := by
  induction re generalizing b b' cs with
  | chars p least most =>
    have hruns := alike_runs p most hb cs
    simp only [ends, hruns.length_eq]
    exact List.forall₂_take _ hruns
  | boundary =>
    simp only [ends, hb]
    split
    · exact .cons ⟨rfl, hb⟩ .nil
    · exact .nil
  | seq first second ihfirst ihsecond =>
    apply List.rel_flatMap (ihfirst hb cs)
    rintro ⟨mid, rest⟩ ⟨mid', rest'⟩ ⟨hrest, hword⟩
    simp only at hrest hword
    subst hrest
    exact ihsecond hword rest
  | alt first second ihfirst ihsecond => exact List.rel_append (ihfirst hb cs) (ihsecond hb cs)

/-- The pieces do not depend on the fuel, if there is enough, nor on what comes before but for its being
a word. -/
theorem piecesFrom_congr (re : Re) {n m : ℕ} {b b' : Option Char} {cs : List Char} (hn : cs.length ≤ n)
    (hm : cs.length ≤ m) (hb : b.any isWord = b'.any isWord) :
    re.piecesFrom isWord n b cs = re.piecesFrom isWord m b' cs := by
  induction n generalizing m b b' cs with
  | zero =>
    obtain rfl : cs = [] := List.length_eq_zero_iff.mp (Nat.le_zero.mp hn)
    cases m with
    | zero => rfl
    | succ m => rfl
  | succ n ih =>
    cases cs with
    | nil =>
      cases m with
      | zero => rfl
      | succ m => rfl
    | cons c rest =>
      cases m with
      | zero => simp at hm
      | succ m =>
        simp only [List.length_cons, Nat.add_le_add_iff_right] at hn hm
        have halike := alike_ends re hb (c :: rest)
        simp only [piecesFrom]
        cases hends : re.ends isWord ⟨b, c :: rest⟩ with
        | nil =>
          rw [hends] at halike
          rw [List.forall₂_nil_left_iff.mp halike]
          simp only [List.head?_nil]
          rw [ih hn hm rfl]
        | cons place places =>
          rw [hends] at halike
          obtain ⟨other, others, hplace, -, hothers⟩ := List.forall₂_cons_left_iff.mp halike
          rw [hothers]
          simp only [List.head?_cons, hplace.rest]
          split
          · rename_i hless
            rw [List.length_cons] at hless
            rw [@ih m place.before other.before other.rest (by omega) (by omega) hplace.word]
          · rw [ih hn hm rfl]

/-- No match goes beyond the beginning of what comes after. -/
def Stays (isWord : Char → Bool) (re : Re) (after : List Char) : Prop :=
  ∀ b cs, ∀ place ∈ re.ends isWord ⟨b, cs ++ after⟩, after.length ≤ place.rest.length

/-- The pieces of a text and of what comes after it, if no match goes from one into the other. -/
theorem piecesFrom_append {re : Re} (hafter : after.head?.any isWord = false) (hstays : Stays isWord re after)
    {n : ℕ} {b : Option Char} {cs : List Char} (hn : (cs ++ after).length ≤ n) :
    ∃ b', re.piecesFrom isWord n b (cs ++ after) =
      re.piecesFrom isWord n b cs ++ re.piecesFrom isWord n b' after := by
  induction n generalizing b cs with
  | zero =>
    obtain ⟨rfl, rfl⟩ := List.append_eq_nil_iff.mp (List.length_eq_zero_iff.mp (Nat.le_zero.mp hn))
    exact ⟨b, rfl⟩
  | succ n ih =>
    cases cs with
    | nil => exact ⟨b, rfl⟩
    | cons c rest =>
      simp only [List.cons_append, List.length_cons, Nat.add_le_add_iff_right] at hn
      have hlength : after.length ≤ n := by
        rw [List.length_append] at hn
        omega
      have hends : re.ends isWord ⟨b, c :: (rest ++ after)⟩ =
          (re.ends isWord ⟨b, c :: rest⟩).map (Place.extend after) := by
        rw [← List.cons_append, ← within_ends hafter, within_eq_self (hstays b (c :: rest))]
      have hskip : ∃ b', Piece.skipped c :: re.piecesFrom isWord n (some c) (rest ++ after) =
          Piece.skipped c :: re.piecesFrom isWord n (some c) rest ++ re.piecesFrom isWord (n + 1) b' after := by
        obtain ⟨b', hb'⟩ := ih (b := some c) hn
        exact ⟨b', by rw [hb', List.cons_append, piecesFrom_congr re hlength (Nat.le_succ_of_le hlength) rfl]⟩
      simp only [List.cons_append, piecesFrom, hends, List.head?_map]
      cases hhead : (re.ends isWord ⟨b, c :: rest⟩).head? with
      | none => exact hskip
      | some place =>
        simp only [Option.map_some, Place.extend, List.length_cons, List.length_append]
        by_cases hless : place.rest.length < rest.length + 1
        · have hless' : place.rest.length + after.length < rest.length + after.length + 1 := by omega
          rw [if_pos hless, if_pos hless']
          have hshort : (place.rest ++ after).length ≤ n := by
            rw [List.length_append] at hn ⊢
            omega
          obtain ⟨b', hb'⟩ := @ih place.before place.rest hshort
          refine ⟨b', ?_⟩
          have hcount : rest.length + after.length + 1 - (place.rest.length + after.length) =
              rest.length + 1 - place.rest.length := by omega
          have htake : (c :: (rest ++ after)).take (rest.length + 1 - place.rest.length) =
              (c :: rest).take (rest.length + 1 - place.rest.length) := by
            rw [← List.cons_append, List.take_append_of_le_length]
            rw [List.length_cons]
            omega
          rw [hb', hcount, htake, List.cons_append,
            piecesFrom_congr re hlength (Nat.le_succ_of_le hlength) rfl]
        · have hless' : ¬ place.rest.length + after.length < rest.length + after.length + 1 := by omega
          rw [if_neg hless, if_neg hless']
          exact hskip

end Windows

/-! ## White space between the parts -/

/-- No run of white space of a width, and none at the ends. -/
structure Compact (width : ℕ) (run : List Char) : Prop where
  head : ∀ c ∈ run.head?, isSpace c = false
  last : ∀ c ∈ run.getLast?, isSpace c = false
  inner : ∀ before gap after, run = before ++ (gap ++ after) → (∀ c ∈ gap, isSpace c) → gap.length < width

/-- A pattern that takes compact texts only. -/
def TakesCompact (isWord : Char → Bool) (re : Re) (width : ℕ) : Prop :=
  ∀ b cs, ∀ place ∈ re.ends isWord ⟨b, cs⟩, ∃ run, cs = run ++ place.rest ∧ Compact width run

section Gaps

variable {isWord : Char → Bool} {re : Re} {width : ℕ} {gap rest : List Char}

/-- No match goes into a gap that is wide enough, nor into white space at the end. -/
theorem stays_of_compact (hre : TakesCompact isWord re width) (hgap : ∀ c ∈ gap, isSpace c)
    (hwide : width ≤ gap.length ∨ rest = []) : Stays isWord re (gap ++ rest) := by
  intro b cs place hplace
  obtain ⟨run, hrun, hcompact⟩ := hre b _ place hplace
  by_contra hless
  rw [Nat.not_le] at hless
  have hlengths := congrArg List.length hrun
  simp only [List.length_append] at hlengths hless
  obtain ⟨beyond, rfl, hbeyond⟩ : ∃ beyond, run = cs ++ beyond ∧ gap ++ rest = beyond ++ place.rest := by
    rcases List.append_eq_append_iff.mp hrun with ⟨beyond, hrun, hafter⟩ | ⟨beyond, hcs, hafter⟩
    · exact ⟨beyond, hrun, hafter⟩
    · have := congrArg List.length hafter
      simp only [List.length_append] at this
      omega
  rcases List.append_eq_append_iff.mp hbeyond with ⟨further, hfurther, hrest⟩ | ⟨further, hgapsplit, -⟩
  · subst hfurther
    have hinner := hcompact.inner cs gap further rfl hgap
    obtain rfl := hwide.resolve_left (Nat.not_le.mpr hinner)
    obtain ⟨rfl, hnil⟩ := List.append_eq_nil_iff.mp hrest.symm
    simp only [hnil, List.append_nil, List.length_nil] at hless hcompact
    have hne : gap ≠ [] := by
      rintro rfl
      simp at hless
    have hlast := hcompact.last (gap.getLast hne) (by simp [List.getLast?_append, List.getLast?_eq_getLast_of_ne_nil hne])
    rw [hgap _ (List.getLast_mem hne)] at hlast
    cases hlast
  · have hne : beyond ≠ [] := by
      rintro rfl
      rw [List.append_nil] at hlengths
      have := congrArg List.length hbeyond
      simp only [List.length_append, List.length_nil] at this
      omega
    have hlast := hcompact.last (beyond.getLast hne) (by simp [List.getLast?_append, List.getLast?_eq_getLast_of_ne_nil hne])
    rw [hgap _ (hgapsplit ▸ List.mem_append_left further (List.getLast_mem hne))] at hlast
    cases hlast

/-- No match begins in white space. -/
theorem piecesFrom_spaces (hre : TakesCompact isWord re width) (hword : ∀ c, isSpace c → isWord c = false)
    (hgap : ∀ c ∈ gap, isSpace c) {n : ℕ} {b : Option Char}
    (hb : gap = [] → b.any isWord = false) (hn : (gap ++ rest).length ≤ n) :
    re.piecesFrom isWord n b (gap ++ rest) = gap.map .skipped ++ re.piecesFrom isWord n none rest := by
  induction gap generalizing n b with
  | nil => exact piecesFrom_congr re hn hn (hb rfl)
  | cons c gap ih =>
    simp only [List.mem_cons, forall_eq_or_imp] at hgap
    cases n with
    | zero => simp at hn
    | succ n =>
      simp only [List.cons_append, List.length_cons, Nat.add_le_add_iff_right] at hn
      have hskip : re.piecesFrom isWord (n + 1) b (c :: (gap ++ rest)) =
          .skipped c :: re.piecesFrom isWord n (some c) (gap ++ rest) := by
        rw [piecesFrom]
        split
        · rename_i place hplace
          obtain ⟨run, hrun, hcompact⟩ := hre b _ place (List.mem_of_head? hplace)
          cases run with
          | nil =>
            rw [List.nil_append] at hrun
            rw [if_neg (by rw [← hrun]; exact Nat.lt_irrefl _)]
          | cons d run =>
            obtain ⟨rfl, -⟩ := List.cons.inj hrun
            have := hcompact.head c rfl
            rw [hgap.1] at this
            cases this
        · rfl
      have hrest : rest.length ≤ n := by
        rw [List.length_append] at hn
        omega
      have hnext : gap = [] → (some c).any isWord = false := fun _ => hword c hgap.1
      rw [List.cons_append, hskip, ih hgap.2 hnext hn, List.map_cons, List.cons_append,
        piecesFrom_congr re hrest (Nat.le_succ_of_le hrest) rfl]

variable {wanted : List Char → Bool}

theorem marks_eq {n : ℕ} {cs : List Char} (hn : cs.length ≤ n) :
    marks isWord re wanted cs = (re.piecesFrom isWord n none cs).flatMap (Piece.marks wanted) := by
  rw [marks, pieces, piecesFrom_congr re (Nat.le_refl _) hn rfl]

theorem flatMap_marks_skipped (gap : List Char) :
    (gap.map Piece.skipped).flatMap (Piece.marks wanted) = List.replicate gap.length false := by
  induction gap with
  | nil => rfl
  | cons c gap ih => rw [List.map_cons, List.flatMap_cons, ih]; rfl

/-- White space before a text is not marked. -/
theorem marks_spaces_append (hre : TakesCompact isWord re width) (hword : ∀ c, isSpace c → isWord c = false)
    (hgap : ∀ c ∈ gap, isSpace c) : marks isWord re wanted (gap ++ rest) =
      List.replicate gap.length false ++ marks isWord re wanted rest := by
  rw [marks, pieces, piecesFrom_spaces hre hword hgap (fun _ => rfl) (Nat.le_refl _), List.flatMap_append,
    flatMap_marks_skipped, ← marks_eq (by simp)]

/-- The marks of two texts with white space between them. -/
theorem marks_append (hre : TakesCompact isWord re width) (hword : ∀ c, isSpace c → isWord c = false)
    (hgap : ∀ c ∈ gap, isSpace c) (hwidth : 0 < width) (hwide : width ≤ gap.length ∨ rest = []) (cs : List Char) :
    marks isWord re wanted (cs ++ (gap ++ rest)) =
      marks isWord re wanted cs ++ (List.replicate gap.length false ++ marks isWord re wanted rest) := by
  have hnarrow : gap = [] → rest = [] := by
    rintro rfl
    exact hwide.resolve_left (by simp; omega)
  have hhead : (gap ++ rest).head?.any isWord = false := by
    cases gap with
    | nil => rw [hnarrow rfl]; rfl
    | cons c gap => exact hword c (hgap c List.mem_cons_self)
  obtain ⟨b', hpieces⟩ := @piecesFrom_append isWord (gap ++ rest) re hhead (stays_of_compact hre hgap hwide)
    (cs ++ (gap ++ rest)).length none cs (Nat.le_refl _)
  have hafter : (re.piecesFrom isWord (cs ++ (gap ++ rest)).length b' (gap ++ rest)).flatMap (Piece.marks wanted) =
      List.replicate gap.length false ++ marks isWord re wanted rest := by
    cases gap with
    | nil =>
      rw [hnarrow rfl]
      simp only [List.append_nil, List.length_nil, List.replicate_zero, List.nil_append, marks, pieces]
      cases cs.length <;> rfl
    | cons c gap =>
      rw [piecesFrom_spaces hre hword hgap (fun h => absurd h (List.cons_ne_nil c gap)) (by simp),
        List.flatMap_append, flatMap_marks_skipped, ← marks_eq (by simp; omega)]
  rw [marks, pieces, hpieces, List.flatMap_append, ← marks_eq (by simp), hafter]

/-- Every character of a text has a mark. -/
theorem length_piecesFrom_marks (n : ℕ) (b : Option Char) (cs : List Char) :
    ((re.piecesFrom isWord n b cs).flatMap (Piece.marks wanted)).length = cs.length := by
  induction n generalizing b cs with
  | zero =>
    rw [piecesFrom, flatMap_marks_skipped, List.length_replicate]
  | succ n ih =>
    cases cs with
    | nil => rfl
    | cons c rest =>
      have hskip : ((Piece.skipped c :: re.piecesFrom isWord n (some c) rest).flatMap (Piece.marks wanted)).length =
          (c :: rest).length := by
        rw [List.flatMap_cons, List.length_append, ih, List.length_cons, Nat.add_comm]
        rfl
      rw [piecesFrom]
      split
      · split
        · rename_i place _ hless
          rw [List.flatMap_cons, List.length_append, ih, Piece.marks, List.length_replicate, List.length_take]
          omega
        · exact hskip
      · exact hskip

theorem length_marks (cs : List Char) : (marks isWord re wanted cs).length = cs.length :=
  length_piecesFrom_marks cs.length none cs

theorem stop_le_of_mem_spansOf {pieces : List Piece} {offset : ℕ} {span : Span}
    (h : span ∈ spansOf wanted offset pieces) :
    span.start ≤ span.stop ∧ span.stop ≤ offset + (pieces.flatMap (Piece.marks wanted)).length := by
  induction pieces generalizing offset with
  | nil => simp [spansOf] at h
  | cons piece rest ih =>
    rw [List.flatMap_cons, List.length_append]
    cases piece with
    | skipped c =>
      have := ih h
      simp only [Piece.marks, List.length_singleton]
      omega
    | matched cs =>
      simp only [Piece.marks, List.length_replicate]
      rw [spansOf] at h
      split at h
      · rcases List.mem_cons.mp h with rfl | h
        · simp only
          omega
        · have := ih h
          omega
      · have := ih h
        omega

/-- Matches lie within the text. -/
theorem inBounds_of_mem_finditer {cs : List Char} {span : Span} (h : span ∈ re.finditer isWord wanted cs) :
    span.InBounds cs.length := by
  have hbounds := stop_le_of_mem_spansOf h
  rw [← marks, length_marks, Nat.zero_add] at hbounds
  exact hbounds

/-- A position is marked when a match covers it. -/
theorem mem_finditer {cs : List Char} {i : ℕ} :
    (∃ span ∈ re.finditer isWord wanted cs, span.start ≤ i ∧ i < span.stop) ↔
      (marks isWord re wanted cs)[i]? = some true := by
  rw [marks, ← @mem_spansOf wanted (re.pieces isWord cs) 0 i, Nat.zero_add]
  rfl

/-! ## Patterns that take compact texts -/

/-- A text without white space is compact. -/
theorem compact_of_forall {run : List Char} (h : ∀ c ∈ run, isSpace c = false) : Compact 1 run where
  head c hc := h c (List.mem_of_head? hc)
  last c hc := h c (List.mem_of_getLast? hc)
  inner before gap after hrun hgap := by
    cases gap with
    | nil => exact Nat.one_pos
    | cons c gap =>
      have hc := h c (by simp [hrun])
      rw [hgap c List.mem_cons_self] at hc
      cases hc

/-- A pattern without white space takes compact texts. -/
theorem takesCompact_of_only (hre : re.Only fun c => isSpace c = false) : TakesCompact isWord re 1 := by
  intro b cs place hplace
  obtain ⟨run, hrun, -, hall⟩ := run_of_mem_ends hre hplace
  exact ⟨run, hrun, compact_of_forall hall⟩

/-- No two characters of white space side by side, and none at the ends. -/
structure Sparse (run : List Char) : Prop where
  ne : run ≠ []
  chain : run.IsChain fun c d => isSpace c = false ∨ isSpace d = false
  head : ∀ c ∈ run.head?, isSpace c = false
  last : ∀ c ∈ run.getLast?, isSpace c = false

theorem Sparse.compact {run : List Char} (h : Sparse run) : Compact 2 run where
  head := h.head
  last := h.last
  inner before gap after hrun hgap := by
    match gap, hgap with
    | [], _ => exact Nat.two_pos
    | [c], _ => exact Nat.one_lt_two
    | c :: d :: gap, hgap =>
      have hchain := h.chain
      rw [hrun, List.isChain_append, List.cons_append, List.cons_append, List.isChain_cons_cons] at hchain
      have hc := hgap c (by simp)
      have hd := hgap d (by simp)
      rcases hchain.2.1.1 with hclear | hclear
      · rw [hc] at hclear
        cases hclear
      · rw [hd] at hclear
        cases hclear

theorem sparse_of_forall {run : List Char} (hne : run ≠ []) (h : ∀ c ∈ run, isSpace c = false) : Sparse run where
  ne := hne
  chain := by
    induction run with
    | nil => exact .nil
    | cons c run ih =>
      cases run with
      | nil => exact .singleton c
      | cons d run =>
        rw [List.isChain_cons_cons]
        exact ⟨Or.inl (h c List.mem_cons_self), ih (List.cons_ne_nil d run) fun e he => h e (List.mem_cons_of_mem c he)⟩
  head c hc := h c (List.mem_of_head? hc)
  last c hc := h c (List.mem_of_getLast? hc)

/-- A sparse text after a text without white space, with at most one character between them. -/
theorem Sparse.append {first between run : List Char} (h : Sparse run) (hne : first ≠ [])
    (hfirst : ∀ c ∈ first, isSpace c = false) (hbetween : between.length ≤ 1) :
    Sparse (first ++ (between ++ run)) := by
  have hsolid := sparse_of_forall hne hfirst
  constructor
  · simp [hne]
  · rw [List.isChain_append, List.isChain_append]
    refine ⟨hsolid.chain, ⟨?_, h.chain, fun c _ d hd => Or.inr (h.head d hd)⟩,
      fun c hc d _ => Or.inl (hsolid.last c hc)⟩
    match between, hbetween with
    | [], _ => exact .nil
    | [c], _ => exact .singleton c
  · intro c hc
    rw [List.head?_append_of_ne_nil _ hne] at hc
    exact hsolid.head c hc
  · intro c hc
    rw [← List.append_assoc, List.getLast?_append_of_ne_nil _ h.ne] at hc
    exact h.last c hc

/-- A pattern that takes sparse texts only. -/
def TakesSparse (isWord : Char → Bool) (re : Re) : Prop :=
  ∀ b cs, ∀ place ∈ re.ends isWord ⟨b, cs⟩, ∃ run, cs = run ++ place.rest ∧ Sparse run

theorem TakesSparse.compact (hre : TakesSparse isWord re) : TakesCompact isWord re 2 := by
  intro b cs place hplace
  obtain ⟨run, hrun, hsparse⟩ := hre b cs place hplace
  exact ⟨run, hrun, hsparse.compact⟩

section Sparse

variable {p : Char → Bool} {n : ℕ} {after : Re} (hp : ∀ c, p c → isSpace c = false)

include hp in
/-- Some characters of a class, and nothing more. -/
theorem takesSparse_end (hn : 0 < n) : TakesSparse isWord (seq (times n p) boundary) := by
  intro b cs place hplace
  obtain ⟨mid, hmid, hplace⟩ := mem_ends_seq.mp hplace
  obtain ⟨-, rfl⟩ := mem_ends_boundary.mp hplace
  obtain ⟨run, hrun, -, hall, hleast⟩ := run_of_mem_chars hmid
  refine ⟨run, hrun, sparse_of_forall ?_ fun c hc => hp c (hall c hc)⟩
  rintro rfl
  simp at hleast
  omega

include hp in
/-- Some characters of a class, an optional character, and more. -/
theorem TakesSparse.separated (hn : 0 < n) (hafter : TakesSparse isWord after) (separator : Char → Bool) :
    TakesSparse isWord (seq (times n p) (seq (maybe separator) after)) := by
  intro b cs place hplace
  obtain ⟨mid, hmid, hplace⟩ := mem_ends_seq.mp hplace
  obtain ⟨mid', hmid', hplace⟩ := mem_ends_seq.mp hplace
  obtain ⟨first, hfirst, -, hall, hleast⟩ := run_of_mem_chars hmid
  obtain ⟨run, hrun, hsparse⟩ := hafter _ _ place hplace
  have hne : first ≠ [] := by
    rintro rfl
    simp at hleast
    omega
  have hsolid : ∀ c ∈ first, isSpace c = false := fun c hc => hp c (hall c hc)
  rcases mem_ends_maybe.mp hmid' with rfl | ⟨c, rest, hmid, -, rfl⟩
  · refine ⟨first ++ ([] ++ run), ?_, hsparse.append hne hsolid (by simp)⟩
    rw [hfirst, hrun, List.nil_append, List.append_assoc]
  · refine ⟨first ++ ([c] ++ run), ?_, hsparse.append hne hsolid (by simp)⟩
    rw [hfirst, hmid, show rest = run ++ place.rest from hrun]
    simp

/-- Characters that are not white space, if any, and more. -/
theorem TakesSparse.after_only {first : Re} (hfirst : first.Only fun c => isSpace c = false)
    (hafter : TakesSparse isWord after) : TakesSparse isWord (seq first after) := by
  intro b cs place hplace
  obtain ⟨mid, hmid, hplace⟩ := mem_ends_seq.mp hplace
  obtain ⟨taken, htaken, -, hall⟩ := run_of_mem_ends hfirst hmid
  obtain ⟨run, hrun, hsparse⟩ := hafter _ _ place hplace
  refine ⟨taken ++ run, by rw [htaken, hrun, List.append_assoc], ?_⟩
  by_cases hne : taken = []
  · rwa [hne, List.nil_append]
  · exact @Sparse.append taken [] run hsparse hne hall (Nat.zero_le 1)

end Sparse

end Gaps

/-! ## Parts spread over a text -/

section Parts

variable {A : Type*} {char : A → Char} {isGap : A → Prop} {isWord : Char → Bool} {re : Re} {width : ℕ}
  {wanted : List Char → Bool}

/-- The elements of a list of characters with their marks. -/
def marked (char : A → Char) (isWord : Char → Bool) (re : Re) (wanted : List Char → Bool) (xs : List A) :
    List (A × Bool) := xs.zip (marks isWord re wanted (xs.map char))

/-- Parts in order, with gaps between them of a width or more; the first gap has a width of its own. -/
inductive Spread (isGap : A → Prop) (width : ℕ) : ℕ → List (List A) → List A → Prop
  | done {least : ℕ} {gap : List A} : (∀ x ∈ gap, isGap x) → Spread isGap width least [] gap
  | part {least : ℕ} {gap rest : List A} (part : List A) {parts : List (List A)} :
      (∀ x ∈ gap, isGap x) → least ≤ gap.length → Spread isGap width width parts rest →
      Spread isGap width least (part :: parts) (gap ++ (part ++ rest))

namespace Spread

variable {least : ℕ} {parts others : List (List A)} {xs ys gap : List A}

/-- One part and nothing else. -/
theorem singleton (part : List A) : Spread isGap width 0 [part] part := by
  have h := @Spread.part A isGap width 0 [] [] part [] (by simp) (Nat.zero_le _) (done (by simp))
  simpa using h

/-- What is in a part is in the text. -/
theorem mem (h : Spread isGap width least parts xs) {part : List A} (hpart : part ∈ parts) {x : A} (hx : x ∈ part) :
    x ∈ xs := by
  induction h with
  | done _ => simp at hpart
  | part first _ _ _ ih =>
    rcases List.mem_cons.mp hpart with rfl | hpart
    · exact List.mem_append_right _ (List.mem_append_left _ hx)
    · exact List.mem_append_right _ (List.mem_append_right _ (ih hpart))

/-- What is in the text is in a part or a gap. -/
theorem mem_part_or_gap (h : Spread isGap width least parts xs) {x : A} (hx : x ∈ xs) :
    (∃ part ∈ parts, x ∈ part) ∨ isGap x := by
  induction h with
  | done hgap => exact Or.inr (hgap x hx)
  | part first hgap _ _ ih =>
    rcases List.mem_append.mp hx with hx | hx
    · exact Or.inr (hgap x hx)
    · rcases List.mem_append.mp hx with hx | hx
      · exact Or.inl ⟨first, List.mem_cons_self, hx⟩
      · refine (ih hx).imp_left ?_
        rintro ⟨part, hpart, hx⟩
        exact ⟨part, List.mem_cons_of_mem first hpart, hx⟩

/-- A wider first gap. -/
theorem gap_append (hgap : ∀ x ∈ gap, isGap x) (h : Spread isGap width 0 parts xs) {least' : ℕ}
    (hleast : least' ≤ gap.length) : Spread isGap width least' parts (gap ++ xs) := by
  have hboth : ∀ more : List A, (∀ x ∈ more, isGap x) → ∀ x ∈ gap ++ more, isGap x := by
    intro more hmore x hx
    rcases List.mem_append.mp hx with hx | hx
    · exact hgap x hx
    · exact hmore x hx
  cases h with
  | done hmore => exact done (hboth _ hmore)
  | part first hmore _ hrest =>
    rw [← List.append_assoc]
    apply Spread.part first (hboth _ hmore) _ hrest
    rw [List.length_append]
    omega

/-- The parts of two texts, if the gap between them is wide enough. -/
theorem append (h : Spread isGap width least parts xs) (hleast : least ≤ width)
    (hothers : Spread isGap width width others ys) : Spread isGap width least (parts ++ others) (xs ++ ys) := by
  induction h with
  | done hgap =>
    cases hothers with
    | done hmore =>
      apply done
      intro x hx
      rcases List.mem_append.mp hx with hx | hx
      · exact hgap x hx
      · exact hmore x hx
    | part first hmore hwide hrest =>
      rw [← List.append_assoc]
      apply Spread.part first _ _ hrest
      · intro x hx
        rcases List.mem_append.mp hx with hx | hx
        · exact hgap x hx
        · exact hmore x hx
      · rw [List.length_append]
        omega
  | part first hgap hwide _ ih =>
    rw [List.cons_append, List.append_assoc, List.append_assoc]
    exact Spread.part first hgap hwide (ih (Nat.le_refl width))

/-- The parts of the parts. -/
theorem flatMap {isGap' : A → Prop} {width' least' : ℕ} {inner : List A → List (List A)}
    (hgaps : ∀ x, isGap x → isGap' x) (hwidth : width' ≤ width) (h : Spread isGap width least parts xs)
    (hinner : ∀ part ∈ parts, Spread isGap' width' 0 (inner part) part) (hleast : least' ≤ least) :
    Spread isGap' width' least' (parts.flatMap inner) xs := by
  induction h generalizing least' with
  | done hgap => exact done fun x hx => hgaps x (hgap x hx)
  | part first hgap hwide _ ih =>
    simp only [List.mem_cons, forall_eq_or_imp] at hinner
    rw [List.flatMap_cons]
    apply gap_append (fun x hx => hgaps x (hgap x hx)) _ (hleast.trans hwide)
    exact hinner.1.append (Nat.zero_le _) (ih hinner.2 hwidth)

/-- Parts that are joined by a separator. -/
theorem intercalate {separator : List A} (hseparator : ∀ x ∈ separator, isGap x) (hwide : width ≤ separator.length)
    (parts : List (List A)) : Spread isGap width 0 parts (separator.intercalate parts) := by
  induction parts with
  | nil => exact done (by simp)
  | cons first parts ih =>
    cases parts with
    | nil =>
      rw [List.intercalate_singleton]
      exact singleton first
    | cons second parts =>
      rw [List.intercalate_cons_cons, List.append_assoc]
      exact @Spread.part A isGap width 0 [] _ first _ (by simp) (Nat.zero_le _) (ih.gap_append hseparator hwide)

end Spread

theorem isSpace_map {gap : List A} (hspace : ∀ x, isGap x → isSpace (char x)) (hgap : ∀ x ∈ gap, isGap x) :
    ∀ c ∈ gap.map char, isSpace c := by
  intro c hc
  obtain ⟨x, hx, rfl⟩ := List.mem_map.mp hc
  exact hspace x (hgap x hx)

theorem marked_append {xs ys : List A} (h : marks isWord re wanted ((xs ++ ys).map char) =
      marks isWord re wanted (xs.map char) ++ marks isWord re wanted (ys.map char)) :
    marked char isWord re wanted (xs ++ ys) = marked char isWord re wanted xs ++ marked char isWord re wanted ys := by
  rw [marked, h, List.zip_append (by rw [length_marks, List.length_map])]
  rfl

section

variable (hre : TakesCompact isWord re width) (hword : ∀ c, isSpace c → isWord c = false)
  (hspace : ∀ x, isGap x → isSpace (char x))

include hre hword in
theorem marks_gap {gap : List Char} (hgap : ∀ c ∈ gap, isSpace c) :
    marks isWord re wanted gap = List.replicate gap.length false := by
  have h := @marks_spaces_append isWord re width gap [] wanted hre hword hgap
  rwa [List.append_nil, List.eq_nil_of_length_eq_zero (length_marks []), List.append_nil] at h

include hre hword hspace in
/-- A gap has no marks. -/
theorem marked_gap {gap : List A} (hgap : ∀ x ∈ gap, isGap x) {entry : A × Bool}
    (h : entry ∈ marked char isWord re wanted gap) : isGap entry.1 ∧ entry.2 = false := by
  rw [marked, marks_gap hre hword (isSpace_map hspace hgap)] at h
  obtain ⟨hfirst, hsecond⟩ := List.of_mem_zip h
  exact ⟨hgap _ hfirst, List.eq_of_mem_replicate hsecond⟩

include hre hword hspace in
theorem marked_gap_append {gap : List A} (hgap : ∀ x ∈ gap, isGap x) (rest : List A) :
    marked char isWord re wanted (gap ++ rest) =
      marked char isWord re wanted gap ++ marked char isWord re wanted rest := by
  apply marked_append
  rw [List.map_append, marks_spaces_append hre hword (isSpace_map hspace hgap),
    ← marks_gap hre hword (isSpace_map hspace hgap)]

include hre hword hspace in
/-- A part is marked as if nothing came after it. -/
theorem marked_part_append (hwidth : 0 < width) {parts : List (List A)} {rest : List A}
    (h : Spread isGap width width parts rest) (part : List A) :
    marked char isWord re wanted (part ++ rest) =
      marked char isWord re wanted part ++ marked char isWord re wanted rest := by
  apply marked_append
  cases h with
  | done hgap =>
    have happend := @marks_append isWord re width _ [] wanted hre hword (isSpace_map hspace hgap) hwidth
      (Or.inr rfl) (part.map char)
    rw [List.append_nil, List.eq_nil_of_length_eq_zero (length_marks []), List.append_nil] at happend
    rw [List.map_append, happend, marks_gap hre hword (isSpace_map hspace hgap)]
  | part other hgap hleast _ =>
    rw [List.map_append, List.map_append, marks_append hre hword (isSpace_map hspace hgap) hwidth
      (Or.inl (by rw [List.length_map]; exact hleast)), marks_spaces_append hre hword (isSpace_map hspace hgap)]

include hre hword hspace in
/-- The marks of a text are those of its parts. -/
theorem mem_marked_of_spread (hwidth : 0 < width) {least : ℕ} {parts : List (List A)} {xs : List A}
    (h : Spread isGap width least parts xs) {entry : A × Bool} (hentry : entry ∈ marked char isWord re wanted xs) :
    (∃ part ∈ parts, entry ∈ marked char isWord re wanted part) ∨ (isGap entry.1 ∧ entry.2 = false) := by
  induction h with
  | done hgap => exact Or.inr (marked_gap hre hword hspace hgap hentry)
  | part part hgap _ hrest ih =>
    rw [marked_gap_append hre hword hspace hgap, marked_part_append hre hword hspace hwidth hrest] at hentry
    rcases List.mem_append.mp hentry with h | h
    · exact Or.inr (marked_gap hre hword hspace hgap h)
    · rcases List.mem_append.mp h with h | h
      · exact Or.inl ⟨part, List.mem_cons_self, h⟩
      · refine (ih h).imp_left ?_
        rintro ⟨other, hother, h⟩
        exact ⟨other, List.mem_cons_of_mem part hother, h⟩

include hre hword hspace in
/-- The marks of the parts are marks of the text. -/
theorem mem_marked_of_part (hwidth : 0 < width) {least : ℕ} {parts : List (List A)} {xs : List A}
    (h : Spread isGap width least parts xs) {part : List A} (hpart : part ∈ parts) {entry : A × Bool}
    (hentry : entry ∈ marked char isWord re wanted part) : entry ∈ marked char isWord re wanted xs := by
  induction h with
  | done hgap => simp at hpart
  | part first hgap _ hrest ih =>
    rw [marked_gap_append hre hword hspace hgap, marked_part_append hre hword hspace hwidth hrest]
    rcases List.mem_cons.mp hpart with rfl | hpart
    · exact List.mem_append_right _ (List.mem_append_left _ hentry)
    · exact List.mem_append_right _ (List.mem_append_right _ (ih hpart))

end

end Parts

end Re

end FleetWorkflow.Python
