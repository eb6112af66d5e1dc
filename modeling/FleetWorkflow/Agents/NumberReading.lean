import Mathlib.Data.List.Induction
import Mathlib.Data.List.TakeWhile
import Mathlib.Tactic.NormNum
import FleetWorkflow.Agents.NumberGrounding
import FleetWorkflow.Python.Text
import FleetWorkflow.Python.Matches

/-!
# How numbers are read

Which numbers the check finds in a text, and what it makes of each: exactly, before they are rounded to doubles. A number
goes on over points and commas, also over the one that ends its sentence; a comma is the decimal sign only before the last
one or two digits of what was taken, and a point never is.
-/

namespace FleetWorkflow.Agents.InsightsPublisher

open Python Core Flow

/-! ## The numbers of a text -/

/-- The characters of a number after its first digit. -/
def inNumber (c : Char) : Bool := isDecimal c || c = '.' || c = ','

/-- The numbers of a text as they are written, after the characters of one that has begun. -/
def numberRunsFrom (begun : List Char) : List Char → List (List Char)
  | [] => if begun = [] then [] else [begun.reverse]
  | c :: rest =>
    if begun = [] then numberRunsFrom (if isDecimal c then [c] else []) rest
    else if inNumber c then numberRunsFrom (c :: begun) rest
    else begun.reverse :: numberRunsFrom [] rest

/-- The numbers of a text as they are written. -/
def numberRuns (cs : List Char) : List (List Char) := numberRunsFrom [] cs

/-- A text ends within a number. -/
def endsInNumber (cs : List Char) : Bool := (cs.reverse.takeWhile inNumber).any isDecimal

/-- A text goes on with a character of a number. -/
def continuesNumber (cs : List Char) : Bool := cs.head?.any inNumber

theorem inNumber_of_isDecimal {c : Char} (h : isDecimal c = true) : inNumber c = true := by simp [inNumber, h]

/-- A number that has begun takes what belongs to it. -/
theorem numberRunsFrom_append {run : List Char} (hrun : ∀ c ∈ run, inNumber c = true) {begun : List Char} (hne : begun ≠ [])
    (rest : List Char) : numberRunsFrom begun (run ++ rest) = numberRunsFrom (run.reverse ++ begun) rest := by
  induction run generalizing begun with
  | nil => rfl
  | cons c run ih =>
    obtain ⟨hc, hrun⟩ := List.forall_mem_cons.mp hrun
    rw [List.cons_append, numberRunsFrom, if_neg hne, if_pos hc, ih hrun (List.cons_ne_nil c begun), List.reverse_cons,
      List.append_assoc]
    rfl

/-- A number ends before what does not belong to it. -/
theorem numberRunsFrom_closed {begun rest : List Char} (hne : begun ≠ []) (hrest : continuesNumber rest = false) :
    numberRunsFrom begun rest = begun.reverse :: numberRuns rest := by
  cases rest with
  | nil => rw [numberRunsFrom, if_neg hne, numberRuns, numberRunsFrom, if_pos rfl]
  | cons c rest =>
    have hc : inNumber c = false := by simpa [continuesNumber] using hrest
    have hdigit : isDecimal c = false := by
      by_contra hdigit
      simp only [Bool.not_eq_false] at hdigit
      rw [inNumber_of_isDecimal hdigit] at hc
      cases hc
    rw [numberRunsFrom, if_neg hne, hc, numberRuns, numberRunsFrom, if_pos rfl, hdigit]
    rfl

/-- A digit begins a number, which goes on as far as it can. -/
theorem numberRuns_digit {d : Char} (hd : isDecimal d = true) {run : List Char} (hrun : ∀ c ∈ run, inNumber c = true)
    {rest : List Char} (hrest : continuesNumber rest = false) :
    numberRuns (d :: run ++ rest) = (d :: run) :: numberRuns rest := by
  rw [List.cons_append, numberRuns, numberRunsFrom, if_pos rfl, if_pos hd, numberRunsFrom_append hrun (List.cons_ne_nil d []),
    numberRunsFrom_closed (by simp) hrest]
  simp

/-- What begins no number is passed over. -/
theorem numberRuns_skip {run : List Char} (hrun : ∀ c ∈ run, isDecimal c = false) (rest : List Char) :
    numberRuns (run ++ rest) = numberRuns rest := by
  induction run with
  | nil => rfl
  | cons c run ih =>
    obtain ⟨hc, hrun⟩ := List.forall_mem_cons.mp hrun
    rw [List.cons_append, numberRuns, numberRunsFrom, if_pos rfl, hc]
    exact ih hrun

/-- The number that has begun after a text. -/
def begunAfter (begun : List Char) (c : Char) : List Char :=
  if begun = [] then (if isDecimal c then [c] else []) else if inNumber c then c :: begun else []

/-- A number has begun after a text that ends within one. -/
theorem foldl_begunAfter_ne_nil (cs : List Char) : cs.foldl begunAfter [] ≠ [] ↔ endsInNumber cs = true := by
  induction cs using List.reverseRecOn with
  | nil => simp [endsInNumber]
  | append_singleton cs c ih =>
    have hends : endsInNumber (cs ++ [c]) = (inNumber c && (isDecimal c || endsInNumber cs)) := by
      rw [endsInNumber, List.reverse_append, List.reverse_singleton, List.singleton_append, List.takeWhile_cons]
      by_cases hc : inNumber c = true
      · simp [hc, endsInNumber]
      · simp [hc]
    rw [List.foldl_append, List.foldl_cons, List.foldl_nil, hends, begunAfter]
    by_cases hbegun : cs.foldl begunAfter [] = []
    · have hnone : endsInNumber cs = false := by
        by_contra h
        exact ih.mpr (by simpa using h) hbegun
      rw [if_pos hbegun, hnone]
      by_cases hdigit : isDecimal c = true
      · simp [hdigit, inNumber_of_isDecimal hdigit]
      · simp [hdigit]
    · rw [if_neg hbegun, ih.mp hbegun]
      by_cases hc : inNumber c = true
      · simp [hc]
      · simp [hc]

/-- The numbers of a text that ends within none, and those of what follows. -/
theorem numberRuns_append {before : List Char} (hbefore : endsInNumber before = false) (rest : List Char) :
    numberRuns (before ++ rest) = numberRuns before ++ numberRuns rest := by
  have hscan : ∀ (cs begun : List Char), ∃ closed, ∀ rest,
      numberRunsFrom begun (cs ++ rest) = closed ++ numberRunsFrom (cs.foldl begunAfter begun) rest := by
    intro cs
    induction cs with
    | nil => exact fun begun => ⟨[], fun _ => rfl⟩
    | cons c cs ih =>
      intro begun
      obtain ⟨closed, hclosed⟩ := ih (begunAfter begun c)
      rw [List.foldl_cons]
      by_cases hbegun : begun = []
      · refine ⟨closed, fun rest => ?_⟩
        rw [← hclosed, List.cons_append, numberRunsFrom, if_pos hbegun, begunAfter, if_pos hbegun]
      · by_cases hc : inNumber c = true
        · refine ⟨closed, fun rest => ?_⟩
          rw [← hclosed, List.cons_append, numberRunsFrom, if_neg hbegun, if_pos hc, begunAfter, if_neg hbegun, if_pos hc]
        · refine ⟨begun.reverse :: closed, fun rest => ?_⟩
          have hnext : begunAfter begun c = [] := by rw [begunAfter, if_neg hbegun, if_neg hc]
          rw [List.cons_append, List.cons_append, numberRunsFrom, if_neg hbegun, if_neg hc, ← hclosed, hnext]
  obtain ⟨closed, hclosed⟩ := hscan before []
  have hstate : before.foldl begunAfter [] = [] := by
    by_contra hne
    rw [(foldl_begunAfter_ne_nil before).mp hne] at hbefore
    cases hbefore
  have hwhole := hclosed []
  rw [List.append_nil, hstate, numberRunsFrom, if_pos rfl, List.append_nil] at hwhole
  rw [numberRuns, hclosed, hstate, numberRuns, hwhole]
  rfl

/-! ## The tokens of the pattern -/

/-- What may stand before the digits of a token. -/
def isLead (c : Char) : Bool := c = '%' || isSpace c

theorem isDecimal_of_isLead {c : Char} (h : isLead c = true) : isDecimal c = false := by
  by_contra hdigit
  simp only [Bool.not_eq_false] at hdigit
  have hspace := isSpace_of_isDecimal hdigit
  have hpercent : c ≠ '%' := by
    rintro rfl
    revert hdigit
    decide
  simp [isLead, hspace, hpercent] at h

section Ends

variable {isWord : Char → Bool} {b : Option Char}

/-- The longest run of a class comes first. -/
theorem head_ends_many (p : Char → Bool) (b : Option Char) (cs : List Char) :
    ((Re.chars p 0 none).ends isWord ⟨b, cs⟩).head?.map Place.rest = some (cs.dropWhile p) := by
  simp only [Re.ends, Nat.sub_zero, List.take_length]
  induction cs generalizing b with
  | nil => rfl
  | cons c cs ih =>
    by_cases hc : p c = true
    · rw [Re.runs_cons_pos (by simpa using hc), List.head?_append, List.dropWhile_cons_of_pos hc, ← ih (some c)]
      cases hhead : (Re.runs p none (some c) cs).head? with
      | none =>
        have hnone := ih (some c)
        rw [hhead] at hnone
        cases hnone
      | some place => simp [hhead]
    · rw [Re.runs_cons_neg (by simpa using hc), List.dropWhile_cons_of_neg hc]
      rfl

/-- One character of a class and then a pattern. -/
theorem ends_one_seq {p : Char → Bool} {second : Re} {c : Char} {cs : List Char} :
    (Re.seq (.one p) second).ends isWord ⟨b, c :: cs⟩ = if p c then second.ends isWord ⟨some c, cs⟩ else [] := by
  have hnone : Re.runs p (some 0) (some c) cs = [⟨some c, cs⟩] := by
    cases cs with
    | nil => rfl
    | cons d cs => rfl
  by_cases hc : p c = true
  · simp [Re.one, Re.ends, Re.runs, hc, hnone]
  · simp [Re.one, Re.ends, Re.runs, hc]

/-- An optional character of a class and then a pattern, which may also begin without it. -/
theorem ends_maybe_seq {p : Char → Bool} {second : Re} {c : Char} {cs : List Char} :
    (Re.seq (.maybe p) second).ends isWord ⟨b, c :: cs⟩ =
      (if p c then second.ends isWord ⟨some c, cs⟩ else []) ++ second.ends isWord ⟨b, c :: cs⟩ := by
  have hnone : Re.runs p (some 0) (some c) cs = [⟨some c, cs⟩] := by
    cases cs with
    | nil => rfl
    | cons d cs => rfl
  by_cases hc : p c = true
  · simp [Re.maybe, Re.ends, Re.runs, hc, hnone]
  · simp [Re.maybe, Re.ends, Re.runs, hc]

/-- The digits of a token. -/
def digitsRe : Re := .seq (.one isDecimal) (.chars inNumber 0 none)

/-- A token at the start of a text, and what is left after it: digits, after a percent sign and a space or without them. -/
def TokenAt (cs rest : List Char) : Prop :=
  ∃ lead d more, cs = lead ++ d :: more ∧ (∀ c ∈ lead, isLead c = true) ∧ isDecimal d = true ∧ rest = more.dropWhile inNumber

/-- A match of a pattern is a token, and it matches where a digit is. -/
def MatchesTokens (isWord : Char → Bool) (re : Re) : Prop := ∀ b cs,
  (∀ place, (re.ends isWord ⟨b, cs⟩).head? = some place → TokenAt cs place.rest) ∧
    ∀ d more, cs = d :: more → isDecimal d = true → ∃ place, (re.ends isWord ⟨b, cs⟩).head? = some place

theorem matchesTokens_digitsRe : MatchesTokens isWord digitsRe := by
  intro b cs
  cases cs with
  | nil => simp [digitsRe, Re.ends, Re.one, Re.runs]
  | cons c cs =>
    rw [digitsRe, ends_one_seq]
    have hhead := @head_ends_many isWord inNumber (some c) cs
    by_cases hc : isDecimal c = true
    · rw [if_pos hc]
      refine ⟨fun place hplace => ?_, fun d more hsplit _ => ?_⟩
      · rw [hplace] at hhead
        exact ⟨[], c, cs, rfl, List.forall_mem_nil _, hc, Option.some.inj hhead⟩
      · cases h : ((Re.chars inNumber 0 none).ends isWord ⟨some c, cs⟩).head? with
        | none =>
          rw [h] at hhead
          cases hhead
        | some place => exact ⟨place, rfl⟩
    · rw [if_neg hc]
      refine ⟨fun place hplace => (by cases hplace), fun d more hsplit hd => ?_⟩
      cases hsplit
      exact absurd hd hc

/-- An optional sign before a token. -/
theorem MatchesTokens.maybe {p : Char → Bool} (hp : ∀ c, p c = true → isLead c = true) {re : Re}
    (hre : MatchesTokens isWord re) : MatchesTokens isWord (.seq (.maybe p) re) := by
  intro b cs
  cases cs with
  | nil =>
    refine ⟨fun place hplace => ?_, fun d more hsplit _ => by cases hsplit⟩
    apply (hre b []).1
    simpa [Re.ends, Re.maybe, Re.runs] using hplace
  | cons c cs =>
    rw [ends_maybe_seq]
    by_cases hc : p c = true
    · rw [if_pos hc]
      refine ⟨fun place hplace => ?_, fun d more hsplit hd => ?_⟩
      · rw [List.head?_append] at hplace
        cases hfirst : (re.ends isWord ⟨some c, cs⟩).head? with
        | some place' =>
          rw [hfirst] at hplace
          cases hplace
          obtain ⟨lead, d, more, rfl, hlead, hdigit, hrest⟩ := (hre (some c) cs).1 place hfirst
          exact ⟨c :: lead, d, more, rfl, List.forall_mem_cons.mpr ⟨hp c hc, hlead⟩, hdigit, hrest⟩
        | none =>
          rw [hfirst] at hplace
          exact (hre b (c :: cs)).1 place hplace
      · cases hsplit
        rw [isDecimal_of_isLead (hp c hc)] at hd
        cases hd
    · rw [if_neg hc, List.nil_append]
      exact hre b (c :: cs)

theorem matchesTokens_numberRe : MatchesTokens isWord numberRe :=
  .maybe (fun c hc => by simp_all [isLead]) (.maybe (fun c hc => by simp [isLead, hc]) matchesTokens_digitsRe)

end Ends

/-- A number as it is written: a digit and what belongs to it. -/
structure IsRun (run : List Char) : Prop where
  ne_nil : run ≠ []
  all : ∀ c ∈ run, inNumber c = true

/-- What the tokens of a rest are taken for is what its numbers are taken for. -/
theorem map_piecesFrom {β : Type} {f g : List Char → β} (isWord : Char → Bool)
    (h : ∀ lead run, (∀ c ∈ lead, isLead c = true) → IsRun run → f (lead ++ run) = g run) (n : ℕ) (b : Option Char)
    (cs : List Char) (hn : cs.length ≤ n) :
    ((numberRe.piecesFrom isWord n b cs).filterMap fun
      | .matched cs => some cs
      | .skipped _ => none).map f = (numberRuns cs).map g := by
  induction n generalizing b cs with
  | zero =>
    rw [List.length_eq_zero_iff.mp (Nat.le_zero.mp hn)]
    rfl
  | succ n ih =>
    cases cs with
    | nil => rfl
    | cons c cs =>
      rw [List.length_cons] at hn
      have hskip (hc : isDecimal c = false) : numberRuns (c :: cs) = numberRuns cs :=
        numberRuns_skip (List.forall_mem_singleton.mpr hc) cs
      obtain ⟨htoken, hmatch⟩ := @matchesTokens_numberRe isWord b (c :: cs)
      rw [Re.piecesFrom]
      cases hhead : (numberRe.ends isWord ⟨b, c :: cs⟩).head? with
      | none =>
        have hc : isDecimal c = false := by
          by_contra hdigit
          obtain ⟨place, hplace⟩ := hmatch c cs rfl (by simpa using hdigit)
          rw [hhead] at hplace
          cases hplace
        rw [hskip hc]
        exact ih _ cs (by omega)
      | some place =>
        obtain ⟨lead, d, more, hsplit, hlead, hd, hrest⟩ := htoken place hhead
        -- The token is what stands before the digits and the number that begins with them.
        have hnumber : ∀ c ∈ more.takeWhile inNumber, inNumber c = true := fun c hc => List.mem_takeWhile_imp hc
        have hwhole : c :: cs = (lead ++ d :: more.takeWhile inNumber) ++ place.rest := by
          rw [hsplit, hrest, List.append_assoc, List.cons_append, List.takeWhile_append_dropWhile]
        have hlength := congrArg List.length hwhole
        simp only [List.length_cons, List.length_append] at hlength
        have htake : (c :: cs).take ((c :: cs).length - place.rest.length) = lead ++ d :: more.takeWhile inNumber := by
          rw [hwhole, List.take_left']
          simp only [List.length_append, List.length_cons]
          omega
        have hclosed : continuesNumber place.rest = false := by
          rw [hrest, continuesNumber]
          cases hdrop : more.dropWhile inNumber with
          | nil => rfl
          | cons e rest =>
            have hne : more.dropWhile inNumber ≠ [] := by rw [hdrop]; exact List.cons_ne_nil e rest
            have hhead := List.head_dropWhile_not inNumber hne
            simpa [hdrop] using hhead
        have hruns : numberRuns (c :: cs) = (d :: more.takeWhile inNumber) :: numberRuns place.rest := by
          rw [hwhole, List.append_assoc, numberRuns_skip fun c hc => isDecimal_of_isLead (hlead c hc)]
          exact numberRuns_digit hd hnumber hclosed
        have hrun : IsRun (d :: more.takeWhile inNumber) :=
          ⟨List.cons_ne_nil _ _, List.forall_mem_cons.mpr ⟨inNumber_of_isDecimal hd, hnumber⟩⟩
        dsimp only
        rw [if_pos (by simp only [List.length_cons]; omega), htake, hruns, List.map_cons, ← h lead _ hlead hrun]
        exact congrArg (f _ :: ·) (ih place.before place.rest (by omega))

/-- What a token is taken for is what its number is taken for, if that does not depend on what stands before the digits. -/
theorem map_findall {β : Type} {f g : List Char → β} (isWord : Char → Bool)
    (h : ∀ lead run, (∀ c ∈ lead, isLead c = true) → IsRun run → f (lead ++ run) = g run) (cs : List Char) :
    (numberRe.findall isWord cs).map f = (numberRuns cs).map g :=
  map_piecesFrom isWord h cs.length none cs (Nat.le_refl _)

/-- The text of a number that is converted. -/
def convertedText (run : List Char) : List Char :=
  if endsInDecimals run then (run.filter (· ≠ '.')).map fun c => if c = ',' then '.' else c
  else run.filter fun c => c ≠ ',' && c ≠ '.'

/-- What belongs to a number is no percent sign and no space. -/
theorem not_isLead_of_inNumber {c : Char} (h : inNumber c = true) : isLead c = false := by
  simp only [inNumber, Bool.or_eq_true, decide_eq_true_eq] at h
  rcases h with (h | rfl) | rfl
  · by_contra hlead
    rw [isDecimal_of_isLead (by simpa using hlead)] at h
    cases h
  · rfl
  · rfl

/-- A percent sign or space before a number is dropped. -/
theorem normalText_append {lead run : List Char} (hlead : ∀ c ∈ lead, isLead c = true) (hrun : IsRun run) :
    normalText (lead ++ run) = convertedText run := by
  have hspace (c : Char) (hc : c ∈ run) : isSpace c = false ∧ c ≠ '%' := by
    have hnot := not_isLead_of_inNumber (hrun.all c hc)
    simp only [isLead, Bool.or_eq_false_iff, decide_eq_false_iff_not] at hnot
    exact hnot.symm
  have hkeep : run.filter (fun c => c ≠ '%' && c ≠ ' ') = run := by
    rw [List.filter_eq_self]
    intro c hc
    have hblank : c ≠ ' ' := by
      rintro rfl
      cases (hspace ' ' hc).1
    simp [(hspace c hc).2, hblank]
  have hfront : ∀ c ∈ lead.filter (fun c => c ≠ '%' && c ≠ ' '), isSpace c = true := by
    intro c hc
    obtain ⟨hmem, hne⟩ := List.mem_filter.mp hc
    have hor := hlead c hmem
    simp only [isLead, Bool.or_eq_true, decide_eq_true_eq] at hor
    exact hor.resolve_left (by simp at hne; exact hne.1)
  have hstrip : stripChars ((lead ++ run).filter fun c => c ≠ '%' && c ≠ ' ') = run := by
    have hhead (cs : List Char) (hne : cs ≠ []) (hcs : ∀ c ∈ cs, isSpace c = false) : cs.dropWhile isSpace = cs := by
      obtain ⟨c, rest, rfl⟩ := List.exists_cons_of_ne_nil hne
      rw [List.dropWhile_cons_of_neg (by simp [hcs c List.mem_cons_self])]
    rw [List.filter_append, hkeep, stripChars, List.dropWhile_append_of_pos hfront,
      hhead run hrun.ne_nil fun c hc => (hspace c hc).1,
      hhead run.reverse (by simpa using hrun.ne_nil) fun c hc => (hspace c (List.mem_reverse.mp hc)).1,
      List.reverse_reverse]
  rw [normalText, hstrip]
  rfl

/-- What is made of the tokens of a text is made of its numbers. -/
theorem filterMap_numberTokens {β : Type} (parse : List Char → Option β) (text : String) :
    ((numberTokens text).filterMap fun token => parse (normalText token)) =
      (numberRuns text.toList).filterMap fun run => parse (convertedText run) := by
  have hmap := @map_findall _ (fun token => parse (normalText token)) (fun run => parse (convertedText run)) (fun _ => false)
    (fun lead run hlead hrun => by rw [normalText_append hlead hrun]) text.toList
  have hid (f : List Char → Option β) (runs : List (List Char)) : runs.filterMap f = (runs.map f).filterMap id := by
    rw [List.filterMap_map]
    rfl
  rw [hid, numberTokens, hmap, ← hid]

/-! ## Exact numbers -/

/-- The number that `float(t)` rounds. -/
def numberOfText (t : List Char) : Option ℚ :=
  let whole := t.takeWhile isDecimal
  match t.dropWhile isDecimal with
  | [] => if whole = [] then none else some (decimalNumber whole)
  | '.' :: fraction =>
    if fraction.all isDecimal && whole ++ fraction ≠ [] then
      some (decimalNumber (whole ++ fraction) / 10 ^ fraction.length)
    else none
  | _ => none

/-- The numbers of a text before they are rounded. -/
def exactNumbers (text : String) : List ℚ := (numberTokens text).filterMap fun token => numberOfText (normalText token)

/-- The double that is extracted is written as the exact number is. -/
theorem floatOfText_numeral (t : List Char) : (floatOfText t = none ∧ numberOfText t = none) ∨
    ∃ (digits decimals : ℕ) (scaled : Bool), floatOfText t = some (Float.ofScientific digits scaled decimals) ∧
      (scaled = false → decimals = 0) ∧ numberOfText t = some ((digits : ℚ) / 10 ^ decimals) := by
  cases hdrop : t.dropWhile isDecimal with
  | nil =>
    simp only [floatOfText, numberOfText, hdrop]
    split
    · exact .inl ⟨rfl, rfl⟩
    · exact .inr ⟨_, 0, false, rfl, fun _ => rfl, by simp⟩
  | cons c fraction =>
    by_cases hc : c = '.'
    · subst hc
      simp only [floatOfText, numberOfText, hdrop]
      split
      · exact .inr ⟨_, _, true, rfl, fun h => (by cases h), rfl⟩
      · exact .inl ⟨rfl, rfl⟩
    · left
      simp [floatOfText, numberOfText, hdrop, hc]

/-- The numbers of a text are those of its runs. -/
theorem exactNumbers_eq (text : String) :
    exactNumbers text = (numberRuns text.toList).filterMap fun run => numberOfText (convertedText run) :=
  filterMap_numberTokens numberOfText text

theorem isDecimal_point : isDecimal '.' = false := by decide

theorem isDecimal_comma : isDecimal ',' = false := by decide

/-- Digits are read as their number. -/
theorem numberOfText_digits {digits : List Char} (hne : digits ≠ []) (h : ∀ c ∈ digits, isDecimal c = true) :
    numberOfText digits = some (decimalNumber digits : ℚ) := by
  have htake : digits.takeWhile isDecimal = digits := List.takeWhile_eq_self_iff.mpr h
  have hdrop : digits.dropWhile isDecimal = [] := List.dropWhile_eq_nil_iff.mpr h
  rw [numberOfText]
  simp only [htake, hdrop, if_neg hne]

/-- Digits around a point are read as their decimal fraction. -/
theorem numberOfText_decimal {whole fraction : List Char} (hne : whole ≠ []) (h : ∀ c ∈ whole, isDecimal c = true)
    (h' : ∀ c ∈ fraction, isDecimal c = true) : numberOfText (whole ++ '.' :: fraction) =
      some ((decimalNumber (whole ++ fraction) : ℚ) / 10 ^ fraction.length) := by
  have hnot : ¬ isDecimal '.' = true := by rw [isDecimal_point]; exact Bool.false_ne_true
  have htake : (whole ++ '.' :: fraction).takeWhile isDecimal = whole := by
    rw [List.takeWhile_append_of_pos h, List.takeWhile_cons_of_neg hnot, List.append_nil]
  have hdrop : (whole ++ '.' :: fraction).dropWhile isDecimal = '.' :: fraction := by
    rw [List.dropWhile_append_of_pos h, List.dropWhile_cons_of_neg hnot]
  have hall : fraction.all isDecimal = true := List.all_eq_true.mpr h'
  rw [numberOfText]
  simp only [htake, hdrop]
  rw [if_pos (by simp [hall, hne])]

/-! ## Numbers as they are written -/

/-- A number in one of the forms: digits, which points may group in threes, and then one or two decimals after a comma; or,
without groups, after a point. -/
structure WrittenNumber where
  first : List Char
  groups : List (List Char)
  point : Char
  fraction : List Char
  first_ne : first ≠ []
  first_digits : ∀ c ∈ first, isDecimal c = true
  groups_digits : ∀ group ∈ groups, group.length = 3 ∧ ∀ c ∈ group, isDecimal c = true
  first_short : groups ≠ [] → first.length ≤ 3
  fraction_digits : ∀ c ∈ fraction, isDecimal c = true
  fraction_short : fraction.length ≤ 2
  point_eq : point = ',' ∨ point = '.' ∧ groups = []

namespace WrittenNumber

/-- The digits before the decimals. -/
def whole (w : WrittenNumber) : List Char := w.first ++ w.groups.flatten

/-- The digits with their groups. -/
def grouped (w : WrittenNumber) : List Char := w.first ++ w.groups.flatMap fun group => '.' :: group

/-- The decimals with their sign. -/
def decimals (w : WrittenNumber) : List Char := if w.fraction = [] then [] else w.point :: w.fraction

/-- The number as it stands in a text. -/
def chars (w : WrittenNumber) : List Char := w.grouped ++ w.decimals

/-- The number that its digits write without a decimal sign. -/
def unscaled (w : WrittenNumber) : ℕ := decimalNumber (w.whole ++ w.fraction)

/-- The number. -/
def value (w : WrittenNumber) : ℚ := w.unscaled / 10 ^ w.fraction.length

/-- The number is read as it is written: it has no decimals, or they stand after a comma and no mark follows; or it is
nothing. -/
def ReadsRight (w : WrittenNumber) (mark : List Char) : Prop :=
  w.fraction = [] ∨ w.point = ',' ∧ mark = [] ∨ w.unscaled = 0

variable (w : WrittenNumber)

theorem whole_digits : ∀ c ∈ w.whole, isDecimal c = true := by
  intro c hc
  rcases List.mem_append.mp hc with hc | hc
  · exact w.first_digits c hc
  · obtain ⟨group, hgroup, hc⟩ := List.mem_flatten.mp hc
    exact (w.groups_digits group hgroup).2 c hc

theorem whole_ne : w.whole ≠ [] := by simp [whole, w.first_ne]

/-- Among the digits and their groups there are digits and points. -/
theorem grouped_chars : ∀ c ∈ w.grouped, isDecimal c = true ∨ c = '.' := by
  intro c hc
  rcases List.mem_append.mp hc with hc | hc
  · exact .inl (w.first_digits c hc)
  · obtain ⟨group, hgroup, hc⟩ := List.mem_flatMap.mp hc
    rcases List.mem_cons.mp hc with rfl | hc
    · exact .inr rfl
    · exact .inl ((w.groups_digits group hgroup).2 c hc)

theorem point_inNumber : inNumber w.point = true := by
  rcases w.point_eq with h | ⟨h, -⟩ <;> rw [h] <;> decide

/-- Without its points it is its digits. -/
theorem filter_grouped {p : Char → Bool} (hdigit : ∀ c, isDecimal c = true → p c = true) (hpoint : p '.' = false) :
    w.grouped.filter p = w.whole := by
  have hkeep (digits : List Char) (h : ∀ c ∈ digits, isDecimal c = true) : digits.filter p = digits :=
    List.filter_eq_self.mpr fun c hc => hdigit c (h c hc)
  have hgroups (groups : List (List Char)) (h : ∀ group ∈ groups, ∀ c ∈ group, isDecimal c = true) :
      (groups.flatMap fun group => '.' :: group).filter p = groups.flatten := by
    induction groups with
    | nil => rfl
    | cons group groups ih =>
      obtain ⟨hgroup, hgroups⟩ := List.forall_mem_cons.mp h
      rw [List.flatMap_cons, List.filter_append, List.filter_cons_of_neg (by simp [hpoint]), hkeep group hgroup, ih hgroups]
      rfl
  rw [grouped, List.filter_append, hkeep _ w.first_digits, hgroups _ fun group hgroup => (w.groups_digits group hgroup).2]
  rfl

/-- It begins with a digit, and goes on with what belongs to a number. -/
theorem exists_chars : ∃ d run, w.chars = d :: run ∧ isDecimal d = true ∧ ∀ c ∈ run, inNumber c = true := by
  obtain ⟨d, digits, hfirst⟩ := List.exists_cons_of_ne_nil w.first_ne
  have hall : ∀ c ∈ w.chars, inNumber c = true := by
    intro c hc
    rcases List.mem_append.mp hc with hc | hc
    · rcases w.grouped_chars c hc with hc | rfl
      · exact inNumber_of_isDecimal hc
      · decide
    · rw [decimals] at hc
      split at hc
      · cases hc
      · rcases List.mem_cons.mp hc with rfl | hc
        · exact w.point_inNumber
        · exact inNumber_of_isDecimal (w.fraction_digits c hc)
  have hd : isDecimal d = true := w.first_digits d (by rw [hfirst]; exact List.mem_cons_self)
  have hchars : w.chars = d :: (digits ++ (w.groups.flatMap fun group => '.' :: group) ++ w.decimals) := by
    rw [chars, grouped, hfirst]
    simp
  refine ⟨d, _, hchars, hd, fun c hc => hall c ?_⟩
  rw [hchars]
  exact List.mem_cons_of_mem d hc

end WrittenNumber

/-- Without a comma nothing is taken for decimals. -/
theorem endsInDecimals_of_notMem {t : List Char} (h : ',' ∉ t) : endsInDecimals t = false := by
  rw [← List.mem_reverse] at h
  rw [endsInDecimals]
  split
  · rename_i hreverse
    simp [hreverse] at h
  · rename_i hreverse
    simp [hreverse] at h
  · rfl

/-- After a mark nothing is taken for decimals. -/
theorem endsInDecimals_append {t mark : List Char} (hne : mark ≠ []) (hmark : ∀ c ∈ mark, isDecimal c = false) :
    endsInDecimals (t ++ mark) = false := by
  obtain ⟨c, rest, hreverse⟩ := List.exists_cons_of_ne_nil (by simpa using hne : mark.reverse ≠ [])
  have hc : isDecimal c = false := hmark c (List.mem_reverse.mp (by rw [hreverse]; exact List.mem_cons_self))
  rw [endsInDecimals, List.reverse_append, hreverse, List.cons_append]
  split
  · rename_i heq
    rw [← (List.cons.inj heq).1]
    exact hc
  · rename_i heq
    rw [← (List.cons.inj heq).1, hc]
    rfl
  · rfl

/-- One or two digits after a comma are taken for decimals. -/
theorem endsInDecimals_fraction {t fraction : List Char} (hne : fraction ≠ []) (hshort : fraction.length ≤ 2)
    (hdigits : ∀ c ∈ fraction, isDecimal c = true) : endsInDecimals (t ++ ',' :: fraction) = true := by
  match fraction, hne, hshort, hdigits with
  | [d], _, _, hdigits => simp [endsInDecimals, hdigits d]
  | [d, e], _, _, hdigits =>
    have hd : d ≠ ',' := by
      rintro rfl
      have hcomma := hdigits ',' List.mem_cons_self
      rw [isDecimal_comma] at hcomma
      cases hcomma
    have hreverse : (t ++ [',', d, e]).reverse = e :: d :: ',' :: t.reverse := by simp
    simp only [endsInDecimals, hreverse, hdigits d (by simp), hdigits e (by simp), Bool.and_self]

/-- Marks that end a sentence or a part of it. -/
def IsMark (mark : List Char) : Prop := ∀ c ∈ mark, c = '.' ∨ c = ','

theorem IsMark.inNumber {mark : List Char} (h : IsMark mark) : ∀ c ∈ mark, inNumber c = true := by
  intro c hc
  rcases h c hc with rfl | rfl <;> decide

theorem IsMark.isDecimal {mark : List Char} (h : IsMark mark) : ∀ c ∈ mark, isDecimal c = false := by
  intro c hc
  rcases h c hc with rfl | rfl <;> decide

namespace WrittenNumber

variable (w : WrittenNumber) {mark : List Char}

/-- The number that is read of it, with the marks that follow it. -/
def read (mark : List Char) : ℚ := if w.point = ',' ∧ mark = [] then w.value else w.unscaled

/-- Where nothing is taken for decimals, its digits are read. -/
theorem convertedText_grouping (hmark : IsMark mark) (hends : endsInDecimals (w.chars ++ mark) = false) :
    convertedText (w.chars ++ mark) = w.whole ++ w.fraction := by
  have hdigit (c : Char) (hc : isDecimal c = true) : (c ≠ ',' && c ≠ '.') = true := by
    have hcomma : c ≠ ',' := by
      rintro rfl
      rw [isDecimal_comma] at hc
      cases hc
    have hpoint : c ≠ '.' := by
      rintro rfl
      rw [isDecimal_point] at hc
      cases hc
    simp [hcomma, hpoint]
  have hdecimals : w.decimals.filter (fun c => c ≠ ',' && c ≠ '.') = w.fraction := by
    have hpoint : (w.point ≠ ',' && w.point ≠ '.') = false := by
      rcases w.point_eq with h | ⟨h, -⟩ <;> simp [h]
    rw [decimals]
    split
    · rename_i hnone
      rw [hnone]
      rfl
    · rw [List.filter_cons_of_neg (Bool.not_eq_true _ ▸ hpoint)]
      exact List.filter_eq_self.mpr fun c hc => hdigit c (w.fraction_digits c hc)
  have hmarks : mark.filter (fun c => c ≠ ',' && c ≠ '.') = [] := by
    rw [List.filter_eq_nil_iff]
    intro c hc
    rcases hmark c hc with rfl | rfl <;> simp
  rw [convertedText, hends, chars]
  simp only [Bool.false_eq_true, if_false]
  rw [List.filter_append, List.filter_append, w.filter_grouped hdigit rfl, hdecimals, hmarks, List.append_nil]

/-- After a comma the decimals are read. -/
theorem convertedText_decimals (hne : w.fraction ≠ []) (hpoint : w.point = ',') :
    convertedText w.chars = w.whole ++ '.' :: w.fraction := by
  have hends : endsInDecimals w.chars = true := by
    rw [chars, decimals, if_neg hne, hpoint]
    exact endsInDecimals_fraction hne w.fraction_short w.fraction_digits
  have hdigit (c : Char) (hc : isDecimal c = true) : decide (c ≠ '.') = true := by
    rw [decide_eq_true_eq]
    rintro rfl
    rw [isDecimal_point] at hc
    cases hc
  have hsame (digits : List Char) (h : ∀ c ∈ digits, isDecimal c = true) :
      digits.map (fun c => if c = ',' then '.' else c) = digits := by
    have hid : digits.map (fun c => if c = ',' then '.' else c) = digits.map id := by
      apply List.map_congr_left
      intro c hc
      apply if_neg
      rintro rfl
      have hcomma := h ',' hc
      rw [isDecimal_comma] at hcomma
      cases hcomma
    rw [hid, List.map_id]
  rw [convertedText, if_pos hends, chars, decimals, if_neg hne, hpoint, List.filter_append,
    w.filter_grouped hdigit rfl, List.filter_cons_of_pos (by decide),
    List.filter_eq_self.mpr fun c hc => hdigit c (w.fraction_digits c hc), List.map_append, hsame _ w.whole_digits,
    List.map_cons, hsame _ w.fraction_digits, if_pos rfl]

/-- What is read of a number. -/
theorem numberOfText_chars (hmark : IsMark mark) : numberOfText (convertedText (w.chars ++ mark)) = some (w.read mark) := by
  have hdigits : ∀ c ∈ w.whole ++ w.fraction, isDecimal c = true :=
    List.forall_mem_append.mpr ⟨w.whole_digits, w.fraction_digits⟩
  have hgrouping (hends : endsInDecimals (w.chars ++ mark) = false) (hread : w.read mark = w.unscaled) :
      numberOfText (convertedText (w.chars ++ mark)) = some (w.read mark) := by
    rw [w.convertedText_grouping hmark hends, hread]
    exact numberOfText_digits (by simp [w.whole_ne]) hdigits
  by_cases hmarked : mark = []
  · subst hmarked
    by_cases hfraction : w.fraction = []
    · -- Digits without decimals have no comma.
      apply hgrouping
      · apply endsInDecimals_of_notMem
        rw [List.append_nil, chars, decimals, if_pos hfraction, List.append_nil]
        intro hcomma
        rcases w.grouped_chars ',' hcomma with h | h
        · rw [isDecimal_comma] at h
          cases h
        · revert h
          decide
      · simp [read, value, hfraction]
    · by_cases hpoint : w.point = ','
      · rw [List.append_nil, w.convertedText_decimals hfraction hpoint,
          numberOfText_decimal w.whole_ne w.whole_digits w.fraction_digits, read, if_pos ⟨hpoint, rfl⟩]
        rfl
      · apply hgrouping
        · apply endsInDecimals_of_notMem
          obtain ⟨hdot, -⟩ := w.point_eq.resolve_left hpoint
          rw [List.append_nil, chars, decimals, if_neg hfraction, hdot]
          intro hcomma
          rcases List.mem_append.mp hcomma with h | h
          · rcases w.grouped_chars ',' h with h | h
            · rw [isDecimal_comma] at h
              cases h
            · revert h
              decide
          · rcases List.mem_cons.mp h with h | h
            · revert h
              decide
            · have hdigit := w.fraction_digits ',' h
              rw [isDecimal_comma] at hdigit
              cases hdigit
        · rw [read, if_neg fun h => hpoint h.1]
  · apply hgrouping
    · exact endsInDecimals_append hmarked hmark.isDecimal
    · rw [read, if_neg fun h => hmarked h.2]

/-- The value is read exactly when the number is read as it is written. -/
theorem read_eq_value : w.read mark = w.value ↔ w.ReadsRight mark := by
  rw [read, ReadsRight, value]
  by_cases hcomma : w.point = ',' ∧ mark = []
  · simp [hcomma]
  · rw [if_neg hcomma]
    by_cases hnone : w.fraction = []
    · simp [hnone]
    · have hpower : (1 : ℚ) < 10 ^ w.fraction.length := one_lt_pow₀ (by norm_num) (by simpa using hnone)
      have hiff : (w.unscaled : ℚ) = w.unscaled / 10 ^ w.fraction.length ↔ w.unscaled = 0 := by
        constructor
        · intro h
          by_contra hne
          have hne : (w.unscaled : ℚ) ≠ 0 := by exact_mod_cast hne
          rw [eq_div_iff (zero_lt_one.trans hpower).ne', mul_eq_left₀ hne] at h
          exact hpower.ne' h
        · intro h
          simp [h]
      rw [hiff]
      simp [hnone, hcomma]

/-- The number with its marks in a text. -/
def within (mark : List Char) (before rest : String) : String := before ++ String.ofList (w.chars ++ mark) ++ rest

/-- In every text that ends within no number before it, and does not go on with it, the number is read at its place. -/
def ReadAt (mark : List Char) : Prop := ∀ before rest : String, endsInNumber before.toList = false →
  continuesNumber rest.toList = false →
    exactNumbers (w.within mark before rest) = exactNumbers before ++ w.value :: exactNumbers rest

/-- What is read of a text with a number in it. -/
theorem exactNumbers_within (hmark : IsMark mark) {before rest : String} (hbefore : endsInNumber before.toList = false)
    (hrest : continuesNumber rest.toList = false) :
    exactNumbers (w.within mark before rest) = exactNumbers before ++ w.read mark :: exactNumbers rest := by
  obtain ⟨d, run, hchars, hd, hrun⟩ := w.exists_chars
  have hall : ∀ c ∈ run ++ mark, inNumber c = true := List.forall_mem_append.mpr ⟨hrun, hmark.inNumber⟩
  have hruns : numberRuns (before.toList ++ (w.chars ++ mark ++ rest.toList)) =
      numberRuns before.toList ++ (w.chars ++ mark) :: numberRuns rest.toList := by
    rw [numberRuns_append hbefore, hchars]
    exact congrArg _ (numberRuns_digit hd hall hrest)
  rw [exactNumbers_eq, exactNumbers_eq, exactNumbers_eq, within, String.toList_append, String.toList_append,
    String.toList_ofList, List.append_assoc, hruns, List.filterMap_append, List.filterMap_cons, w.numberOfText_chars hmark]

/-- A number is read at its place exactly when it is read as it is written. -/
theorem readAt_iff (hmark : IsMark mark) : w.ReadAt mark ↔ w.ReadsRight mark := by
  rw [← read_eq_value]
  constructor
  · intro h
    have hplace := h "" "" rfl rfl
    rw [w.exactNumbers_within hmark rfl rfl] at hplace
    exact (List.cons.inj (List.append_cancel_left hplace)).1
  · intro h before rest hbefore hrest
    rw [w.exactNumbers_within hmark hbefore hrest, h]

end WrittenNumber

end FleetWorkflow.Agents.InsightsPublisher
