import FleetWorkflow.Python.Matches

/-!
# What a pattern takes

The matches of a pattern as a relation: the text that is taken at a place, the character before it and the text after it. The
backtracking matcher finds exactly these, and it finds the longest one first where no choice can be made up for later.
-/

namespace FleetWorkflow.Python

/-- A word begins or ends between two characters. -/
def Edge (isWord : Char → Bool) (before after : Option Char) : Prop := before.any isWord ≠ after.any isWord

namespace Re

variable {isWord : Char → Bool}

/-- A pattern takes a text between a character and a text. -/
def Takes (isWord : Char → Bool) : Re → Option Char → List Char → List Char → Prop
  | chars p least most, _, m, _ => (∀ c ∈ m, p c) ∧ least ≤ m.length ∧ ∀ n ∈ most, m.length ≤ n
  | boundary, b, m, rest => m = [] ∧ Edge isWord b rest.head?
  | seq first second, b, m, rest => ∃ m₁ m₂, m = m₁ ++ m₂ ∧ first.Takes isWord b m₁ (m₂ ++ rest) ∧
      second.Takes isWord (m₁.getLast?.or b) m₂ rest
  | alt first second, b, m, rest => first.Takes isWord b m rest ∨ second.Takes isWord b m rest

/-- The places of a bounded run of a class. -/
theorem mem_runs_bounded {p : Char → Bool} {most : Option ℕ} {b : Option Char} {cs : List Char} {place : Place} :
    place ∈ runs p most b cs ↔
      ∃ m rest, cs = m ++ rest ∧ (∀ c ∈ m, p c) ∧ (∀ n ∈ most, m.length ≤ n) ∧ place = ⟨m.getLast?.or b, rest⟩ := by
  induction cs generalizing most b with
  | nil =>
    simp only [runs, List.mem_singleton]
    constructor
    · intro h
      exact ⟨[], [], rfl, List.forall_mem_nil _, fun n _ => Nat.zero_le n, h⟩
    · rintro ⟨m, rest, hsplit, -, -, h⟩
      obtain ⟨rfl, rfl⟩ := List.append_eq_nil_iff.mp hsplit.symm
      exact h
  | cons c cs ih =>
    by_cases hc : (most ≠ some 0 && p c) = true
    · simp only [runs_cons_pos hc, List.mem_append, List.mem_singleton, ih]
      simp only [Bool.and_eq_true, decide_eq_true_eq] at hc
      constructor
      · rintro (⟨m, rest, rfl, hm, hmost, rfl⟩ | rfl)
        · refine ⟨c :: m, rest, rfl, List.forall_mem_cons.mpr ⟨hc.2, hm⟩, ?_, ?_⟩
          · intro n hn
            have hpred := hmost n.pred (Option.mem_map_of_mem _ hn)
            have hzero : n ≠ 0 := fun hzero => hc.1 (by rw [← hzero]; exact hn)
            rw [List.length_cons]
            rw [Nat.pred_eq_sub_one] at hpred
            omega
          · rw [List.getLast?_cons]
            cases m.getLast? <;> rfl
        · exact ⟨[], c :: cs, rfl, List.forall_mem_nil _, fun n _ => Nat.zero_le n, rfl⟩
      · rintro ⟨m, rest, hsplit, hm, hmost, rfl⟩
        cases m with
        | nil =>
          rw [List.nil_append] at hsplit
          exact .inr (by rw [hsplit]; rfl)
        | cons d m =>
          obtain ⟨rfl, rfl⟩ := List.cons.inj hsplit
          refine .inl ⟨m, rest, rfl, (List.forall_mem_cons.mp hm).2, ?_, ?_⟩
          · intro n hn
            obtain ⟨k, hk, rfl⟩ := Option.mem_map.mp hn
            have := hmost k hk
            rw [List.length_cons] at this
            rw [Nat.pred_eq_sub_one]
            omega
          · rw [List.getLast?_cons]
            cases m.getLast? <;> rfl
    · rw [runs_cons_neg hc, List.mem_singleton]
      constructor
      · rintro rfl
        exact ⟨[], c :: cs, rfl, List.forall_mem_nil _, fun n _ => Nat.zero_le n, rfl⟩
      · rintro ⟨m, rest, hsplit, hm, hmost, rfl⟩
        cases m with
        | nil =>
          rw [List.nil_append] at hsplit
          rw [hsplit]
          rfl
        | cons d m =>
          obtain ⟨rfl, rfl⟩ := List.cons.inj hsplit
          refine absurd ?_ hc
          simp only [Bool.and_eq_true, decide_eq_true_eq]
          refine ⟨fun hzero => ?_, (List.forall_mem_cons.mp hm).1⟩
          have := hmost 0 hzero
          rw [List.length_cons] at this
          omega

/-- The places of a class, from the least number of its characters on. -/
theorem mem_ends_chars {p : Char → Bool} {least : ℕ} {most : Option ℕ} {b : Option Char} {cs : List Char} {place : Place} :
    place ∈ (chars p least most).ends isWord ⟨b, cs⟩ ↔ place ∈ runs p most b cs ∧ least + place.rest.length ≤ cs.length := by
  simp only [ends, List.mem_take_iff_getElem]
  constructor
  · rintro ⟨j, hj, rfl⟩
    have hlength := length_getElem_runs (show j < (runs p most b cs).length by omega)
    exact ⟨List.getElem_mem _, by omega⟩
  · rintro ⟨hplace, hleast⟩
    obtain ⟨j, hj, rfl⟩ := List.getElem_of_mem hplace
    have hlength := length_getElem_runs hj
    exact ⟨j, by omega, rfl⟩

/-- The matcher finds the texts that the pattern takes. -/
theorem mem_ends {re : Re} {b : Option Char} {cs : List Char} {place : Place} :
    place ∈ re.ends isWord ⟨b, cs⟩ ↔
      ∃ m rest, cs = m ++ rest ∧ re.Takes isWord b m rest ∧ place = ⟨m.getLast?.or b, rest⟩ := by
  induction re generalizing b cs place with
  | chars p least most =>
    rw [mem_ends_chars, mem_runs_bounded]
    constructor
    · rintro ⟨⟨m, rest, rfl, hm, hmost, rfl⟩, hleast⟩
      rw [List.length_append] at hleast
      exact ⟨m, rest, rfl, ⟨hm, by simp only at hleast; omega, hmost⟩, rfl⟩
    · rintro ⟨m, rest, rfl, ⟨hm, hleast, hmost⟩, rfl⟩
      exact ⟨⟨m, rest, rfl, hm, hmost, rfl⟩, by rw [List.length_append]; simp only; omega⟩
  | boundary =>
    rw [mem_ends_boundary]
    constructor
    · rintro ⟨hedge, rfl⟩
      exact ⟨[], cs, rfl, ⟨rfl, hedge⟩, rfl⟩
    · rintro ⟨m, rest, rfl, ⟨rfl, hedge⟩, rfl⟩
      exact ⟨hedge, rfl⟩
  | seq first second ihfirst ihsecond =>
    rw [mem_ends_seq]
    constructor
    · rintro ⟨mid, hmid, hplace⟩
      obtain ⟨m₁, mrest, rfl, hfirst, rfl⟩ := ihfirst.mp hmid
      obtain ⟨m₂, rest, rfl, hsecond, rfl⟩ := ihsecond.mp hplace
      refine ⟨m₁ ++ m₂, rest, (List.append_assoc _ _ _).symm, ⟨m₁, m₂, rfl, hfirst, hsecond⟩, ?_⟩
      rw [List.getLast?_append, Option.or_assoc]
    · rintro ⟨m, rest, rfl, ⟨m₁, m₂, rfl, hfirst, hsecond⟩, rfl⟩
      refine ⟨_, ihfirst.mpr ⟨m₁, m₂ ++ rest, List.append_assoc _ _ _, hfirst, rfl⟩,
        ihsecond.mpr ⟨m₂, rest, rfl, hsecond, ?_⟩⟩
      rw [List.getLast?_append, Option.or_assoc]
  | alt first second ihfirst ihsecond =>
    rw [ends, List.mem_append, ihfirst, ihsecond]
    constructor
    · rintro (⟨m, rest, rfl, htakes, rfl⟩ | ⟨m, rest, rfl, htakes, rfl⟩)
      · exact ⟨m, rest, rfl, .inl htakes, rfl⟩
      · exact ⟨m, rest, rfl, .inr htakes, rfl⟩
    · rintro ⟨m, rest, rfl, htakes | htakes, rfl⟩
      · exact .inl ⟨m, rest, rfl, htakes, rfl⟩
      · exact .inr ⟨m, rest, rfl, htakes, rfl⟩

/-! ## What the smaller patterns take -/

section Smaller

variable {p : Char → Bool} {b : Option Char} {m rest : List Char}

/-- One character of a class. -/
@[simp] theorem takes_one : (one p).Takes isWord b m rest ↔ ∃ c, m = [c] ∧ p c = true := by
  rw [one, Takes]
  constructor
  · rintro ⟨hm, hleast, hmost⟩
    obtain ⟨c, rfl⟩ := List.length_eq_one_iff.mp (Nat.le_antisymm (hmost 1 rfl) hleast)
    exact ⟨c, rfl, hm c List.mem_cons_self⟩
  · rintro ⟨c, rfl, hc⟩
    simp [hc]

/-- A number of characters of a class. -/
@[simp] theorem takes_times {n : ℕ} : (times n p).Takes isWord b m rest ↔ (∀ c ∈ m, p c = true) ∧ m.length = n := by
  rw [times, Takes]
  constructor
  · rintro ⟨hm, hleast, hmost⟩
    exact ⟨hm, Nat.le_antisymm (hmost n rfl) hleast⟩
  · rintro ⟨hm, rfl⟩
    simpa using hm

/-- An optional character of a class. -/
@[simp] theorem takes_maybe : (maybe p).Takes isWord b m rest ↔ m = [] ∨ ∃ c, m = [c] ∧ p c = true := by
  rw [maybe, Takes]
  constructor
  · rintro ⟨hm, -, hmost⟩
    cases m with
    | nil => exact .inl rfl
    | cons c m =>
      have hlength := hmost 1 rfl
      rw [List.length_cons] at hlength
      obtain rfl := List.length_eq_zero_iff.mp (show m.length = 0 by omega)
      exact .inr ⟨c, rfl, hm c List.mem_cons_self⟩
  · rintro (rfl | ⟨c, rfl, hc⟩)
    · simp
    · simp [hc]

/-- One pattern after the other. -/
theorem takes_seq {first second : Re} : (seq first second).Takes isWord b m rest ↔
    ∃ m₁ m₂, m = m₁ ++ m₂ ∧ first.Takes isWord b m₁ (m₂ ++ rest) ∧ second.Takes isWord (m₁.getLast?.or b) m₂ rest := Iff.rfl

/-- No pattern takes nothing. -/
@[simp] theorem takes_all_nil : (all []).Takes isWord b m rest ↔ m = [] := by
  rw [all, Takes]
  constructor
  · rintro ⟨hm, -⟩
    exact List.eq_nil_iff_forall_not_mem.mpr fun c hc => Bool.false_ne_true (hm c hc)
  · rintro rfl
    simp

/-- A literal text. -/
@[simp] theorem takes_text {cs : List Char} : (text cs).Takes isWord b m rest ↔ m = cs := by
  rw [text]
  induction cs generalizing b m with
  | nil => exact takes_all_nil
  | cons c cs ih =>
    cases cs with
    | nil =>
      simp only [List.map_cons, List.map_nil, all, takes_one, decide_eq_true_eq]
      constructor
      · rintro ⟨d, hm, hd⟩
        rw [hm, hd]
      · exact fun hm => ⟨c, hm, rfl⟩
    | cons d cs =>
      simp only [List.map_cons, all, takes_seq, takes_one, decide_eq_true_eq] at ih ⊢
      constructor
      · rintro ⟨m₁, m₂, rfl, ⟨_, rfl, rfl⟩, hrest⟩
        rw [ih.mp hrest]
        rfl
      · rintro rfl
        exact ⟨[c], d :: cs, rfl, ⟨c, rfl, rfl⟩, ih.mpr rfl⟩

end Smaller

/-! ## The longest match first -/

/-- The matcher prefers the longest text that the pattern takes. -/
def Greedy (isWord : Char → Bool) (re : Re) : Prop :=
  ∀ b m rest m' rest', (re.ends isWord ⟨b, m ++ rest⟩).head? = some ⟨m.getLast?.or b, rest⟩ → m ++ rest = m' ++ rest' →
    re.Takes isWord b m' rest' → m'.length ≤ m.length

/-- The matches come with the longest one first. -/
def LongestFirst (isWord : Char → Bool) (re : Re) : Prop :=
  ∀ place, (re.ends isWord place).Pairwise fun longer shorter => longer.rest.length < shorter.rest.length

/-- Where the longest match comes first, it is preferred. -/
theorem LongestFirst.greedy {re : Re} (h : re.LongestFirst isWord) : re.Greedy isWord := by
  intro b m rest m' rest' hhead hsplit htakes
  have hmem : (⟨m'.getLast?.or b, rest'⟩ : Place) ∈ re.ends isWord ⟨b, m ++ rest⟩ := mem_ends.mpr ⟨m', rest', hsplit, htakes, rfl⟩
  have hlength := congrArg List.length hsplit
  rw [List.length_append, List.length_append] at hlength
  have hpairwise := h ⟨b, m ++ rest⟩
  cases hends : re.ends isWord ⟨b, m ++ rest⟩ with
  | nil => simp [hends] at hhead
  | cons first places =>
    rw [hends] at hhead hmem hpairwise
    obtain rfl := Option.some.inj hhead
    rcases List.mem_cons.mp hmem with heq | hmem
    · rw [(Place.mk.inj heq).2] at hlength
      omega
    · have hshorter := (List.pairwise_cons.mp hpairwise).1 _ hmem
      simp only at hshorter
      omega

/-- Where only one text can be taken, it is preferred. -/
theorem greedy_of_unique {re : Re} (h : ∀ b m rest m' rest', re.Takes isWord b m rest → re.Takes isWord b m' rest' →
    m ++ rest = m' ++ rest' → m'.length ≤ m.length) : re.Greedy isWord := by
  intro b m rest m' rest' hhead hsplit htakes
  obtain ⟨m₀, rest₀, hsplit₀, htakes₀, hplace⟩ := mem_ends.mp (List.mem_of_head? hhead)
  rw [← (Place.mk.inj hplace).2] at hsplit₀ htakes₀
  rw [← List.append_cancel_right hsplit₀] at htakes₀
  exact h b m rest m' rest' htakes₀ htakes hsplit

/-- A run of a class comes with the longest one first. -/
theorem longestFirst_chars (p : Char → Bool) (least : ℕ) (most : Option ℕ) : (chars p least most).LongestFirst isWord := by
  intro place
  rw [ends]
  apply List.Pairwise.take
  rw [List.pairwise_iff_getElem]
  intro i j hi hj hlt
  have hfirst := length_getElem_runs hi
  have hsecond := length_getElem_runs hj
  omega

/-- A boundary takes nothing. -/
theorem longestFirst_boundary : boundary.LongestFirst isWord := by
  intro place
  rw [ends]
  split <;> simp

/-- A sequence comes with the longest match first when a longer first part leads to longer matches. -/
theorem LongestFirst.seq {first second : Re} (hfirst : first.LongestFirst isWord) (hsecond : second.LongestFirst isWord)
    (hcut : ∀ b m₁ rest₁ m₂ rest₂, first.Takes isWord b m₁ rest₁ → first.Takes isWord b m₂ rest₂ → m₁ ++ rest₁ = m₂ ++ rest₂ →
      m₂.length < m₁.length → ∀ n₁ t₁ n₂ t₂, rest₁ = n₁ ++ t₁ → rest₂ = n₂ ++ t₂ →
        second.Takes isWord (m₁.getLast?.or b) n₁ t₁ → second.Takes isWord (m₂.getLast?.or b) n₂ t₂ → t₁.length < t₂.length) :
    (Re.seq first second).LongestFirst isWord := by
  intro place
  rw [ends, List.pairwise_flatMap]
  refine ⟨fun mid _ => hsecond mid, ?_⟩
  apply List.Pairwise.imp_of_mem _ (hfirst place)
  intro mid mid' hmid hmid' hlt p hp q hq
  obtain ⟨m₁, rest₁, hsplit₁, htakes₁, rfl⟩ := mem_ends.mp hmid
  obtain ⟨m₂, rest₂, hsplit₂, htakes₂, rfl⟩ := mem_ends.mp hmid'
  obtain ⟨n₁, t₁, rfl, hsecond₁, rfl⟩ := mem_ends.mp hp
  obtain ⟨n₂, t₂, rfl, hsecond₂, rfl⟩ := mem_ends.mp hq
  have hlength := congrArg List.length (hsplit₁.symm.trans hsplit₂)
  simp only [List.length_append] at hlength hlt
  exact hcut _ m₁ _ m₂ _ htakes₁ htakes₂ (hsplit₁.symm.trans hsplit₂) (by omega) n₁ t₁ n₂ t₂ rfl rfl hsecond₁ hsecond₂

/-- What begins with one character of a class is determined up to it. -/
theorem LongestFirst.one_seq {p : Char → Bool} {second : Re} (hsecond : second.LongestFirst isWord) :
    (Re.seq (one p) second).LongestFirst isWord := by
  refine (longestFirst_chars p 1 (some 1)).seq hsecond ?_
  intro b m₁ rest₁ m₂ rest₂ htakes₁ htakes₂ _ hlt
  obtain ⟨c, rfl, -⟩ := takes_one.mp htakes₁
  obtain ⟨d, rfl, -⟩ := takes_one.mp htakes₂
  exact absurd hlt (Nat.lt_irrefl _)

/-- A run of a class that a character outside the class comes after is determined. -/
theorem LongestFirst.run_seq {p q : Char → Bool} {second : Re} (hpq : ∀ c, q c = true → p c = false)
    (hsecond : second.LongestFirst isWord) : (Re.seq (chars p 1 none) (Re.seq (one q) second)).LongestFirst isWord := by
  refine (longestFirst_chars p 1 none).seq hsecond.one_seq ?_
  intro b m₁ rest₁ m₂ rest₂ htakes₁ _ hsplit hlt n₁ t₁ n₂ t₂ _ hrest₂ _ hsecond₂
  obtain ⟨_, n, rfl, hone, -⟩ := hsecond₂
  obtain ⟨c, rfl, hc⟩ := takes_one.mp hone
  rcases List.append_eq_append_iff.mp hsplit with ⟨more, rfl, -⟩ | ⟨more, rfl, hmore⟩
  · rw [List.length_append] at hlt
    omega
  · cases more with
    | nil => simp at hlt
    | cons d more =>
      rw [hrest₂] at hmore
      have hd : c = d := (List.cons.inj hmore).1
      have := htakes₁.1 d (List.mem_append_right _ List.mem_cons_self)
      rw [← hd, hpq c hc] at this
      exact absurd this Bool.false_ne_true

/-- What ends at a boundary comes with the longest match first. -/
theorem LongestFirst.seq_boundary {first : Re} (hfirst : first.LongestFirst isWord) :
    (Re.seq first boundary).LongestFirst isWord := by
  refine hfirst.seq longestFirst_boundary ?_
  rintro b m₁ rest₁ m₂ rest₂ - - hsplit hlt n₁ t₁ n₂ t₂ rfl rfl ⟨rfl, -⟩ ⟨rfl, -⟩
  have hlength := congrArg List.length hsplit
  simp only [List.length_append, List.length_nil] at hlength
  omega

/-- What begins at a boundary is determined up to it. -/
theorem LongestFirst.boundary_seq {second : Re} (hsecond : second.LongestFirst isWord) :
    (Re.seq boundary second).LongestFirst isWord := by
  refine longestFirst_boundary.seq hsecond ?_
  rintro b m₁ rest₁ m₂ rest₂ ⟨rfl, -⟩ ⟨rfl, -⟩ - hlt
  exact absurd hlt (Nat.lt_irrefl _)

end Re

end FleetWorkflow.Python
