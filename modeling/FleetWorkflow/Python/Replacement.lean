import FleetWorkflow.Python.Takes

/-!
# Replacing words of a language

A replacement goes through a text from left to right. At each place it takes the longest word of a language that stands between
two edges of words, and goes on after it; where none stands, it keeps the character. The characters may carry more than
themselves, so that one can say of each where it comes from.
-/

namespace FleetWorkflow.Python

/-- A word of a language stands between a character and a text. -/
def Stands (isWord : Char → Bool) (core : List Char → Prop) (b : Option Char) (m rest : List Char) : Prop :=
  core m ∧ Edge isWord b m.head? ∧ Edge isWord m.getLast? rest.head?

variable {A : Type} {isWord : Char → Bool} {char : A → Char} {core core' : List Char → Prop} {f : List A → List A}

/-- The replacement of the words of a language. -/
inductive Pass (char : A → Char) (isWord : Char → Bool) (core : List Char → Prop) (f : List A → List A) :
    Option Char → List A → List A → Prop
  | nil (b : Option Char) : Pass char isWord core f b [] []
  | replaced {b : Option Char} {m rest out : List A} (nonempty : m ≠ [])
      (stands : Stands isWord core b (m.map char) (rest.map char))
      (longest : ∀ m' rest', m ++ rest = m' ++ rest' → Stands isWord core b (m'.map char) (rest'.map char) →
        m'.length ≤ m.length)
      (next : Pass char isWord core f (m.map char).getLast? rest out) : Pass char isWord core f b (m ++ rest) (f m ++ out)
  | kept {b : Option Char} {x : A} {rest out : List A}
      (free : ∀ m rest', x :: rest = m ++ rest' → ¬ Stands isWord core b (m.map char) (rest'.map char))
      (next : Pass char isWord core f (some (char x)) rest out) : Pass char isWord core f b (x :: rest) (x :: out)

/-- The last character of a text that begins with a character. -/
theorem getLast?_cons_or (d : Char) (m : List Char) (b : Option Char) :
    (d :: m).getLast?.or b = m.getLast?.or (some d) := by
  rw [List.getLast?_cons]
  cases m.getLast? <;> rfl

/-- The last character of a text that is not empty. -/
theorem getLast?_or_of_ne_nil {m : List Char} (h : m ≠ []) (b : Option Char) : m.getLast?.or b = m.getLast? := by
  cases m with
  | nil => exact absurd rfl h
  | cons c m => rw [List.getLast?_cons, Option.some_or]

/-- The last character of a text after a text that is not empty. -/
theorem getLast?_append_or {m : List Char} (h : m ≠ []) (before : List Char) (b : Option Char) :
    (m ++ before).getLast?.or b = before.getLast?.or m.getLast? := by
  rw [List.getLast?_append, Option.or_assoc, getLast?_or_of_ne_nil h]

/-! ## The replacement of a pattern -/

/-- The parts of a text after a replacement, where the characters may carry more. -/
def replacePieces (f : List A → List A) : List Re.Piece → List A → List A
  | [], _ => []
  | .matched cs :: rest, xs => f (xs.take cs.length) ++ replacePieces f rest (xs.drop cs.length)
  | .skipped _ :: rest, xs => xs.take 1 ++ replacePieces f rest (xs.drop 1)

/-- `pattern.sub(f, text)`, where the characters may carry more. -/
def Re.subBy (char : A → Char) (isWord : Char → Bool) (re : Re) (f : List A → List A) (xs : List A) : List A :=
  replacePieces f (re.pieces isWord (xs.map char)) xs

/-- A pattern takes the words of a language, the longest first. -/
structure Re.Spells (isWord : Char → Bool) (re : Re) (core : List Char → Prop) : Prop where
  takes : ∀ b m rest, re.Takes isWord b m rest ↔ Stands isWord core b m rest
  nonempty : ¬ core []
  greedy : re.Greedy isWord

/-- The replacement of a pattern replaces the words of its language. -/
theorem pass_pieces {re : Re} (hre : re.Spells isWord core) {n : ℕ} {b : Option Char} {xs : List A} (hn : xs.length ≤ n) :
    Pass char isWord core f b xs (replacePieces f (re.piecesFrom isWord n b (xs.map char)) xs) := by
  induction n generalizing b xs with
  | zero =>
    obtain rfl := List.length_eq_zero_iff.mp (Nat.le_zero.mp hn)
    exact .nil b
  | succ n ih =>
    cases xs with
    | nil => exact .nil b
    | cons x rest =>
      have hkept (hnone : re.ends isWord ⟨b, (x :: rest).map char⟩ = []) :
          Pass char isWord core f b (x :: rest) (x :: replacePieces f (re.piecesFrom isWord n (some (char x)) (rest.map char)) rest) := by
        apply Pass.kept
        · intro m rest' hsplit hstands
          have hmem : (⟨(m.map char).getLast?.or b, rest'.map char⟩ : Place) ∈ re.ends isWord ⟨b, (x :: rest).map char⟩ :=
            Re.mem_ends.mpr ⟨m.map char, rest'.map char, by rw [hsplit, List.map_append], (hre.takes _ _ _).mpr hstands, rfl⟩
          rw [hnone] at hmem
          exact List.not_mem_nil hmem
        · exact ih (Nat.le_of_succ_le_succ hn)
      rw [List.map_cons, Re.piecesFrom]
      cases hhead : (re.ends isWord ⟨b, char x :: rest.map char⟩).head? with
      | none => exact hkept (List.head?_eq_none_iff.mp hhead)
      | some place =>
        obtain ⟨m, after, hsplit, htakes, rfl⟩ := Re.mem_ends.mp (List.mem_of_head? hhead)
        rw [← List.map_cons] at hsplit
        obtain ⟨taken, left, htaken, rfl, rfl⟩ := List.map_eq_append_iff.mp hsplit
        have hstands := (hre.takes _ _ _).mp htakes
        have hne : taken ≠ [] := by
          rintro rfl
          exact hre.nonempty hstands.1
        have hpos := List.length_pos_iff.mpr hne
        have hlength := congrArg List.length htaken
        rw [List.length_append] at hlength
        rw [← List.map_cons, htaken] at hhead ⊢
        have hlast : (taken.map char).getLast?.or b = (taken.map char).getLast? := by
          cases taken with
          | nil => exact absurd rfl hne
          | cons y ys => simp [List.getLast?_cons]
        have hlt : (left.map char).length < ((taken ++ left).map char).length := by simpa using hpos
        simp only [hlt, if_true, hlast]
        have htake : ((taken ++ left).map char).take (((taken ++ left).map char).length - (left.map char).length) =
            taken.map char := by simp
        rw [htake, replacePieces, List.length_map, List.take_left, List.drop_left]
        apply Pass.replaced hne hstands
        · intro m' rest' hsplit' hstands'
          have := hre.greedy b (taken.map char) (left.map char) (m'.map char) (rest'.map char) (by rw [← List.map_append, hhead])
            (by rw [← List.map_append, hsplit', List.map_append]) ((hre.takes _ _ _).mpr hstands')
          simpa using this
        · apply ih
          rw [List.length_cons] at hn
          simp only [List.length_cons] at hlength
          omega

/-- The replacement of a pattern in a text. -/
theorem pass_subBy {re : Re} (hre : re.Spells isWord core) (xs : List A) :
    Pass char isWord core f none xs (re.subBy char isWord f xs) :=
  pass_pieces hre (List.length_map char ▸ Nat.le_refl _)

/-- Where only some words are replaced and no word to be replaced stands in one that is spared, the others are as kept. -/
theorem Pass.spared {wanted : List Char → Bool} {g : List A → List A}
    (hspared : ∀ b m rest, Stands isWord core b m rest → wanted m = false → ∀ u v m' rest', m = u ++ v → v ≠ [] →
      v ++ rest = m' ++ rest' → Stands isWord core (u.getLast?.or b) m' rest' → wanted m' = false)
    {b : Option Char} {xs out : List A}
    (h : Pass char isWord core (fun m => if wanted (m.map char) then g m else m) b xs out) :
    Pass char isWord (fun m => core m ∧ wanted m = true) g b xs out := by
  induction h with
  | nil b => exact .nil b
  | @replaced b m rest out nonempty stands longest _ ih =>
    cases hwanted : wanted (m.map char) with
    | true =>
      rw [if_pos rfl]
      exact .replaced nonempty ⟨⟨stands.1, hwanted⟩, stands.2⟩
        (fun m' rest' hsplit hstands => longest m' rest' hsplit ⟨hstands.1.1, hstands.2⟩) ih
    | false =>
      rw [if_neg Bool.false_ne_true]
      -- the characters of a spared word are kept one by one
      have hsuffix : ∀ v u, m = u ++ v → Pass char isWord (fun m => core m ∧ wanted m = true) g ((u.map char).getLast?.or b)
          (v ++ rest) (v ++ out) := by
        intro v
        induction v with
        | nil =>
          intro u hsplit
          rw [List.append_nil] at hsplit
          rw [← hsplit, getLast?_or_of_ne_nil (by simpa using nonempty)]
          exact ih
        | cons x v ihv =>
          intro u hsplit
          apply Pass.kept
          · intro m' rest' hsplit' hstands
            have hnever := hspared b (m.map char) (rest.map char) stands hwanted (u.map char) ((x :: v).map char) (m'.map char)
              (rest'.map char) (by rw [hsplit, List.map_append]) (by simp)
              (by rw [← List.map_append, ← List.map_append, ← hsplit']; rfl) ⟨hstands.1.1, hstands.2⟩
            exact Bool.false_ne_true (hnever.symm.trans hstands.1.2)
          · have := ihv (u ++ [x]) (by rw [hsplit, List.append_assoc]; rfl)
            simpa using this
      exact hsuffix m [] rfl
  | @kept b x rest out free _ ih =>
    exact .kept (fun m rest' hsplit hstands => free m rest' hsplit ⟨hstands.1.1, hstands.2⟩) ih

/-! ## Characters that carry more -/

/-- The parts of a text make up the text. -/
theorem flatMap_chars_piecesFrom {re : Re} {n : ℕ} {b : Option Char} {cs : List Char} :
    (re.piecesFrom isWord n b cs).flatMap Re.Piece.chars = cs := by
  induction n generalizing b cs with
  | zero =>
    rw [Re.piecesFrom]
    induction cs with
    | nil => rfl
    | cons c cs ih => simpa [Re.Piece.chars] using ih
  | succ n ih =>
    cases cs with
    | nil => rfl
    | cons c cs =>
      have hskip : (Re.Piece.skipped c :: re.piecesFrom isWord n (some c) cs).flatMap Re.Piece.chars = c :: cs := by
        simp [Re.Piece.chars, ih]
      rw [Re.piecesFrom]
      cases hhead : (re.ends isWord ⟨b, c :: cs⟩).head? with
      | none => exact hskip
      | some place =>
        obtain ⟨m, rest, hsplit, -, rfl⟩ := Re.mem_ends.mp (List.mem_of_head? hhead)
        simp only
        split
        · simp [Re.Piece.chars, ih, hsplit]
        · exact hskip

/-- What the characters carry is no matter to the replacement. -/
theorem map_replacePieces {g : List Char → List Char} (hf : ∀ m, (f m).map char = g (m.map char)) {pieces : List Re.Piece}
    {xs : List A} (hpieces : pieces.flatMap Re.Piece.chars = xs.map char) :
    (replacePieces f pieces xs).map char = pieces.flatMap (Re.Piece.replaced g) := by
  induction pieces generalizing xs with
  | nil => rfl
  | cons piece pieces ih =>
    rw [List.flatMap_cons] at hpieces
    obtain ⟨ys, zs, rfl, hys, hzs⟩ := List.map_eq_append_iff.mp hpieces.symm
    cases piece with
    | matched cs =>
      have hlength : cs.length = ys.length := by rw [← show ys.map char = cs from hys, List.length_map]
      rw [replacePieces, hlength, List.take_left, List.drop_left, List.map_append, hf, hys, ih hzs.symm]
      rfl
    | skipped c =>
      obtain ⟨y, rfl, hy⟩ := List.map_eq_singleton_iff.mp hys
      rw [replacePieces, List.map_append, List.flatMap_cons, ← ih hzs.symm]
      simp [hy, Re.Piece.replaced]

/-- What the characters carry is no matter to the replacement of a pattern. -/
theorem map_subBy {re : Re} {g : List Char → List Char} (hf : ∀ m, (f m).map char = g (m.map char)) (xs : List A) :
    (re.subBy char isWord f xs).map char = re.sub isWord g (xs.map char) :=
  map_replacePieces hf flatMap_chars_piecesFrom

/-- A replacement of plain characters. -/
theorem pass_sub {re : Re} (hre : re.Spells isWord core) (f : List Char → List Char) (cs : List Char) :
    Pass id isWord core f none cs (re.sub isWord f cs) := by
  have hsub := @map_subBy Char isWord id f re f (fun m => by simp) cs
  rw [List.map_id, List.map_id] at hsub
  rw [← hsub]
  exact pass_subBy hre cs

/-- A word that is found stands in the text. -/
theorem stands_of_mem_pieces {re : Re} (hre : re.Spells isWord core) {n : ℕ} {b : Option Char} {cs m : List Char}
    (h : .matched m ∈ re.piecesFrom isWord n b cs) :
    ∃ before after, cs = before ++ m ++ after ∧ Stands isWord core (before.getLast?.or b) m after := by
  induction n generalizing b cs with
  | zero =>
    rw [Re.piecesFrom] at h
    obtain ⟨c, -, hnever⟩ := List.mem_map.mp h
    cases hnever
  | succ n ih =>
    cases cs with
    | nil => exact absurd h List.not_mem_nil
    | cons c cs =>
      have hskip (h : .matched m ∈ Re.Piece.skipped c :: re.piecesFrom isWord n (some c) cs) :
          ∃ before after, c :: cs = before ++ m ++ after ∧ Stands isWord core (before.getLast?.or b) m after := by
        rcases List.mem_cons.mp h with hnever | h
        · cases hnever
        · obtain ⟨before, after, rfl, hstands⟩ := ih h
          exact ⟨c :: before, after, rfl, by rwa [getLast?_cons_or]⟩
      rw [Re.piecesFrom] at h
      cases hhead : (re.ends isWord ⟨b, c :: cs⟩).head? with
      | none =>
        rw [hhead] at h
        exact hskip h
      | some place =>
        obtain ⟨taken, rest, hsplit, htakes, rfl⟩ := Re.mem_ends.mp (List.mem_of_head? hhead)
        simp only [hhead] at h
        split at h
        · have htaken : (c :: cs).take ((c :: cs).length - rest.length) = taken := by simp [hsplit]
          rw [htaken] at h
          have hstands := (hre.takes _ _ _).mp htakes
          have hne : taken ≠ [] := by
            rintro rfl
            exact hre.nonempty hstands.1
          rcases List.mem_cons.mp h with heq | h
          · cases heq
            exact ⟨[], rest, hsplit, hstands⟩
          · obtain ⟨before, after, rfl, hafter⟩ := ih h
            refine ⟨taken ++ before, after, by simpa using hsplit, ?_⟩
            rw [getLast?_append_or hne]
            rwa [getLast?_or_of_ne_nil hne] at hafter
        · exact hskip h

/-- A replacement that changes no word that is found changes nothing. -/
theorem sub_eq_of_findall {re : Re} {f : List Char → List Char} {cs : List Char} (h : ∀ m ∈ re.findall isWord cs, f m = m) :
    re.sub isWord f cs = cs := by
  have hpieces : ∀ piece ∈ re.pieces isWord cs, piece.replaced f = piece.chars := by
    intro piece hpiece
    cases piece with
    | matched m => exact h m (List.mem_filterMap.mpr ⟨_, hpiece, rfl⟩)
    | skipped c => rfl
  rw [Re.sub, List.flatMap_congr hpieces]
  exact flatMap_chars_piecesFrom

/-! ## Texts in which no word stands -/

/-- No word of the language stands in a text that follows a character. -/
def Free (isWord : Char → Bool) (core : List Char → Prop) (b : Option Char) (cs : List Char) : Prop :=
  ∀ before m after, cs = before ++ m ++ after → ¬ Stands isWord core (before.getLast?.or b) m after

/-- A text in which no word stands has none after its first character. -/
theorem Free.tail {b : Option Char} {c : Char} {cs : List Char} (h : Free isWord core b (c :: cs)) :
    Free isWord core (some c) cs := by
  rintro before m after rfl hstands
  apply h (c :: before) m after (by simp)
  rw [List.getLast?_cons]
  cases hlast : before.getLast? <;> simpa [hlast] using hstands

/-- Where no word stands, nothing is replaced. -/
theorem Pass.eq_of_free {b : Option Char} {xs out : List Char} {f : List Char → List Char} (h : Pass id isWord core f b xs out)
    (hfree : Free isWord core b xs) : out = xs := by
  induction h with
  | nil b => rfl
  | @replaced b m rest out nonempty stands _ _ _ =>
    rw [List.map_id, List.map_id] at stands
    exact absurd stands (hfree [] m rest rfl)
  | kept _ _ ih => rw [ih hfree.tail]

/-- Where no word stands, none is found. -/
theorem Free.not_mem_findall {re : Re} (hre : re.Spells isWord core) {wanted : List Char → Bool} {cs m : List Char}
    (hfree : Free isWord core' none cs) (hcore : ∀ m, core m → wanted m = true → core' m) (h : m ∈ re.findall isWord cs) :
    wanted m = false := by
  obtain ⟨piece, hpiece, hm⟩ := List.mem_filterMap.mp h
  cases piece with
  | skipped c => cases hm
  | matched m' =>
    obtain rfl := Option.some.inj hm
    obtain ⟨before, after, hsplit, hstands⟩ := stands_of_mem_pieces hre hpiece
    cases hwanted : wanted m' with
    | false => rfl
    | true => exact absurd ⟨hcore m' hstands.1 hwanted, hstands.2⟩ (hfree before m' after hsplit)

/-- A mask has nothing to do with the words of a language. -/
structure Foreign (core : List Char → Prop) (mask : List Char) : Prop where
  opening : ∃ c rest, mask = c :: rest ∧ ∀ m, core m → c ∉ m
  closing : ∃ front c, mask = front ++ [c] ∧ ∀ m, core m → c ∉ m
  outside : ∀ m, core m → ∃ c ∈ m, c ∉ mask

section Masked

variable {mask : List Char} {b : Option Char} {xs out : List Char}

/-- A word that stands in a text after a mask stands after all of the mask. -/
theorem Foreign.exists_gap (hmask : Foreign core' mask) {m before after : List Char} (hcore : core' m) (hne : m ≠ [])
    (h : mask ++ out = before ++ (m ++ after)) : ∃ gap, before = mask ++ gap ∧ out = gap ++ (m ++ after) := by
  rcases List.append_eq_append_iff.mp h with ⟨gap, rfl, hout⟩ | ⟨left, hleft, hafter⟩
  · exact ⟨gap, rfl, hout⟩
  · cases left with
    | nil => exact ⟨[], by rw [hleft, List.append_nil, List.append_nil], hafter.symm⟩
    | cons d left =>
      obtain ⟨front, c, hclosing, hc⟩ := hmask.closing
      obtain ⟨e, he, hnever⟩ := hmask.outside m hcore
      rcases List.append_eq_append_iff.mp hafter with ⟨more, hmore, -⟩ | ⟨more, rfl, -⟩
      · exact absurd (hleft ▸ List.mem_append_right before (hmore ▸ List.mem_append_left more he)) hnever
      · have hlast : c ∈ (d :: left) := by
          have : (before ++ (d :: left)).getLast? = some c := by rw [← hleft, hclosing, List.getLast?_concat]
          rw [List.getLast?_append, getLast?_or_of_ne_nil (List.cons_ne_nil d left)] at this
          exact List.mem_of_getLast? this
        exact absurd (List.mem_append_left more hlast) (hc _ hcore)

/-- What stands at the beginning of a masked text stood at the beginning of the text. -/
theorem Pass.beginning (h : Pass id isWord core (fun _ => mask) b xs out) {m after : List Char}
    (hopening : ∃ c rest, mask = c :: rest ∧ c ∉ m) (hout : out = m ++ after) :
    ∃ after', xs = m ++ after' ∧
      (Edge isWord (m.getLast?.or b) after.head? → Edge isWord (m.getLast?.or b) after'.head?) := by
  induction h generalizing m with
  | nil b =>
    obtain ⟨rfl, rfl⟩ := List.append_eq_nil_iff.mp hout.symm
    exact ⟨[], rfl, id⟩
  | @replaced b taken rest out nonempty stands _ _ _ =>
    obtain ⟨c, inner, rfl, hc⟩ := hopening
    cases m with
    | nil =>
      refine ⟨taken ++ rest, rfl, fun _ => ?_⟩
      rw [List.head?_append_of_ne_nil _ nonempty]
      simpa using stands.2.1
    | cons d m =>
      rw [List.cons_append, List.cons_append] at hout
      rw [(List.cons.inj hout).1] at hc
      exact absurd List.mem_cons_self hc
  | @kept b x rest out _ _ ih =>
    cases m with
    | nil =>
      rw [List.nil_append] at hout
      exact ⟨x :: rest, rfl, by rw [← hout]; exact id⟩
    | cons d m =>
      rw [List.cons_append] at hout
      obtain ⟨rfl, rfl⟩ := List.cons.inj hout
      obtain ⟨c, inner, hmask, hc⟩ := hopening
      obtain ⟨after', rfl, hedge⟩ := ih ⟨c, inner, hmask, fun hmem => hc (List.mem_cons_of_mem _ hmem)⟩ rfl
      exact ⟨after', rfl, by rwa [getLast?_cons_or]⟩

/-- A word that stands in a masked text stood in the text, where nothing was replaced. -/
theorem Pass.stood (hmask : Foreign core' mask) (h : Pass id isWord core (fun _ => mask) b xs out) {b' : Option Char}
    (hb : b' = b ∨ Edge isWord b xs.head?) {before m after : List Char} (hout : out = before ++ m ++ after)
    (hstands : Stands isWord core' (before.getLast?.or b') m after) :
    ∃ before' after', xs = before' ++ m ++ after' ∧ Stands isWord core' (before'.getLast?.or b) m after' ∧
      ∀ m' rest', m ++ after' = m' ++ rest' → ¬ Stands isWord core (before'.getLast?.or b) m' rest' := by
  obtain ⟨hcore, hstart, hend⟩ := hstands
  have hne : m ≠ [] := by
    rintro rfl
    obtain ⟨c, hc, -⟩ := hmask.outside [] hcore
    exact List.not_mem_nil hc
  induction h generalizing before b' with
  | nil b =>
    rw [List.append_assoc] at hout
    have := (List.append_eq_nil_iff.mp (List.append_eq_nil_iff.mp hout.symm).2).1
    exact absurd this hne
  | @replaced b taken rest out nonempty stands _ _ ih =>
    rw [List.map_id, List.map_id] at stands
    rw [List.append_assoc] at hout
    obtain ⟨gap, rfl, hgap⟩ := hmask.exists_gap hcore hne hout
    obtain ⟨c, inner, hopening, -⟩ := hmask.opening
    rw [getLast?_append_or (by rw [hopening]; exact List.cons_ne_nil c inner)] at hstart
    rw [← List.append_assoc] at hgap
    rw [List.map_id] at ih
    obtain ⟨before', after', rfl, hstood, hfree⟩ := ih (.inr stands.2.2) hgap hstart
    exact ⟨taken ++ before', after', by simp, by rwa [getLast?_append_or nonempty], by rwa [getLast?_append_or nonempty]⟩
  | @kept b x rest out free next ih =>
    cases before with
    | nil =>
      obtain ⟨c, inner, hopening, hc⟩ := hmask.opening
      obtain ⟨after', hxs, hedge⟩ := (Pass.kept free next).beginning ⟨c, inner, hopening, hc m hcore⟩ hout
      refine ⟨[], after', hxs, ⟨hcore, ?_, ?_⟩, ?_⟩
      · rcases hb with rfl | hb
        · exact hstart
        · rw [hxs, List.head?_append_of_ne_nil _ hne] at hb
          exact hb
      · rw [getLast?_or_of_ne_nil hne] at hedge
        exact hedge hend
      · intro m' rest' hsplit
        have := free m' rest' (by rw [hxs]; exact hsplit)
        simpa using this
    | cons d before =>
      obtain ⟨rfl, rfl⟩ := List.cons.inj hout
      rw [getLast?_cons_or] at hstart
      obtain ⟨before', after', rfl, hstands, hfree⟩ := ih (.inl rfl) rfl hstart
      exact ⟨x :: before', after', rfl, by rwa [getLast?_cons_or], by rwa [getLast?_cons_or]⟩

/-- After a replacement no word of the language stands in the text. -/
theorem Pass.free (hmask : Foreign core mask) (h : Pass id isWord core (fun _ => mask) b xs out) : Free isWord core b out := by
  intro before m after hout hstands
  obtain ⟨before', after', -, hstood, hfree⟩ := h.stood hmask (.inl rfl) hout hstands
  exact hfree m after' rfl hstood

/-- A replacement lets no word of another language stand where none stood. -/
theorem Pass.free_of_free (hmask : Foreign core' mask) (h : Pass id isWord core (fun _ => mask) b xs out)
    (hfree : Free isWord core' b xs) : Free isWord core' b out := by
  intro before m after hout hstands
  obtain ⟨before', after', hxs, hstood, -⟩ := h.stood hmask (.inl rfl) hout hstands
  exact hfree before' m after' hxs hstood

end Masked

end FleetWorkflow.Python
