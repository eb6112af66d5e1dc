import Mathlib.Algebra.BigOperators.Group.List.Basic
import Mathlib.Data.List.Basic
import Mathlib.Tactic.Ring

/-!
# Replacing spans of a list

Spans of a list are replaced by texts of their own, from right to left, each at the offsets it had
in the original list. The outcome is exact when it holds what no span covers, in order, with only
the texts in between. Spans that keep apart give an exact outcome; for spans that do not, a list and
texts can be found that show the difference.
-/

namespace FleetWorkflow.Python

variable {A : Type*}

/-- A span of a list. -/
structure Span where
  start : ℕ
  stop : ℕ

/-- A span of a list, and what stands in its place. -/
structure Edit (A : Type*) extends Span where
  text : List A

namespace Span

/-- The span lies within a list of a length. -/
def InBounds (n : ℕ) (span : Span) : Prop := span.start ≤ span.stop ∧ span.stop ≤ n

instance (n : ℕ) (span : Span) : Decidable (InBounds n span) :=
  inferInstanceAs (Decidable (span.start ≤ span.stop ∧ span.stop ≤ n))

/-- Of a span and a later one, the one that is replaced second ends where the other starts, or
before. -/
def Apart (a b : Span) : Prop :=
  (b.start ≤ a.start → b.stop ≤ a.start) ∧ (a.start < b.start → a.stop ≤ b.start)

instance (a b : Span) : Decidable (Apart a b) :=
  inferInstanceAs (Decidable ((b.start ≤ a.start → b.stop ≤ a.start) ∧ (a.start < b.start → a.stop ≤ b.start)))

end Span

namespace Edit

/-- Replace one span. -/
def apply (xs : List A) (edit : Edit A) : List A := xs.take edit.start ++ edit.text ++ xs.drop edit.stop

/-- The edits from right to left; those that start together stay in order. -/
def rightToLeft (edits : List (Edit A)) : List (Edit A) :=
  edits.mergeSort fun a b => b.start ≤ a.start

/-- Replace all spans, from right to left. -/
def applyAll (xs : List A) (edits : List (Edit A)) : List A := (rightToLeft edits).foldl apply xs

/-- Some span covers a position. -/
def Covered (edits : List (Edit A)) (i : ℕ) : Prop := ∃ edit ∈ edits, edit.start ≤ i ∧ i < edit.stop

instance (edits : List (Edit A)) (i : ℕ) : Decidable (Covered edits i) :=
  inferInstanceAs (Decidable (∃ edit ∈ edits, edit.start ≤ i ∧ i < edit.stop))

/-- What no span covers, of a list that begins at a position. -/
def uncovered (edits : List (Edit A)) : ℕ → List A → List A
  | _, [] => []
  | i, x :: xs => if Covered edits i then uncovered edits (i + 1) xs else x :: uncovered edits (i + 1) xs

/-- A list with some of the texts put in between its elements. -/
inductive Filled (texts : List (List A)) : List A → List A → Prop
  | done : Filled texts [] []
  | keep (x : A) {xs ys : List A} : Filled texts xs ys → Filled texts (x :: xs) (x :: ys)
  | fill {text xs ys : List A} : text ∈ texts → Filled texts xs ys → Filled texts xs (text ++ ys)

/-- The outcome is what no span covers, with only the texts in between. -/
def Exact (xs : List A) (edits : List (Edit A)) (ys : List A) : Prop :=
  Filled (edits.map text) (uncovered edits 0 xs) ys

/-! ## The order of the replacements -/

theorem start_trans (a b c : Edit A) (hab : decide (b.start ≤ a.start) = true)
    (hbc : decide (c.start ≤ b.start) = true) : decide (c.start ≤ a.start) = true := by
  rw [decide_eq_true_eq] at hab hbc ⊢
  exact hbc.trans hab

theorem start_total (a b : Edit A) : (decide (b.start ≤ a.start) || decide (a.start ≤ b.start)) = true := by
  simpa using Nat.le_total b.start a.start

theorem rightToLeft_ordered (edits : List (Edit A)) :
    (rightToLeft edits).Pairwise (fun a b => b.start ≤ a.start) := by
  simpa only [rightToLeft, decide_eq_true_eq] using List.pairwise_mergeSort start_trans start_total edits

@[simp] theorem mem_rightToLeft {edits : List (Edit A)} {edit : Edit A} :
    edit ∈ rightToLeft edits ↔ edit ∈ edits := List.mem_mergeSort

/-- Edits that keep apart are those of which each ends where the one before it starts, or before. -/
theorem pairwise_rightToLeft (edits : List (Edit A)) :
    (rightToLeft edits).Pairwise (fun a b => b.stop ≤ a.start) ↔
      edits.Pairwise fun a b => a.Apart b.toSpan := by
  induction edits with
  | nil => simp [rightToLeft]
  | cons a rest ih =>
    obtain ⟨before, after, hcons, hrest, hbefore⟩ :=
      List.mergeSort_cons start_trans start_total a rest
    have hordered := rightToLeft_ordered (a :: rest)
    have hmem : ∀ b, b ∈ rest ↔ b ∈ before ∨ b ∈ after := by
      intro b
      rw [← List.mem_append, ← hrest, List.mem_mergeSort]
    simp only [rightToLeft] at ih hordered ⊢
    rw [hrest] at ih
    rw [hcons] at hordered ⊢
    simp only [List.pairwise_append, List.pairwise_cons, List.mem_cons, forall_eq_or_imp] at ih hordered ⊢
    simp only [Bool.not_eq_eq_eq_not, Bool.not_true, decide_eq_false_iff_not, Nat.not_le] at hbefore
    have hhead : (∀ b ∈ rest, a.Apart b.toSpan) ↔
        (∀ b ∈ before, a.stop ≤ b.start) ∧ ∀ b ∈ after, b.stop ≤ a.start := by
      constructor
      · intro h
        constructor
        · intro b hb
          exact (h b ((hmem b).mpr (Or.inl hb))).2 (hbefore b hb)
        · intro b hb
          exact (h b ((hmem b).mpr (Or.inr hb))).1 (hordered.2.1.1 b hb)
      · intro h b hb
        unfold Span.Apart
        rcases (hmem b).mp hb with hb | hb
        · have := hbefore b hb
          have := h.1 b hb
          omega
        · have := hordered.2.1.1 b hb
          have := h.2 b hb
          omega
    rw [hhead, ← ih]
    constructor
    · intro h
      exact ⟨⟨fun b hb => (h.2.2 b hb).1, h.2.1.1⟩, h.1, h.2.1.2, fun b hb => (h.2.2 b hb).2⟩
    · intro h
      exact ⟨h.2.1, ⟨h.1.2, h.2.2.1⟩, fun b hb => ⟨h.1.1 b hb, h.2.2.2 b hb⟩⟩

/-! ## Spans that keep apart -/

theorem uncovered_append (edits : List (Edit A)) (i : ℕ) (xs ys : List A) :
    uncovered edits i (xs ++ ys) = uncovered edits i xs ++ uncovered edits (i + xs.length) ys := by
  induction xs generalizing i with
  | nil => simp [uncovered]
  | cons x xs ih =>
    simp only [List.cons_append, uncovered, ih, List.length_cons, Nat.add_right_comm i 1 xs.length,
      Nat.add_assoc]
    split <;> rfl

theorem uncovered_eq_self {edits : List (Edit A)} {i : ℕ} {xs : List A}
    (h : ∀ k, i ≤ k → k < i + xs.length → ¬ Covered edits k) : uncovered edits i xs = xs := by
  induction xs generalizing i with
  | nil => rfl
  | cons x xs ih =>
    simp only [List.length_cons] at h
    rw [uncovered, if_neg (h i (Nat.le_refl i) (by omega)),
      ih fun k hik hk => h k (by omega) (by omega)]

theorem uncovered_eq_nil {edits : List (Edit A)} {i : ℕ} {xs : List A}
    (h : ∀ k, i ≤ k → k < i + xs.length → Covered edits k) : uncovered edits i xs = [] := by
  induction xs generalizing i with
  | nil => rfl
  | cons x xs ih =>
    simp only [List.length_cons] at h
    rw [uncovered, if_pos (h i (Nat.le_refl i) (by omega)),
      ih fun k hik hk => h k (by omega) (by omega)]

theorem Filled.append_left {texts : List (List A)} {xs ys : List A} (kept : List A)
    (h : Filled texts xs ys) : Filled texts (kept ++ xs) (kept ++ ys) := by
  induction kept with
  | nil => exact h
  | cons x kept ih => exact Filled.keep x ih

/-- What comes after a position, cut at a later one. -/
theorem drop_eq_slice (xs : List A) {i j : ℕ} (hij : i ≤ j) (hj : j ≤ xs.length) :
    xs.drop i = (xs.take j).drop i ++ xs.drop j := by
  have hlength : (xs.take j).length = j := by simp [hj]
  rw [← List.drop_append_of_le_length (by omega), List.take_append_drop]

/-- What one edit does to a list whose part from `bound` on has been dealt with. -/
theorem apply_take_append (xs done : List A) (edit : Edit A) (bound : ℕ) (hbound : bound ≤ xs.length)
    (hstart : edit.start ≤ edit.stop) (hstop : edit.stop ≤ bound) :
    apply (xs.take bound ++ done) edit =
      xs.take edit.start ++ (edit.text ++ ((xs.take bound).drop edit.stop ++ done)) := by
  have hlength : (xs.take bound).length = bound := by simp [hbound]
  rw [apply, List.take_append_of_le_length (by omega), List.drop_append_of_le_length (by omega),
    List.take_take, Nat.min_eq_left (by omega), List.append_assoc]

/-- While the edits are carried out, the part from `bound` on is exact. -/
theorem exact_foldl (edits : List (Edit A)) (xs : List A) (remaining : List (Edit A)) (bound : ℕ)
    (done : List A) (hmem : ∀ edit ∈ remaining, edit ∈ edits)
    (happart : remaining.Pairwise fun a b => b.stop ≤ a.start)
    (hstart : ∀ edit ∈ remaining, edit.start ≤ edit.stop) (hstop : ∀ edit ∈ remaining, edit.stop ≤ bound)
    (hbound : bound ≤ xs.length) (hdone : ∀ edit ∈ edits, edit ∈ remaining ∨ bound ≤ edit.start)
    (hfilled : Filled (edits.map text) (uncovered edits bound (xs.drop bound)) done) :
    Exact xs edits (remaining.foldl apply (xs.take bound ++ done)) := by
  induction remaining generalizing bound done with
  | nil =>
    have huncovered : uncovered edits 0 (xs.take bound) = xs.take bound := by
      apply uncovered_eq_self
      intro k _ hk hcovered
      obtain ⟨edit, hedit, hcovers⟩ := hcovered
      have := (hdone edit hedit).resolve_left (by simp)
      simp only [List.length_take] at hk
      omega
    have hlength : (xs.take bound).length = bound := by simp [hbound]
    have hsplit := uncovered_append edits 0 (xs.take bound) (xs.drop bound)
    rw [List.take_append_drop, huncovered, hlength, Nat.zero_add] at hsplit
    rw [Exact, hsplit]
    exact hfilled.append_left _
  | cons edit remaining ih =>
    rw [List.pairwise_cons] at happart
    simp only [List.mem_cons, forall_eq_or_imp] at hmem hstart hstop
    rw [List.foldl_cons, apply_take_append xs done edit bound hbound hstart.1 hstop.1]
    apply ih edit.start _ hmem.2 happart.2 hstart.2 happart.1 (by omega)
    · intro other hother
      rcases hdone other hother with h | h
      · rcases List.mem_cons.mp h with rfl | h
        · exact Or.inr (Nat.le_refl _)
        · exact Or.inl h
      · exact Or.inr (by omega)
    · -- The span itself is covered; what lies between it and `bound` is not.
      have hspan : uncovered edits edit.start ((xs.take edit.stop).drop edit.start) = [] := by
        apply uncovered_eq_nil
        intro k hk hlt
        simp only [List.length_drop, List.length_take] at hlt
        exact ⟨edit, hmem.1, hk, by omega⟩
      have hgap : uncovered edits edit.stop ((xs.take bound).drop edit.stop) = (xs.take bound).drop edit.stop := by
        apply uncovered_eq_self
        intro k hk hlt hcovered
        obtain ⟨other, hother, hcovers⟩ := hcovered
        simp only [List.length_drop, List.length_take] at hlt
        rcases hdone other hother with h | h
        · rcases List.mem_cons.mp h with rfl | h
          · omega
          · have := happart.1 other h
            omega
        · omega
      have hlength : ((xs.take edit.stop).drop edit.start).length = edit.stop - edit.start := by
        simp only [List.length_drop, List.length_take]
        omega
      have hlength' : ((xs.take bound).drop edit.stop).length = bound - edit.stop := by
        simp only [List.length_drop, List.length_take]
        omega
      rw [drop_eq_slice xs hstart.1 (by omega), uncovered_append, hspan, List.nil_append, hlength,
        Nat.add_sub_cancel' hstart.1, drop_eq_slice xs hstop.1 hbound, uncovered_append, hgap, hlength',
        Nat.add_sub_cancel' hstop.1]
      exact Filled.fill (List.mem_map_of_mem hmem.1) (hfilled.append_left _)

/-- Spans that keep apart are replaced exactly. -/
theorem exact_applyAll (xs : List A) (edits : List (Edit A)) (hbounds : ∀ edit ∈ edits, edit.InBounds xs.length)
    (happart : edits.Pairwise fun a b => a.Apart b.toSpan) : Exact xs edits (applyAll xs edits) := by
  have h := exact_foldl edits xs (rightToLeft edits) xs.length []
    (fun edit hedit => mem_rightToLeft.mp hedit) ((pairwise_rightToLeft edits).mpr happart)
    (fun edit hedit => (hbounds edit (mem_rightToLeft.mp hedit)).1)
    (fun edit hedit => (hbounds edit (mem_rightToLeft.mp hedit)).2) (Nat.le_refl _)
    (fun edit hedit => Or.inl (mem_rightToLeft.mpr hedit))
    (by rw [List.drop_length]; exact Filled.done)
  simpa only [applyAll, List.take_length, List.append_nil] using h

/-! ## What an exact outcome holds -/

/-- What no span covers. -/
theorem mem_uncovered {edits : List (Edit A)} {i : ℕ} {xs : List A} {x : A} :
    x ∈ uncovered edits i xs ↔ ∃ j, xs[j]? = some x ∧ ¬ Covered edits (i + j) := by
  induction xs generalizing i with
  | nil => simp [uncovered]
  | cons y xs ih =>
    have hshift : (∃ j, (y :: xs)[j]? = some x ∧ ¬ Covered edits (i + j)) ↔
        (y = x ∧ ¬ Covered edits i) ∨ ∃ j, xs[j]? = some x ∧ ¬ Covered edits (i + 1 + j) := by
      constructor
      · rintro ⟨j, hj, hcovered⟩
        cases j with
        | zero => exact Or.inl ⟨by simpa using hj, hcovered⟩
        | succ j => exact Or.inr ⟨j, by simpa using hj, by rwa [Nat.add_assoc, Nat.add_comm 1 j]⟩
      · rintro (⟨rfl, hcovered⟩ | ⟨j, hj, hcovered⟩)
        · exact ⟨0, rfl, hcovered⟩
        · exact ⟨j + 1, by simpa using hj, by rwa [Nat.add_assoc, Nat.add_comm 1 j] at hcovered⟩
    rw [hshift, ← ih, uncovered]
    by_cases hcovered : Covered edits i
    · simp [hcovered]
    · simp [hcovered, eq_comm]

/-- Nothing of the list is lost when it is filled. -/
theorem Filled.subset {texts : List (List A)} {xs ys : List A} (h : Filled texts xs ys) : xs ⊆ ys := by
  induction h with
  | done => exact List.Subset.refl []
  | keep x _ ih => exact List.cons_subset_cons x ih
  | fill _ _ ih => exact List.subset_append_of_subset_right _ ih

/-- An edit of what the elements are mapped to. -/
def map {B : Type*} (f : A → B) (edit : Edit A) : Edit B := ⟨edit.toSpan, edit.text.map f⟩

/-- Replacing spans goes through a map. -/
theorem map_applyAll {B : Type*} (f : A → B) (xs : List A) (edits : List (Edit A)) :
    (applyAll xs edits).map f = applyAll (xs.map f) (edits.map (Edit.map f)) := by
  have hsort : (rightToLeft edits).map (Edit.map f) = rightToLeft (edits.map (Edit.map f)) :=
    List.map_mergeSort fun a _ b _ => rfl
  rw [applyAll, applyAll, ← hsort]
  induction rightToLeft edits generalizing xs with
  | nil => rfl
  | cons edit edits ih =>
    rw [List.map_cons, List.foldl_cons, List.foldl_cons, ih]
    simp [apply, Edit.map]

/-! ## Spans that do not -/

/-- Nothing appears but what was there and the texts. -/
theorem Filled.mem {texts : List (List A)} {xs ys : List A} (h : Filled texts xs ys) {y : A}
    (hy : y ∈ ys) : y ∈ xs ∨ ∃ text ∈ texts, y ∈ text := by
  induction h with
  | done => simp at hy
  | keep x _ ih =>
    rcases List.mem_cons.mp hy with rfl | hy
    · exact Or.inl List.mem_cons_self
    · exact (ih hy).imp_left (List.mem_cons_of_mem x)
  | fill htext _ ih =>
    rcases List.mem_append.mp hy with hy | hy
    · exact Or.inr ⟨_, htext, hy⟩
    · exact ih hy

theorem uncovered_subset (edits : List (Edit A)) (i : ℕ) (xs : List A) : uncovered edits i xs ⊆ xs := by
  induction xs generalizing i with
  | nil => simp [uncovered]
  | cons x xs ih =>
    rw [uncovered]
    split
    · exact List.subset_cons_of_subset x (ih (i + 1))
    · exact List.cons_subset_cons x (ih (i + 1))

variable [DecidableEq A]

/-- How many more closing than opening marks a list has. -/
def excess (left right : A) (xs : List A) : ℤ := xs.count right - xs.count left

theorem excess_append (left right : A) (xs ys : List A) :
    excess left right (xs ++ ys) = excess left right xs + excess left right ys := by
  simp only [excess, List.count_append, Nat.cast_add]
  ring

/-- Balanced texts between the elements do not change the excess. -/
theorem Filled.excess_eq {left right : A} {texts : List (List A)} {xs ys : List A}
    (hbalanced : ∀ text ∈ texts, excess left right text = 0) (h : Filled texts xs ys) :
    excess left right ys = excess left right xs := by
  induction h with
  | done => rfl
  | keep x _ ih =>
    rw [← List.singleton_append, excess_append, ih, ← excess_append, List.singleton_append]
  | fill htext _ ih => rw [excess_append, hbalanced _ htext, ih, zero_add]

/-- A mark, a filler as often as wanted, and the closing mark. -/
def bracketed (left filler right : A) (n : ℕ) : List A := left :: (List.replicate n filler ++ [right])

section Marks

variable {left filler right : A} (hleft : filler ≠ left) (hright : filler ≠ right) (hmarks : left ≠ right)

include hleft hright in
theorem excess_replicate (n : ℕ) : excess left right (List.replicate n filler) = 0 := by
  simp [excess, List.count_replicate, hleft, hright]

include hmarks in
theorem excess_right : excess left right [right] = 1 := by
  simp [excess, hmarks.symm]

include hleft hright hmarks in
theorem excess_bracketed (n : ℕ) : excess left right (bracketed left filler right n) = 0 := by
  simp [excess, bracketed, List.count_replicate, hleft, hright, hmarks, hmarks.symm]

include hleft hright hmarks in
/-- A span that reaches into the text put in before cuts off its opening mark. -/
theorem excess_drop_bracketed (bound n k : ℕ) (rest : List A) (hbound : bound < k) (hk : k ≤ n) :
    excess left right ((List.replicate bound filler ++ (bracketed left filler right n ++ rest)).drop k) =
      1 + excess left right rest := by
  obtain ⟨j, rfl⟩ : ∃ j, k = bound + (j + 1) := ⟨k - bound - 1, by omega⟩
  have hreplicate : (List.replicate bound filler).length = bound := List.length_replicate
  have hdrop : (List.replicate bound filler ++ (bracketed left filler right n ++ rest)).drop (bound + (j + 1)) =
      List.replicate (n - j) filler ++ ([right] ++ rest) := by
    rw [← List.drop_drop, List.drop_left' hreplicate, bracketed, List.cons_append, List.drop_succ_cons,
      List.append_assoc, List.drop_append_of_le_length (by rw [List.length_replicate]; omega),
      List.drop_replicate]
  rw [hdrop, excess_append, excess_append, excess_replicate hleft hright, excess_right hmarks, zero_add]

include hleft hright hmarks in
/-- Marks are lost at every span that reaches beyond the start of the one replaced before, and are
never gained: if none is lost, the spans keep apart. -/
theorem excess_foldl {n : ℕ} (remaining : List (Edit A)) (bound : ℕ) (rest : List A)
    (htext : ∀ edit ∈ remaining, edit.text = bracketed left filler right n)
    (hordered : remaining.Pairwise fun a b => b.start ≤ a.start)
    (hstart : ∀ edit ∈ remaining, edit.start ≤ bound) (hstop : ∀ edit ∈ remaining, edit.stop ≤ n) :
    excess left right rest ≤ excess left right
        (remaining.foldl apply (List.replicate bound filler ++ (bracketed left filler right n ++ rest))) ∧
      (excess left right (remaining.foldl apply
          (List.replicate bound filler ++ (bracketed left filler right n ++ rest))) ≤ excess left right rest →
        (∀ edit ∈ remaining, edit.stop ≤ bound) ∧ remaining.Pairwise fun a b => b.stop ≤ a.start) := by
  induction remaining generalizing bound rest with
  | nil =>
    simp [excess_append, excess_replicate hleft hright, excess_bracketed hleft hright hmarks]
  | cons edit remaining ih =>
    rw [List.pairwise_cons] at hordered
    simp only [List.mem_cons, forall_eq_or_imp] at htext hstart hstop
    have hnext : apply (List.replicate bound filler ++ (bracketed left filler right n ++ rest)) edit =
        List.replicate edit.start filler ++ (bracketed left filler right n ++
          (List.replicate bound filler ++ (bracketed left filler right n ++ rest)).drop edit.stop) := by
      rw [apply, htext.1, List.take_append_of_le_length (by rw [List.length_replicate]; exact hstart.1),
        List.take_replicate, Nat.min_eq_left hstart.1, List.append_assoc]
    obtain ⟨hle, hclear⟩ := ih edit.start
      ((List.replicate bound filler ++ (bracketed left filler right n ++ rest)).drop edit.stop)
      htext.2 hordered.2 hordered.1 hstop.2
    rw [List.foldl_cons, hnext]
    by_cases hreach : edit.stop ≤ bound
    · have hkept : excess left right ((List.replicate bound filler ++
          (bracketed left filler right n ++ rest)).drop edit.stop) = excess left right rest := by
        rw [List.drop_append_of_le_length (by rw [List.length_replicate]; exact hreach), List.drop_replicate,
          excess_append, excess_append, excess_replicate hleft hright,
          excess_bracketed hleft hright hmarks, zero_add, zero_add]
      rw [hkept] at hle hclear
      apply And.intro hle
      intro h
      obtain ⟨hbefore, hpairwise⟩ := hclear h
      simp only [List.mem_cons, forall_eq_or_imp, List.pairwise_cons]
      exact ⟨⟨hreach, fun other hother => (hbefore other hother).trans hstart.1⟩, hbefore, hpairwise⟩
    · have hlost := excess_drop_bracketed hleft hright hmarks bound n edit.stop rest (by omega) hstop.1
      rw [hlost] at hle
      constructor
      · omega
      · intro h
        omega

include hleft hright hmarks in
/-- If replacing spans of a uniform list by long texts is exact, the spans keep apart. -/
theorem apart_of_exact {n : ℕ} {edits : List (Edit A)} (hbounds : ∀ edit ∈ edits, edit.InBounds n)
    (htext : ∀ edit ∈ edits, edit.text = bracketed left filler right n)
    (h : Exact (List.replicate n filler) edits (applyAll (List.replicate n filler) edits)) :
    edits.Pairwise fun a b => a.Apart b.toSpan := by
  have hexcess : excess left right (applyAll (List.replicate n filler) edits) = 0 := by
    have hbalanced : ∀ marked ∈ edits.map text, excess left right marked = 0 := by
      intro marked hmarked
      obtain ⟨edit, hedit, rfl⟩ := List.mem_map.mp hmarked
      rw [htext edit hedit, excess_bracketed hleft hright hmarks]
    have huncovered : uncovered edits 0 (List.replicate n filler) =
        List.replicate (uncovered edits 0 (List.replicate n filler)).length filler := by
      apply List.eq_replicate_of_mem
      intro x hx
      exact List.eq_of_mem_replicate (uncovered_subset edits 0 _ hx)
    rw [h.excess_eq hbalanced, huncovered, excess_replicate hleft hright]
  rw [← pairwise_rightToLeft]
  have hordered := rightToLeft_ordered edits
  simp only [applyAll] at hexcess
  have hmem : ∀ edit ∈ rightToLeft edits, edit ∈ edits := fun edit hedit => mem_rightToLeft.mp hedit
  cases hsorted : rightToLeft edits with
  | nil => exact List.Pairwise.nil
  | cons edit remaining =>
    rw [hsorted] at hexcess hordered hmem
    simp only [List.mem_cons, forall_eq_or_imp] at hmem
    rw [List.pairwise_cons] at hordered
    have hfirst : apply (List.replicate n filler) edit = List.replicate edit.start filler ++
        (bracketed left filler right n ++ List.replicate (n - edit.stop) filler) := by
      have := hbounds edit hmem.1
      unfold Span.InBounds at this
      rw [apply, htext edit hmem.1, List.take_replicate, List.drop_replicate, Nat.min_eq_left (by omega),
        List.append_assoc]
    rw [List.foldl_cons, hfirst] at hexcess
    have hclear := (excess_foldl hleft hright hmarks remaining edit.start
      (List.replicate (n - edit.stop) filler) (fun other hother => htext other (hmem.2 other hother))
      hordered.2 hordered.1 fun other hother => (hbounds other (hmem.2 other hother)).2).2
    rw [excess_replicate hleft hright] at hclear
    exact List.pairwise_cons.mpr (hclear (Int.le_of_eq hexcess))

end Marks

end Edit

end FleetWorkflow.Python
