import Mathlib.Data.List.Chain
import Mathlib.Data.List.Sort

/-!
# Lower case and canonical decomposition

`str.lower` and the normal form NFD, over the tables of a character database. Lower case is taken character by character but
for the capital sigma, which is lowered by what stands around it. The normal form replaces the characters by their
decompositions and puts every run of combining characters in the order of their classes.

A character of class zero is passed by nothing, so that the order of a text is that of its parts between such characters.
-/

namespace FleetWorkflow.Python

/-- The tables of a character database. -/
structure CharacterDatabase where
  lowerMapping : Char → List Char
  isCased : Char → Bool
  isCaseIgnorable : Char → Bool
  decomposition : Char → List Char
  combiningClass : Char → ℕ
  /-- The category is `Mn`. -/
  isNonspacing : Char → Bool

namespace CharacterDatabase

variable (db : CharacterDatabase)

/-! ## Lower case -/

/-- The next character that is not ignored is cased. -/
def meetsCased (cs : List Char) : Bool := ((cs.dropWhile db.isCaseIgnorable).head?.map db.isCased).getD false

/-- The lower case of a capital sigma between what stands before it, read backwards, and what stands after it. -/
def lowerSigma (before after : List Char) : Char := if db.meetsCased before && !db.meetsCased after then 'ς' else 'σ'

/-- The lower case of a character where it stands. -/
def lowerAt (before : List Char) (c : Char) (after : List Char) : List Char :=
  if c = 'Σ' then [db.lowerSigma before after] else db.lowerMapping c

/-- Lower case after what stands before, read backwards. -/
def lowerFrom (before : List Char) : List Char → List Char
  | [] => []
  | c :: after => db.lowerAt before c after ++ lowerFrom (c :: before) after

/-- `text.lower()`. -/
def lower (cs : List Char) : List Char := db.lowerFrom [] cs

/-! ## The canonical order -/

/-- A character may stay before another one: that one begins anew, or its class is not smaller. -/
def MayPrecede (c d : Char) : Prop := db.combiningClass d = 0 ∨ db.combiningClass c ≤ db.combiningClass d

instance : DecidableRel db.MayPrecede := fun c d =>
  inferInstanceAs (Decidable (db.combiningClass d = 0 ∨ db.combiningClass c ≤ db.combiningClass d))

/-- Every combining character is moved before those of a greater class that it follows. -/
def canonicalOrder (cs : List Char) : List Char := cs.insertionSort db.MayPrecede

/-- `unicodedata.normalize("NFD", text)`. -/
def nfd (cs : List Char) : List Char := db.canonicalOrder (cs.flatMap db.decomposition)

/-- What is not of the category `Mn`. -/
def bare (cs : List Char) : List Char := cs.filter fun c => !db.isNonspacing c

variable {db}

/-- The first character is put in its place before the others. -/
theorem canonicalOrder_cons (c : Char) (cs : List Char) :
    db.canonicalOrder (c :: cs) = (db.canonicalOrder cs).orderedInsert db.MayPrecede c := rfl

/-- Of two characters, one may stay before the other. -/
theorem mayPrecede_total (c d : Char) : db.MayPrecede c d ∨ db.MayPrecede d c :=
  (le_total (db.combiningClass c) (db.combiningClass d)).imp Or.inr Or.inr

/-- The characters are ordered one after the other. -/
theorem isChain_canonicalOrder (cs : List Char) : (db.canonicalOrder cs).IsChain db.MayPrecede := by
  have hinsert (c : Char) (ds : List Char) (hds : ds.IsChain db.MayPrecede) :
      (ds.orderedInsert db.MayPrecede c).IsChain db.MayPrecede := by
    induction ds with
    | nil => simp
    | cons d ds ih =>
      rw [List.orderedInsert_cons]
      split
      · rename_i hcd
        exact List.isChain_cons_cons.mpr ⟨hcd, hds⟩
      · rename_i hcd
        have hdc : db.MayPrecede d c := (mayPrecede_total c d).resolve_left hcd
        rw [List.isChain_cons] at hds
        rw [List.isChain_cons]
        refine ⟨?_, ih hds.2⟩
        -- What comes next is the character itself or what came next before.
        intro e he
        cases ds with
        | nil =>
          cases he
          exact hdc
        | cons d' ds =>
          rw [List.orderedInsert_cons] at he
          split at he
          · cases he
            exact hdc
          · exact hds.1 e he
  induction cs with
  | nil => exact .nil
  | cons c cs ih => exact hinsert c _ ih

/-- Letters may be replaced by others of their classes before or after. -/
theorem canonicalOrder_map {f : Char → Char} (hf : ∀ c, db.combiningClass (f c) = db.combiningClass c) (cs : List Char) :
    db.canonicalOrder (cs.map f) = (db.canonicalOrder cs).map f := by
  symm
  apply List.map_insertionSort
  intro c _ d _
  rw [MayPrecede, MayPrecede, hf, hf]

/-- A character of class zero is not moved. -/
theorem orderedInsert_starter {s : Char} (hs : db.combiningClass s = 0) (cs : List Char) :
    cs.orderedInsert db.MayPrecede s = s :: cs := by
  cases cs with
  | nil => rfl
  | cons c cs =>
    apply List.orderedInsert_cons_of_le
    exact .inr (hs ▸ Nat.zero_le _)

/-- Nothing is moved past a character of class zero. -/
theorem canonicalOrder_starter {s : Char} (hs : db.combiningClass s = 0) (cs ds : List Char) :
    db.canonicalOrder (cs ++ s :: ds) = db.canonicalOrder cs ++ s :: db.canonicalOrder ds := by
  have hinsert (c : Char) (us vs : List Char) : (us ++ s :: vs).orderedInsert db.MayPrecede c =
      us.orderedInsert db.MayPrecede c ++ s :: vs := by
    induction us with
    | nil => exact List.orderedInsert_cons_of_le _ _ (.inl hs)
    | cons u us ih =>
      rw [List.cons_append, List.orderedInsert_cons, List.orderedInsert_cons, ih]
      split <;> rfl
  induction cs with
  | nil => exact orderedInsert_starter hs _
  | cons c cs ih =>
    rw [List.cons_append, canonicalOrder_cons, ih, hinsert, ← canonicalOrder_cons]

/-- Combining characters may be left out before or after. -/
theorem canonicalOrder_filter {p : Char → Bool} (hp : ∀ c, p c = false → db.combiningClass c ≠ 0) (cs : List Char) :
    db.canonicalOrder (cs.filter p) = (db.canonicalOrder cs).filter p := by
  -- What may stay before the first of a chain may stay before the first that is left.
  have hhead {c : Char} {ds : List Char} (hds : (c :: ds).IsChain db.MayPrecede) :
      (ds.filter p).orderedInsert db.MayPrecede c = c :: ds.filter p := by
    induction ds with
    | nil => rfl
    | cons d ds ih =>
      obtain ⟨hcd, hrest⟩ := List.isChain_cons_cons.mp hds
      cases hpd : p d with
      | true =>
        rw [List.filter_cons_of_pos hpd]
        exact List.orderedInsert_cons_of_le _ _ hcd
      | false =>
        rw [List.filter_cons_of_neg (by simp [hpd])]
        apply ih
        rw [List.isChain_cons] at hrest
        rw [List.isChain_cons]
        refine ⟨?_, hrest.2⟩
        intro e he
        exact (hrest.1 e he).imp id ((hcd.resolve_left (hp d hpd)).trans)
  have hinsert (c : Char) {ds : List Char} (hds : ds.IsChain db.MayPrecede) :
      (ds.orderedInsert db.MayPrecede c).filter p =
        if p c then (ds.filter p).orderedInsert db.MayPrecede c else ds.filter p := by
    induction ds with
    | nil => cases hpc : p c <;> simp [hpc]
    | cons d ds ih =>
      rw [List.orderedInsert_cons]
      split
      · rename_i hcd
        rw [List.filter_cons, hhead (List.isChain_cons_cons.mpr ⟨hcd, hds⟩)]
      · rename_i hcd
        rw [List.filter_cons, List.filter_cons, ih hds.tail]
        cases p d <;> cases p c <;> simp [hcd]
  induction cs with
  | nil => rfl
  | cons c cs ih =>
    rw [canonicalOrder_cons, hinsert c (isChain_canonicalOrder cs), ← ih, List.filter_cons]
    split <;> rfl

end CharacterDatabase

end FleetWorkflow.Python
