import FleetWorkflow.Python.Replacement

/-!
# Following a part of a text through replacements

The characters of one part of a text are marked. A replacement whose words either cover the part or leave it alone takes all of
its marked characters away or none, and what is around the part still ends and begins outside of words.
-/

namespace FleetWorkflow.Python

variable {isWord : Char → Bool} {core : List Char → Prop} {mask : List Char} {b : Option Char}
  {xs out : List (Char × Bool)} {part : List Char}

/-- Characters with a mark. -/
def withMark (mark : Bool) (cs : List Char) : List (Char × Bool) := cs.map fun c => (c, mark)

/-- The characters of what is marked. -/
@[simp] theorem map_fst_withMark (mark : Bool) (cs : List Char) : (withMark mark cs).map Prod.fst = cs := by
  rw [withMark, List.map_map]
  exact List.map_id cs

/-- No character is marked any more. -/
def Gone (xs : List (Char × Bool)) : Prop := ∀ x ∈ xs, x.2 = false

/-- The marked characters are those of a part, and what is around it ends and begins outside of words. -/
structure Remains (isWord : Char → Bool) (part : List Char) (b : Option Char) (xs : List (Char × Bool)) : Prop where
  split : ∃ before after, xs = before ++ (withMark true part ++ after) ∧ Gone before ∧ Gone after ∧
    ((before.map Prod.fst).getLast?.or b).any isWord = false ∧ (after.map Prod.fst).head?.any isWord = false

/-- A mask of brackets, without marks. -/
structure Bracketed (isWord : Char → Bool) (mask : List Char) : Prop where
  opening : mask.head?.any isWord = false
  closing : mask.getLast?.any isWord = false
  nonempty : mask ≠ []

/-- The replacement of a language in a marked text. -/
abbrev Tracks (isWord : Char → Bool) (core : List Char → Prop) (mask : List Char) :=
  Pass Prod.fst isWord core (fun _ => withMark false mask)

/-- What is around a part is not marked by a mask. -/
theorem gone_withMark (cs : List Char) : Gone (withMark false cs) := by
  intro x hx
  obtain ⟨c, -, rfl⟩ := List.mem_map.mp hx
  rfl

/-- Where nothing is marked, nothing becomes marked. -/
theorem Gone.pass (hgone : Gone xs) (h : Tracks isWord core mask b xs out) : Gone out := by
  induction h with
  | nil b => exact hgone
  | replaced _ _ _ _ ih =>
    intro x hx
    rcases List.mem_append.mp hx with hx | hx
    · exact gone_withMark mask x hx
    · exact ih (fun y hy => hgone y (List.mem_append_right _ hy)) x hx
  | kept _ _ ih =>
    exact List.forall_mem_cons.mpr ⟨hgone _ List.mem_cons_self, ih fun y hy => hgone y (List.mem_cons_of_mem _ hy)⟩

/-- A word that stands at a place and that no longer one stands at. -/
def StandsLongest (isWord : Char → Bool) (core : List Char → Prop) (b : Option Char) (m rest : List Char) : Prop :=
  Stands isWord core b m rest ∧ ∀ m' rest', m ++ rest = m' ++ rest' → Stands isWord core b m' rest' → m'.length ≤ m.length

/-- The words of a language either cover a part that stands between edges, alone or with one that stands after them, or leave
it alone. -/
structure Spares (isWord : Char → Bool) (core : List Char → Prop) (part : List Char) : Prop where
  covers : ∀ b before m rest after, before ++ (part ++ after) = m ++ rest → before.length < m.length →
    (before.getLast?.or b).any isWord = false → after.head?.any isWord = false → StandsLongest isWord core b m rest →
    before.length + part.length ≤ m.length ∨
      ∃ covered left, part = covered ++ left ∧ m = before ++ covered ∧ left ≠ [] ∧ Stands isWord core m.getLast? left after
  inside : ∀ b u v m rest after, part = u ++ v → u ≠ [] → v ≠ [] → b.any isWord = false → after.head?.any isWord = false →
    v ++ after = m ++ rest → Stands isWord core u.getLast? m rest →
    ∃ m' rest', part ++ after = m' ++ rest' ∧ Stands isWord core b m' rest'

/-- The beginning of a text after a replacement is outside of words when it was. -/
theorem Pass.head (hmask : Bracketed isWord mask) (h : Tracks isWord core mask b xs out)
    (hhead : (xs.map Prod.fst).head?.any isWord = false) : (out.map Prod.fst).head?.any isWord = false := by
  cases h with
  | nil b => exact hhead
  | replaced _ _ _ _ =>
    rw [List.map_append, map_fst_withMark, List.head?_append_of_ne_nil _ hmask.nonempty]
    exact hmask.opening
  | kept _ _ => exact hhead

/-- Where no word stands in the rest of a part, it is kept. -/
theorem Pass.kept_part {v : List Char} {after : List (Char × Bool)} {u : List Char}
    (hfree : ∀ u' v' m rest, v = u' ++ v' → v' ≠ [] → v' ++ after.map Prod.fst = m ++ rest →
      ¬ Stands isWord core ((u ++ u').getLast?.or b) m rest)
    (h : Tracks isWord core mask (u.getLast?.or b) (withMark true v ++ after) out) :
    ∃ rest, out = withMark true v ++ rest ∧ Tracks isWord core mask ((u ++ v).getLast?.or b) after rest := by
  induction v generalizing u out with
  | nil =>
    rw [List.append_nil]
    exact ⟨out, rfl, h⟩
  | cons c v ih =>
    have hxs : withMark true (c :: v) ++ after = (c, true) :: (withMark true v ++ after) := rfl
    rw [hxs] at h
    generalize hlist : (c, true) :: (withMark true v ++ after) = list at h
    cases h with
    | nil b => cases hlist
    | @replaced _ m rest next nonempty stands longest _ =>
      refine absurd stands ?_
      have := hfree [] (c :: v) (m.map Prod.fst) (rest.map Prod.fst) rfl (List.cons_ne_nil c v)
        (by rw [← List.map_append, ← hlist]; simp)
      rwa [List.append_nil] at this
    | @kept _ x rest next _ hnext =>
      obtain ⟨rfl, rfl⟩ := List.cons.inj hlist
      have hlast : some c = (u ++ [c]).getLast?.or b := by simp
      rw [show some ((c, true) : Char × Bool).1 = (u ++ [c]).getLast?.or b from hlast] at hnext
      obtain ⟨rest, rfl, hrest⟩ := ih (u := u ++ [c]) (fun u' v' m rest hv hne hsplit => by
        rw [List.append_assoc]
        exact hfree (c :: u') v' m rest (by rw [hv]; rfl) hne hsplit) hnext
      exact ⟨rest, rfl, by simpa using hrest⟩

/-- Marks that are gone in two texts are gone in both together. -/
theorem Gone.append {ys : List (Char × Bool)} (hxs : Gone xs) (hys : Gone ys) : Gone (xs ++ ys) := by
  intro x hx
  rcases List.mem_append.mp hx with hx | hx
  · exact hxs x hx
  · exact hys x hx

/-- A part that stands at the beginning is covered. -/
theorem Pass.gone_of_stands {left : List Char} {after : List (Char × Bool)} (hafter : Gone after) (hne : left ≠ [])
    (hstands : Stands isWord core b left (after.map Prod.fst)) (h : Tracks isWord core mask b (withMark true left ++ after) out) :
    Gone out := by
  generalize hlist : withMark true left ++ after = list at h
  cases h with
  | nil b => exact absurd (List.map_eq_nil_iff.mp (List.append_eq_nil_iff.mp hlist).1) hne
  | @replaced _ m rest next nonempty stands longest hnext =>
    have hle := longest (withMark true left) after hlist.symm (by rwa [map_fst_withMark])
    apply (gone_withMark mask).append
    rcases List.append_eq_append_iff.mp hlist with ⟨more, -, rfl⟩ | ⟨more, hmore, rfl⟩
    · exact Gone.pass (fun x hx => hafter x (List.mem_append_right _ hx)) hnext
    · rw [hmore, List.length_append] at hle
      obtain rfl := List.length_eq_zero_iff.mp (show more.length = 0 by omega)
      exact hafter.pass hnext
  | @kept _ x rest next free _ =>
    exact absurd (by rwa [map_fst_withMark]) (free (withMark true left) after hlist.symm)

/-- A replacement whose words cover a part or leave it alone takes its marks away, or leaves it where nothing stands. -/
theorem Remains.pass (hmask : Bracketed isWord mask) (hspares : Spares isWord core part) (hpart : part ≠ [])
    (hremains : Remains isWord part b xs) (h : Tracks isWord core mask b xs out) :
    Gone out ∨ Remains isWord part b out ∧
      ∃ b' after, b'.any isWord = false ∧ after.head?.any isWord = false ∧ ¬ Stands isWord core b' part after := by
  induction h with
  | nil b =>
    obtain ⟨before, after, hsplit, -⟩ := hremains.split
    have hnil := (List.append_eq_nil_iff.mp (List.append_eq_nil_iff.mp hsplit.symm).2).1
    exact absurd (List.map_eq_nil_iff.mp hnil) hpart
  | @replaced b m rest out nonempty stands longest hnext ih =>
    obtain ⟨before, after, hsplit, hbefore, hafter, hlast, hhead⟩ := hremains.split
    rcases Nat.lt_or_ge before.length m.length with hlt | hle
    · left
      apply (gone_withMark mask).append
      have hcovers := hspares.covers b (before.map Prod.fst) (m.map Prod.fst) (rest.map Prod.fst) (after.map Prod.fst)
        (by rw [← List.map_append, hsplit]; simp) (by simpa using hlt) hlast hhead ⟨stands, fun m' rest' hsplit' hstands' => by
          rw [← List.map_append] at hsplit'
          obtain ⟨m₀, rest₀, hsplit₀, rfl, rfl⟩ := List.map_eq_append_iff.mp hsplit'
          simpa using longest m₀ rest₀ hsplit₀ hstands'⟩
      rcases hcovers with hcovers | ⟨covered, left, rfl, hm, hne, hleft⟩
      · have hdrop : rest = after.drop (m.length - (before.length + part.length)) := by
          have hlength : (before ++ withMark true part).length = before.length + part.length := by simp [withMark]
          simp only [List.length_map] at hcovers
          have := congrArg (List.drop m.length) hsplit
          rw [List.drop_left, ← List.append_assoc, List.drop_append, hlength, List.drop_eq_nil_of_le (by rw [hlength]; exact hcovers),
            List.nil_append] at this
          exact this
        exact Gone.pass (fun x hx => hafter x (List.mem_of_mem_drop (hdrop ▸ hx))) hnext
      · have hrest : rest = withMark true left ++ after := by
          have hlength : m.length = (before ++ withMark true covered).length := by
            simpa [withMark] using congrArg List.length hm
          rw [withMark, List.map_append, List.append_assoc, ← List.append_assoc before] at hsplit
          exact (List.append_inj hsplit hlength).2
        rw [hrest] at hnext
        exact hnext.gone_of_stands hafter hne hleft
    · obtain ⟨before', rfl, hrest⟩ : ∃ before', before = m ++ before' ∧ rest = before' ++ (withMark true part ++ after) := by
        rcases List.append_eq_append_iff.mp hsplit with ⟨more, hmore, hrest⟩ | ⟨more, rfl, hrest⟩
        · exact ⟨more, hmore, hrest⟩
        · rw [List.length_append] at hle
          obtain rfl := List.length_eq_zero_iff.mp (show more.length = 0 by omega)
          exact ⟨[], by simp, by simpa using hrest.symm⟩
      rw [List.map_append, getLast?_append_or (by simpa using nonempty)] at hlast
      rcases ih ⟨before', after, hrest, fun x hx => hbefore x (List.mem_append_right _ hx), hafter, hlast, hhead⟩ with
        hgone | ⟨hremains', hnot⟩
      · exact .inl ((gone_withMark mask).append hgone)
      · obtain ⟨before'', after'', rfl, hbefore'', hafter'', hlast'', hhead''⟩ := hremains'.split
        refine .inr ⟨⟨withMark false mask ++ before'', after'', by simp, (gone_withMark mask).append hbefore'', hafter'', ?_,
          hhead''⟩, hnot⟩
        rw [List.map_append, map_fst_withMark, getLast?_append_or hmask.nonempty]
        cases hlastOf : (before''.map Prod.fst).getLast? with
        | none => exact hmask.closing
        | some c =>
          rw [hlastOf] at hlast''
          exact hlast''
  | @kept b x rest out free hnext ih =>
    obtain ⟨before, after, hsplit, hbefore, hafter, hlast, hhead⟩ := hremains.split
    cases before with
    | nil =>
      right
      rw [List.nil_append] at hsplit
      have hfree : ∀ m' rest', part ++ after.map Prod.fst = m' ++ rest' → ¬ Stands isWord core b m' rest' := by
        intro m' rest' hsplit' hstands'
        have hmap : (x :: rest).map Prod.fst = m' ++ rest' := by rw [hsplit, List.map_append, map_fst_withMark, hsplit']
        obtain ⟨m₀, rest₀, hsplit₀, rfl, rfl⟩ := List.map_eq_append_iff.mp hmap
        exact free m₀ rest₀ hsplit₀ hstands'
      have hwhole := Pass.kept free hnext
      rw [hsplit] at hwhole
      obtain ⟨out', hout, hrest⟩ := Pass.kept_part (u := []) (fun u v m' rest' hv hne hsplit' hstands' => by
        cases u with
        | nil =>
          rw [List.nil_append] at hv
          rw [← hv] at hsplit'
          exact hfree m' rest' hsplit' hstands'
        | cons c u =>
          rw [List.nil_append, getLast?_or_of_ne_nil (List.cons_ne_nil c u)] at hstands'
          obtain ⟨m₀, rest₀, hsplit₀, hstands₀⟩ := hspares.inside b (c :: u) v m' rest' _ hv (List.cons_ne_nil c u) hne hlast hhead
            hsplit' hstands'
          exact hfree m₀ rest₀ hsplit₀ hstands₀) hwhole
      refine ⟨⟨[], out', hout, hbefore, hafter.pass hrest, hlast, hrest.head hmask hhead⟩, b, _, hlast, hhead, ?_⟩
      exact hfree part _ rfl
    | cons y before =>
      obtain ⟨rfl, rfl⟩ := List.cons.inj hsplit
      rw [List.map_cons, getLast?_cons_or] at hlast
      have hx := hbefore x List.mem_cons_self
      rcases ih ⟨before, after, rfl, fun z hz => hbefore z (List.mem_cons_of_mem _ hz), hafter, hlast, hhead⟩ with
        hgone | ⟨hremains', hnot⟩
      · exact .inl (List.forall_mem_cons.mpr ⟨hx, hgone⟩)
      · obtain ⟨before'', after'', rfl, hbefore'', hafter'', hlast'', hhead''⟩ := hremains'.split
        refine .inr ⟨⟨x :: before'', after'', rfl, List.forall_mem_cons.mpr ⟨hx, hbefore''⟩, hafter'', ?_, hhead''⟩, hnot⟩
        rw [List.map_cons, getLast?_cons_or]
        exact hlast''

/-! ## What a replacement does in one place -/

/-- The longest word at the beginning of a text is replaced. -/
theorem Pass.replaces {word rest : List (Char × Bool)} (hne : word ≠ [])
    (hstands : StandsLongest isWord core b (word.map Prod.fst) (rest.map Prod.fst))
    (h : Tracks isWord core mask b (word ++ rest) out) :
    ∃ out', out = withMark false mask ++ out' ∧ Tracks isWord core mask (word.map Prod.fst).getLast? rest out' := by
  generalize hlist : word ++ rest = list at h
  cases h with
  | nil b => exact absurd (List.append_eq_nil_iff.mp hlist).1 hne
  | @replaced _ m rest' next nonempty stands longest hnext =>
    have hle := longest word rest hlist.symm hstands.1
    have hge := hstands.2 (m.map Prod.fst) (rest'.map Prod.fst) (by rw [← List.map_append, hlist, List.map_append]) stands
    simp only [List.length_map] at hge
    obtain ⟨rfl, rfl⟩ := List.append_inj hlist (Nat.le_antisymm hle hge)
    exact ⟨next, rfl, hnext⟩
  | @kept _ x rest' next free _ => exact absurd hstands.1 (free word rest hlist.symm)

/-- A text without a character that every word has is kept. -/
theorem Pass.eq_of_absent {c : Char} (hcore : ∀ m, core m → c ∈ m) (hc : c ∉ xs.map Prod.fst)
    (h : Tracks isWord core mask b xs out) : out = xs := by
  induction h with
  | nil b => rfl
  | replaced _ stands _ _ _ =>
    rw [List.map_append] at hc
    exact absurd (List.mem_append_left _ (hcore _ stands.1)) hc
  | kept _ _ ih =>
    rw [ih fun hmem => hc (List.mem_cons_of_mem _ hmem)]

/-- A character that no word of the language covers is kept. -/
theorem Pass.mem_of_uncovered {x : Char × Bool} {before after : List (Char × Bool)}
    (hcore : ∀ b u v w rest, before = u ++ v → after = w ++ rest →
      ¬ Stands isWord core b ((v ++ x :: w).map Prod.fst) (rest.map Prod.fst))
    (h : Tracks isWord core mask b (before ++ x :: after) out) : x ∈ out := by
  generalize hlist : before ++ x :: after = list at h
  induction h generalizing before with
  | nil b => simp at hlist
  | @replaced b m rest out nonempty stands _ _ ih =>
    rcases List.append_eq_append_iff.mp hlist with ⟨more, rfl, hmore⟩ | ⟨more, rfl, hmore⟩
    · cases more with
      | nil =>
        exact List.mem_append_right _ (@ih [] (fun b u v w rest' hu hw => by
          obtain ⟨rfl, rfl⟩ := List.append_eq_nil_iff.mp hu.symm
          exact hcore b before [] w rest' (by simp) hw) (by simpa using hmore))
      | cons y more =>
        obtain ⟨rfl, hafter⟩ := List.cons.inj hmore
        exact absurd stands (hcore b [] before more rest rfl hafter)
    · exact List.mem_append_right _ (ih (fun b u v w rest' hu hw =>
        hcore b (m ++ u) v w rest' (by rw [hu, List.append_assoc]) hw) hmore.symm)
  | @kept b y rest out _ _ ih =>
    cases before with
    | nil =>
      obtain ⟨rfl, -⟩ := List.cons.inj hlist
      exact List.mem_cons_self
    | cons z before =>
      obtain ⟨rfl, hrest⟩ := List.cons.inj hlist
      exact List.mem_cons_of_mem _ (ih (fun b u v w rest' hu hw => hcore b (z :: u) v w rest' (by rw [hu]; rfl) hw) hrest)

/-! ## Characters that are never replaced -/

/-- A character that no word of the language has is kept. -/
theorem Pass.mem_of_outside {x : Char × Bool} (hcore : ∀ m, core m → x.1 ∉ m) (h : Tracks isWord core mask b xs out)
    (hx : x ∈ xs) : x ∈ out := by
  induction h with
  | nil b => exact hx
  | @replaced b m rest out nonempty stands _ _ ih =>
    rcases List.mem_append.mp hx with hx | hx
    · exact absurd (List.mem_map_of_mem hx) (hcore _ stands.1)
    · exact List.mem_append_right _ (ih hx)
  | kept _ _ ih =>
    rcases List.mem_cons.mp hx with rfl | hx
    · exact List.mem_cons_self
    · exact List.mem_cons_of_mem _ (ih hx)

/-- A character outside of words at the beginning of a text is kept. -/
theorem Pass.exists_head {x : Char × Bool} {rest : List (Char × Bool)} (hb : b.any isWord = false)
    (hx : isWord x.1 = false) (h : Tracks isWord core mask b (x :: rest) out) : ∃ out', out = x :: out' := by
  generalize hlist : x :: rest = list at h
  cases h with
  | nil b => cases hlist
  | @replaced _ m rest' next nonempty stands _ _ =>
    cases m with
    | nil => exact absurd rfl nonempty
    | cons y m =>
      obtain ⟨rfl, -⟩ := List.cons.inj hlist
      refine absurd ?_ stands.2.1
      rw [hb, List.map_cons, List.head?_cons, Option.any_some, hx]
  | @kept _ y rest' next _ _ =>
    obtain ⟨rfl, -⟩ := List.cons.inj hlist
    exact ⟨next, rfl⟩

/-- The empty text is kept. -/
theorem Pass.out_nil (h : Tracks isWord core mask b [] out) : out = [] := by
  generalize hlist : ([] : List (Char × Bool)) = list at h
  cases h with
  | nil b => rfl
  | replaced nonempty _ _ _ => exact absurd (List.append_eq_nil_iff.mp hlist.symm).1 nonempty
  | kept _ _ => cases hlist

/-- A character outside of words at the end of a text is kept. -/
theorem Pass.exists_last {x : Char × Bool} {front : List (Char × Bool)} (hx : isWord x.1 = false)
    (h : Tracks isWord core mask b (front ++ [x]) out) : ∃ out', out = out' ++ [x] := by
  generalize hlist : front ++ [x] = list at h
  induction h generalizing front with
  | nil b => simp at hlist
  | @replaced b m rest out nonempty stands _ _ ih =>
    cases rest using List.reverseRecOn with
    | nil =>
      rw [List.append_nil] at hlist
      refine absurd ?_ stands.2.2
      rw [← hlist, List.map_append, List.map_singleton, List.getLast?_concat, Option.any_some, hx]
      rfl
    | append_singleton rest y _ =>
      rw [← List.append_assoc] at hlist
      obtain ⟨-, hxy⟩ := List.append_inj' hlist rfl
      obtain rfl := (List.cons.inj hxy).1
      obtain ⟨out', rfl⟩ := ih rfl
      exact ⟨withMark false mask ++ out', by rw [List.append_assoc]⟩
  | @kept b y rest out _ hnext ih =>
    cases front with
    | nil =>
      obtain ⟨rfl, rfl⟩ := List.cons.inj hlist
      exact ⟨[], by rw [hnext.out_nil]; rfl⟩
    | cons z front =>
      obtain ⟨rfl, hrest⟩ := List.cons.inj hlist
      obtain ⟨out', rfl⟩ := ih hrest
      exact ⟨z :: out', rfl⟩

end FleetWorkflow.Python
