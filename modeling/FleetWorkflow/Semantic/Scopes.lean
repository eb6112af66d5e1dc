import FleetWorkflow.Python.Separated
import FleetWorkflow.Semantic.Cache

/-!
# Scopes of the semantic cache

A key tells its scope when it is read from its end, where the identifier, the generation and the collection have no
colon. The pattern of a lookup is read from its start, where the agent may have colons and special characters, so that it
can match the keys of other scopes: which these are is said by `Confused`, and a lookup keeps to its scope exactly when
none of them is there.
-/

namespace FleetWorkflow.Semantic

open Python Async Store

/-! ## Keys -/

/-- There is no colon in an integer. -/
theorem colon_not_mem_decimal (n : ℤ) : ':' ∉ reprInt n := not_mem_reprInt (by decide) (by decide) n

/-- There is no colon in an identifier. -/
theorem colon_not_mem_uuid (uuid : UuidText) : ':' ∉ uuid.text.toList := by
  intro hmem
  have hform := List.all_eq_true.mp uuid.form ':' hmem
  exact absurd hform (by decide)

/-- The parts of a scope, with colons between them. -/
def Scope.parts (scope : Scope) : List Char :=
  scope.agentId.toList ++ ':' :: (reprInt scope.collectionId ++ ':' :: reprInt scope.generation)

/-- What the keys of a scope start with, in characters. -/
theorem Scope.toList_prefixOf (scope : Scope) :
    scope.prefixOf.toList = "semcache:".toList ++ (scope.parts ++ [':']) := by
  have hcolon : ":".toList = [':'] := by simp
  simp [prefixOf, parts, decimal, hcolon]

/-- A key in characters. -/
theorem Scope.toList_key (scope : Scope) (uuid : UuidText) :
    (scope.key uuid).toList = "semcache:".toList ++ (scope.parts ++ ':' :: uuid.text.toList) := by
  simp [key, String.toList_append, toList_prefixOf]

/-- The parts of a scope tell it. -/
theorem Scope.parts_inj {scope scope' : Scope} (h : scope.parts = scope'.parts) : scope = scope' := by
  rw [parts, parts, ← List.cons_append, ← List.append_assoc, ← List.cons_append, ← List.append_assoc] at h
  have hgeneration := append_separator_inj (colon_not_mem_decimal scope.generation)
    (colon_not_mem_decimal scope'.generation) h
  have hagent := append_separator_inj (colon_not_mem_decimal scope.collectionId)
    (colon_not_mem_decimal scope'.collectionId) hgeneration.1
  have hnumber : (scope.generation : ℤ) = scope'.generation := reprInt_inj hgeneration.2
  cases scope
  cases scope'
  simp only [mk.injEq]
  exact ⟨String.ext hagent.1, reprInt_inj hagent.2, Int.ofNat_inj.mp hnumber⟩

/-- A key tells its scope. -/
theorem Scope.key_inj {scope scope' : Scope} {uuid uuid' : UuidText} (h : scope.key uuid = scope'.key uuid') :
    scope = scope' := by
  have hchars := congrArg String.toList h
  rw [toList_key, toList_key] at hchars
  exact parts_inj (append_separator_inj (colon_not_mem_uuid uuid) (colon_not_mem_uuid uuid')
    (List.append_cancel_left hchars)).1

/-- A pattern tells its scope. -/
theorem Scope.pattern_inj {scope scope' : Scope} (h : scope.pattern = scope'.pattern) : scope = scope' := by
  have hchars := congrArg String.toList h
  rw [pattern, pattern, String.toList_append, String.toList_append, toList_prefixOf, toList_prefixOf] at hchars
  exact parts_inj (List.append_cancel_right (List.append_cancel_left (List.append_cancel_right hchars)))

/-- Different collections have different counters. -/
theorem generationKey_inj {collectionId collectionId' : ℤ} (h : generationKey collectionId = generationKey collectionId') :
    collectionId = collectionId' := by
  have hchars := congrArg String.toList h
  simp only [generationKey, decimal, String.toList_append, String.toList_ofList] at hchars
  exact reprInt_inj (List.append_cancel_left hchars)

/-- No key of a scope is the key of a counter: it has more colons. -/
theorem Scope.key_ne_generationKey (scope : Scope) (uuid : UuidText) (collectionId : ℤ) :
    scope.key uuid ≠ generationKey collectionId := by
  intro h
  have hcolons := congrArg (fun text => text.toList.count ':') h
  have hlabel : "semcache:".toList.count ':' = 1 := by decide
  have hcounter : "semcache:gen:".toList.count ':' = 2 := by decide
  have hnumber : (reprInt collectionId).count ':' = 0 := List.count_eq_zero.mpr (colon_not_mem_decimal collectionId)
  simp only [toList_key, generationKey, String.toList_append, decimal, String.toList_ofList, parts, List.count_append,
    List.count_cons_self, hlabel, hcounter, hnumber] at hcolons
  omega

/-! ## Which keys a pattern matches -/

/-- An agent of another scope continues the parts of a scope behind a colon. -/
def Continues (scope other : Scope) : Prop :=
  (other.agentId = scope.agentId ++ ":" ++ decimal scope.collectionId ∧ other.collectionId = scope.generation) ∨
    other.agentId = scope.agentId ++ ":" ++ decimal scope.collectionId ++ ":" ++ decimal scope.generation ∨
    startsWith other.agentId
      (scope.agentId ++ ":" ++ decimal scope.collectionId ++ ":" ++ decimal scope.generation ++ ":")

/-- An entry of another scope whose key the pattern of a scope matches: its agent continues the scope, or the agent of the
scope has special characters and is read as such. -/
def Confused (glob : Glob) (scope other : Scope) (uuid : UuidText) : Prop :=
  if Literal scope.agentId then Continues scope other else glob.matchesKey scope.pattern (other.key uuid)

/-- The parts of a scope and a colon start a key of the scope and of those that continue it. -/
theorem startsWith_key {scope other : Scope} {uuid : UuidText} :
    startsWith (other.key uuid) scope.prefixOf ↔ other = scope ∨ Continues scope other := by
  have hcolon : ":".toList = [':'] := by simp
  have hparts : scope.parts = (scope.agentId ++ ":" ++ decimal scope.collectionId ++ ":" ++
      decimal scope.generation).toList := by
    simp [Scope.parts, decimal, hcolon]
  have hagent : (scope.agentId ++ ":" ++ decimal scope.collectionId).toList =
      scope.agentId.toList ++ ':' :: reprInt scope.collectionId := by
    simp [decimal, hcolon]
  have hother : other.parts =
      other.agentId.toList ++ ':' :: (reprInt other.collectionId ++ ':' :: reprInt other.generation) := rfl
  rw [startsWith, List.isPrefixOf_iff_prefix, Scope.toList_prefixOf, Scope.toList_key, List.prefix_append_right_inj]
  constructor
  · intro ⟨rest, hrest⟩
    rw [List.append_assoc, List.singleton_append] at hrest
    -- The colon of the pattern is one of the last three of the key, or stands in its agent.
    rcases append_separator_cases (colon_not_mem_uuid uuid) hrest with ⟨hsame, -⟩ | ⟨between, hmore, -⟩
    · exact .inl (Scope.parts_inj hsame).symm
    · right
      rw [hother, ← List.cons_append, ← List.append_assoc] at hmore
      rcases append_separator_cases (colon_not_mem_decimal _) hmore.symm with ⟨hsame, -⟩ | ⟨between, hmore, -⟩
      · rw [Scope.parts, ← List.cons_append, ← List.append_assoc] at hsame
        have hscope := append_separator_inj (colon_not_mem_decimal scope.generation)
          (colon_not_mem_decimal other.collectionId) hsame
        exact .inl ⟨String.ext (hscope.1.symm.trans hagent.symm), (reprInt_inj hscope.2).symm⟩
      · rcases append_separator_cases (colon_not_mem_decimal _) hmore.symm with ⟨hsame, -⟩ | ⟨between, hmore, -⟩
        · exact .inr (.inl (String.ext (hsame.symm.trans hparts)))
        · refine .inr (.inr ?_)
          rw [startsWith, List.isPrefixOf_iff_prefix, String.toList_append, ← hparts, hmore, hcolon]
          exact ⟨between, by simp⟩
  · intro h
    rcases h with rfl | ⟨hagents, hcollection⟩ | hagents | hagents
    · exact ⟨uuid.text.toList, by simp⟩
    · refine ⟨reprInt other.generation ++ ':' :: uuid.text.toList, ?_⟩
      rw [hother, hagents, hagent, hcollection]
      simp [Scope.parts]
    · refine ⟨reprInt other.collectionId ++ ':' :: (reprInt other.generation ++ ':' :: uuid.text.toList), ?_⟩
      rw [hother, hagents, ← hparts]
      simp
    · rw [startsWith, List.isPrefixOf_iff_prefix, String.toList_append, ← hparts, hcolon] at hagents
      obtain ⟨rest, hrest⟩ := hagents
      refine ⟨rest ++ ':' :: (reprInt other.collectionId ++ ':' :: (reprInt other.generation ++ ':' :: uuid.text.toList)), ?_⟩
      rw [hother, ← hrest]
      simp

/-- A scope of a literal agent has a literal pattern up to its star. -/
theorem literal_prefixOf {scope : Scope} (h : Literal scope.agentId) : Literal scope.prefixOf := by
  have hnumber : ∀ n : ℤ, (reprInt n).all (fun c => !isSpecial c) = true := by
    intro n
    rw [List.all_eq_true]
    intro c hc
    by_contra hspecial
    simp only [isSpecial, Bool.not_eq_true', Bool.or_eq_false_iff, decide_eq_false_iff_not, not_and_or, not_not] at hspecial
    rcases hspecial with ((rfl | rfl) | rfl) | rfl <;> exact not_mem_reprInt (by decide) (by decide) n hc
  have hlabel : "semcache:".toList.all (fun c => !isSpecial c) = true := by decide
  have hcolon : (!isSpecial ':') = true := by decide
  rw [Literal] at h ⊢
  rw [Scope.toList_prefixOf]
  simp only [Scope.parts, List.all_append, List.all_cons, List.all_nil, Bool.and_true, h, hnumber, hlabel, hcolon]

/-- The keys that a pattern matches are those of its scope, where it is literal, and the confused ones. -/
theorem matchesKey_pattern {glob : Glob} {scope other : Scope} {uuid : UuidText} (hother : other ≠ scope) :
    glob.matchesKey scope.pattern (other.key uuid) ↔ Confused glob scope other uuid := by
  rw [Confused]
  split
  · rename_i hliteral
    rw [Scope.pattern, glob.literal _ _ (literal_prefixOf hliteral), startsWith_key, or_iff_right hother]
  · exact Iff.rfl

/-! ## What Redis holds -/

/-- The generation that Redis has of a collection. -/
def Redis.generationOf (redis : Redis) (collectionId : ℤ) : ℕ :=
  match redis.get (generationKey collectionId) with
  | some (.number n) => n
  | _ => 0

/-- Redis holds counters of collections, and payloads under keys of scopes in which their answers were stored. -/
structure Redis.Holds (redis : Redis) (stored : Scope → String → Prop) : Prop where
  numbers : ∀ key n, (key, .number n) ∈ redis.rows → ∃ collectionId, key = generationKey collectionId
  payloads : ∀ key entry, (key, .payload entry) ∈ redis.rows →
    ∃ scope uuid, key = Scope.key scope uuid ∧ stored scope entry.answer

section Holds

variable {redis : Redis} {stored stored' : Scope → String → Prop} {collectionId other : ℤ}

namespace Redis

/-- Nothing is held at first. -/
theorem Holds.empty : Holds .empty stored := ⟨fun _ _ hrow => (by cases hrow), fun _ _ hrow => (by cases hrow)⟩

/-- What was stored was stored also later on. -/
theorem Holds.mono (h : redis.Holds stored) (hstored : ∀ scope answer, stored scope answer → stored' scope answer) :
    redis.Holds stored' := by
  refine ⟨h.numbers, fun key entry hrow => ?_⟩
  obtain ⟨scope, uuid, hkey, hanswer⟩ := h.payloads key entry hrow
  exact ⟨scope, uuid, hkey, hstored _ _ hanswer⟩

/-- The counter of a collection is a number. -/
theorem Holds.get_generationKey (h : redis.Holds stored) (collectionId : ℤ) :
    redis.get (generationKey collectionId) = none ∧ redis.generationOf collectionId = 0 ∨
      redis.get (generationKey collectionId) = some (.number (redis.generationOf collectionId)) := by
  rw [generationOf]
  cases hget : redis.get (generationKey collectionId) with
  | none => exact .inl ⟨rfl, rfl⟩
  | some value =>
    cases value with
    | number n => exact .inr rfl
    | payload entry =>
      obtain ⟨scope, uuid, hkey, -⟩ := h.payloads _ entry (get_eq_some.mp hget)
      exact absurd hkey.symm (scope.key_ne_generationKey uuid collectionId)

/-- An entry is stored. -/
theorem Holds.set (h : redis.Holds stored) {scope : Scope} {uuid : UuidText} {entry : Entry}
    (hstored : stored scope entry.answer) : (redis.set (scope.key uuid) (.payload entry)).Holds stored := by
  constructor
  · intro key n hrow
    rcases mem_set.mp hrow with hnew | ⟨hrow, -⟩
    · cases hnew
    · exact h.numbers key n hrow
  · intro key other hrow
    rcases mem_set.mp hrow with hnew | ⟨hrow, -⟩
    · cases hnew
      exact ⟨scope, uuid, rfl, hstored⟩
    · exact h.payloads key other hrow

/-- Storing an entry leaves the generations. -/
theorem generationOf_set (scope : Scope) (uuid : UuidText) (entry : Entry) (collectionId : ℤ) :
    (redis.set (scope.key uuid) (.payload entry)).generationOf collectionId = redis.generationOf collectionId := by
  rw [generationOf, get_set, if_neg (scope.key_ne_generationKey uuid collectionId).symm, generationOf]

/-- A generation is counted up. -/
theorem Holds.incr_eq (h : redis.Holds stored) (collectionId : ℤ) :
    redis.incr (generationKey collectionId) =
      (redis.set (generationKey collectionId) (.number (redis.generationOf collectionId + 1)),
        .ok (redis.generationOf collectionId + 1)) := by
  rcases h.get_generationKey collectionId with ⟨hget, hgeneration⟩ | hget
  · rw [incr, hget, hgeneration]
  · rw [incr, hget]

/-- Counting a generation up keeps what is held. -/
theorem Holds.incr (h : redis.Holds stored) (collectionId : ℤ) :
    (redis.incr (generationKey collectionId)).1.Holds stored := by
  rw [h.incr_eq]
  constructor
  · intro key n hrow
    rcases mem_set.mp hrow with hnew | ⟨hrow, -⟩
    · cases hnew
      exact ⟨collectionId, rfl⟩
    · exact h.numbers key n hrow
  · intro key entry hrow
    rcases mem_set.mp hrow with hnew | ⟨hrow, -⟩
    · cases hnew
    · exact h.payloads key entry hrow

/-- One generation is counted up by one. -/
theorem Holds.generationOf_incr (h : redis.Holds stored) (collectionId other : ℤ) :
    (redis.incr (generationKey collectionId)).1.generationOf other =
      if other = collectionId then redis.generationOf collectionId + 1 else redis.generationOf other := by
  rw [h.incr_eq, generationOf, get_set]
  by_cases hsame : other = collectionId
  · rw [if_pos (congrArg generationKey hsame), if_pos hsame]
  · rw [if_neg fun hkey => hsame (generationKey_inj hkey), if_neg hsame, generationOf]

/-- Expiry keeps what is held. -/
theorem Holds.expire (h : redis.Holds stored) (key : String) : (redis.expire key).Holds stored :=
  ⟨fun _ _ hrow => h.numbers _ _ (mem_of_mem_expire hrow), fun _ _ hrow => h.payloads _ _ (mem_of_mem_expire hrow)⟩

/-- Expiry leaves the generations. -/
theorem Holds.generationOf_expire (h : redis.Holds stored) (key : String) (collectionId : ℤ) :
    (redis.expire key).generationOf collectionId = redis.generationOf collectionId := by
  rcases (h.expire key).get_generationKey collectionId with ⟨hget, hgeneration⟩ | hget
  · rw [hgeneration]
    rcases h.get_generationKey collectionId with ⟨-, hbefore⟩ | hbefore
    · exact hbefore.symm
    · have hrow := get_eq_some.mpr ((number_mem_expire key _).mpr (get_eq_some.mp hbefore))
      rw [hget] at hrow
      cases hrow
  · have hrow := (number_mem_expire key _).mp (get_eq_some.mp hget)
    have hbefore := get_eq_some.mpr hrow
    conv_rhs => rw [generationOf, hbefore]

end Redis

end Holds

end FleetWorkflow.Semantic
