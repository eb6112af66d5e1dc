import Mathlib.Data.List.Induction
import FleetWorkflow.Semantic.Scopes

/-!
# Isolation of the semantic cache

Calls to store, to invalidate and the expiry of keys, one after another. A lookup that follows keeps to its scope exactly
when Redis has no entry that its pattern confuses with its own.
-/

namespace FleetWorkflow.Semantic

open Python Async Store

/-! ## One call -/

section Calls

variable {env : Env} {w w' : World} {stored : Scope → String → Prop}

/-- A call fails and leaves Redis, or is answered. -/
theorem answer_cases (env : Env) (w : World) (c : Call) :
    (∃ error, w.answer env c = (⟨w.redis, w.tick + 1⟩, .error error)) ∨
      w.answer env c = (⟨(w.respond env c).1, w.tick + 1⟩, (w.respond env c).2) := by
  rw [World.answer]
  cases env.fault w.tick with
  | some error => exact .inl ⟨error, rfl⟩
  | none => exact .inr rfl

/-- A call at the start of a coroutine: it fails, or the coroutine goes on with the reply. -/
theorem run_await_bind {α : Type} (env : Env) (w : World) (c : Call) (f : Reply c → Coroutine α) :
    (∃ error, (await c >>= f).run (World.answer env) w = (⟨w.redis, w.tick + 1⟩, .error error)) ∨
      (await c >>= f).run (World.answer env) w =
        (Prog.ofExcept (w.respond env c).2 >>= f).run (World.answer env) ⟨(w.respond env c).1, w.tick + 1⟩ := by
  rcases answer_cases env w c with ⟨error, hanswer⟩ | hanswer
  · left
    exact ⟨error, by rw [Prog.run_bind, Prog.run_call, hanswer]⟩
  · right
    rw [Prog.run_bind, Prog.run_call, hanswer, Prog.run_bind, Prog.run_ofExcept]

/-- The generation that is read is the one that Redis has. -/
theorem run_generation (env : Env) (h : w.redis.Holds stored) (collectionId : ℤ) :
    (∃ error, (generation collectionId).run (World.answer env) w = (⟨w.redis, w.tick + 1⟩, .error error)) ∨
      (generation collectionId).run (World.answer env) w =
        (⟨w.redis, w.tick + 1⟩, .ok (w.redis.generationOf collectionId)) := by
  rw [generation]
  rcases run_await_bind env w (.get (generationKey collectionId)) _ with ⟨error, hrun⟩ | hrun
  · exact .inl ⟨error, hrun⟩
  · right
    rw [hrun]
    rcases h.get_generationKey collectionId with ⟨hget, hgeneration⟩ | hget
    · simp only [World.respond, hget, hgeneration]
      rfl
    · simp only [World.respond, hget]
      rfl

/-- A store keeps its answer under the generation that Redis has, or leaves Redis. -/
theorem run_store (env : Env) (h : w.redis.Holds stored) (agentId : String) (collectionId : ℤ) (embedding : List Float)
    (answer : String) (ttlSeconds : ℤ) :
    ((store agentId collectionId embedding answer ttlSeconds).run (World.answer env) w).1.redis = w.redis ∨
      ∃ uuid, ((store agentId collectionId embedding answer ttlSeconds).run (World.answer env) w).1.redis =
        w.redis.set (Scope.key ⟨agentId, collectionId, w.redis.generationOf collectionId⟩ uuid)
          (.payload ⟨embedding, answer⟩) := by
  rw [store]
  rcases run_generation env h collectionId with ⟨error, hrun⟩ | hrun
  · left
    rw [Prog.run_bind, hrun]
  · rw [Prog.run_bind, hrun]
    simp only
    rcases run_await_bind env ⟨w.redis, w.tick + 1⟩ .uuid4 _ with ⟨error, hrun⟩ | hrun
    · exact .inl (by rw [hrun])
    · rw [hrun]
      simp only [World.respond, Prog.ofExcept_ok, Prog.done_bind]
      rw [Prog.run_call]
      rcases answer_cases env ⟨w.redis, w.tick + 1 + 1⟩ (.set _ _ _) with ⟨error, hanswer⟩ | hanswer
      · exact .inl (by rw [hanswer])
      · exact .inr ⟨_, by rw [hanswer]; rfl⟩

/-- An invalidation counts a generation up, or leaves Redis. -/
theorem run_invalidateCollection (env : Env) (w : World) (collectionId : ℤ) :
    ((invalidateCollection collectionId).run (World.answer env) w).1.redis = w.redis ∨
      ((invalidateCollection collectionId).run (World.answer env) w).1.redis =
        (w.redis.incr (generationKey collectionId)).1 := by
  rw [invalidateCollection]
  rcases run_await_bind env w (.incr (generationKey collectionId)) _ with ⟨error, hrun⟩ | hrun
  · exact .inl (by rw [hrun])
  · right
    rw [hrun, Prog.run_bind, Prog.run_ofExcept]
    simp only [World.respond]
    cases (w.redis.incr (generationKey collectionId)).2 with
    | ok n => rfl
    | error error => rfl

/-- The best answer is the one so far, or that of an entry that Redis has under one of the keys. -/
theorem run_scan {embedding : List Float} {keys : List String} {bestScore score : Float} {bestAnswer : Option String}
    {answer : String} (h : (scan embedding keys bestScore bestAnswer).run (World.answer env) w =
      (w', .ok (score, some answer))) :
    bestAnswer = some answer ∨
      ∃ key ∈ keys, ∃ entry, (key, .payload entry) ∈ w.redis.rows ∧ entry.answer = answer := by
  induction keys generalizing w bestScore bestAnswer with
  | nil =>
    simp only [scan, Prog.pure_eq, Prog.run, Prod.mk.injEq, Except.ok.injEq] at h
    exact .inl h.2.2
  | cons key rest ih =>
    have hrest {score' : Float} {bestAnswer' : Option String}
        (hrun : (scan embedding rest score' bestAnswer').run (World.answer env) ⟨w.redis, w.tick + 1⟩ =
          (w', .ok (score, some answer))) : bestAnswer' = some answer ∨
          ∃ key' ∈ key :: rest, ∃ entry, (key', .payload entry) ∈ w.redis.rows ∧ entry.answer = answer := by
      rcases ih hrun with hbest | ⟨key', hkey, hentry⟩
      · exact .inl hbest
      · exact .inr ⟨key', List.mem_cons_of_mem _ hkey, hentry⟩
    rw [scan] at h
    rcases run_await_bind env w (.get key) _ with ⟨error, hrun⟩ | hrun
    · rw [hrun] at h
      cases h
    · rw [hrun] at h
      simp only [World.respond, Prog.ofExcept_ok, Prog.done_bind] at h
      cases hget : w.redis.get key with
      | none =>
        rw [hget] at h
        exact hrest h
      | some raw =>
        rw [hget] at h
        obtain ⟨w₁, entry, hentry, hscored⟩ := Prog.run_bind_eq_ok h
        obtain ⟨w₂, found, hscore, hgoes⟩ := Prog.run_bind_eq_ok hscored
        rw [Prog.run_ofExcept, Prod.mk.injEq] at hentry hscore
        rw [← hscore.1, ← hentry.1] at hgoes
        cases raw with
        | number n => cases hentry.2
        | payload kept =>
          obtain rfl : kept = entry := Except.ok.inj hentry.2
          split at hgoes
          · rcases hrest hgoes with hbest | hkey
            · exact .inr ⟨key, List.mem_cons_self, kept, Redis.get_eq_some.mp hget, Option.some.inj hbest⟩
            · exact .inr hkey
          · exact hrest hgoes

/-- A hit is the answer of an entry whose key the pattern of the lookup matches. -/
theorem run_lookup (h : w.redis.Holds stored) {cache : SemanticCache} {agentId : String} {collectionId : ℤ}
    {embedding : List Float} {hit : CacheHit}
    (hrun : ((cache.lookup agentId collectionId embedding).run (World.answer env) w).2 = .ok (some hit)) :
    ∃ key entry, (key, .payload entry) ∈ w.redis.rows ∧ entry.answer = hit.answer ∧
      env.glob.matchesKey (Scope.pattern ⟨agentId, collectionId, w.redis.generationOf collectionId⟩) key = true := by
  rw [SemanticCache.lookup] at hrun
  rcases run_generation env h collectionId with ⟨error, hfirst⟩ | hfirst
  · rw [Prog.run_bind, hfirst] at hrun
    cases hrun
  · rw [Prog.run_bind, hfirst] at hrun
    simp only at hrun
    rcases run_await_bind env ⟨w.redis, w.tick + 1⟩ (.keys _) _ with ⟨error, hkeys⟩ | hkeys
    · rw [hkeys] at hrun
      cases hrun
    · rw [hkeys] at hrun
      simp only [World.respond, Prog.ofExcept_ok, Prog.done_bind] at hrun
      obtain ⟨w₁, ⟨score, best⟩, hscan, hbest⟩ := Prog.run_bind_eq_ok (Prod.ext rfl hrun)
      have hhit : hitOf cache.threshold (score, best) = some hit := Except.ok.inj (Prod.mk.inj hbest).2
      cases best with
      | none => cases hhit
      | some answer =>
        obtain rfl : ⟨answer, true⟩ = hit := by
          simp only [hitOf] at hhit
          split at hhit
          · exact Option.some.inj hhit
          · cases hhit
        rcases run_scan hscan with hnone | ⟨key, hkey, entry, hrow, hanswer⟩
        · cases hnone
        · rw [env.mem_order, List.mem_filter] at hkey
          exact ⟨key, entry, hrow, hanswer, hkey.2⟩

end Calls

/-! ## Calls one after another -/

/-- A call on the cache that changes what is kept, and the end of a key's time. -/
inductive CacheOp where
  | store (agentId : String) (collectionId : ℤ) (embedding : List Float) (answer : String) (ttlSeconds : ℤ)
  | invalidateCollection (collectionId : ℤ)
  | expire (key : String)

/-- The coroutine of a call. -/
def CacheOp.task : CacheOp → Coroutine Unit
  | .store agentId collectionId embedding answer ttlSeconds =>
    Semantic.store agentId collectionId embedding answer ttlSeconds
  | .invalidateCollection collectionId => Semantic.invalidateCollection collectionId
  | .expire key => await (.expire key)

/-- The world after calls one after another. -/
def serve (env : Env) (ops : List CacheOp) : World :=
  ops.foldl (fun w op => (op.task.run (World.answer env) w).1) .initial

/-- An answer was stored under a scope by one of the calls. -/
def StoredUnder (env : Env) (ops : List CacheOp) (scope : Scope) (answer : String) : Prop :=
  ∃ before after embedding ttlSeconds,
    ops = before ++ .store scope.agentId scope.collectionId embedding answer ttlSeconds :: after ∧
      (serve env before).redis.generationOf scope.collectionId = scope.generation

/-- The scope of a lookup that follows the calls. -/
def scopeAfter (env : Env) (ops : List CacheOp) (agentId : String) (collectionId : ℤ) : Scope :=
  ⟨agentId, collectionId, (serve env ops).redis.generationOf collectionId⟩

/-- A lookup that follows the calls keeps to its scope: its pattern matches entries of the scope only, and what it
returns was stored under the scope. -/
structure Isolated (env : Env) (cache : SemanticCache) (ops : List CacheOp) (agentId : String) (collectionId : ℤ) :
    Prop where
  keys : ∀ key entry, (key, .payload entry) ∈ (serve env ops).redis.rows →
    env.glob.matchesKey (scopeAfter env ops agentId collectionId).pattern key = true →
      (∃ uuid, key = (scopeAfter env ops agentId collectionId).key uuid) ∧
        StoredUnder env ops (scopeAfter env ops agentId collectionId) entry.answer
  answers : ∀ embedding hit,
    ((cache.lookup agentId collectionId embedding).run (World.answer env) (serve env ops)).2 = .ok (some hit) →
      StoredUnder env ops (scopeAfter env ops agentId collectionId) hit.answer

section Serve

variable {env : Env} {cache : SemanticCache} {ops : List CacheOp} {agentId : String} {collectionId : ℤ}

/-- What was stored was stored also after one more call. -/
theorem StoredUnder.concat {scope : Scope} {answer : String} (h : StoredUnder env ops scope answer) (op : CacheOp) :
    StoredUnder env (ops ++ [op]) scope answer := by
  obtain ⟨before, after, embedding, ttlSeconds, hops, hgeneration⟩ := h
  exact ⟨before, after ++ [op], embedding, ttlSeconds, by simp [hops], hgeneration⟩

/-- Redis holds what the calls stored. -/
theorem holds_serve (env : Env) (ops : List CacheOp) : (serve env ops).redis.Holds (StoredUnder env ops) := by
  induction ops using List.reverseRecOn with
  | nil => exact Redis.Holds.empty
  | append_singleton ops op ih =>
    have hkeeps : (serve env ops).redis.Holds (StoredUnder env (ops ++ [op])) := ih.mono fun _ _ h => h.concat op
    have hlast : serve env (ops ++ [op]) = (op.task.run (World.answer env) (serve env ops)).1 := by simp [serve]
    rw [hlast]
    cases op with
    | store agentId collectionId embedding answer ttlSeconds =>
      rcases run_store env ih agentId collectionId embedding answer ttlSeconds with hsame | ⟨uuid, hset⟩
      · rw [CacheOp.task, hsame]
        exact hkeeps
      · rw [CacheOp.task, hset]
        exact hkeeps.set ⟨ops, [], embedding, ttlSeconds, rfl, rfl⟩
    | invalidateCollection collectionId =>
      rcases run_invalidateCollection env (serve env ops) collectionId with hsame | hincr
      · rw [CacheOp.task, hsame]
        exact hkeeps
      · rw [CacheOp.task, hincr]
        exact hkeeps.incr collectionId
    | expire key =>
      rw [CacheOp.task, Prog.run_call]
      rcases answer_cases env (serve env ops) (.expire key) with ⟨error, hanswer⟩ | hanswer
      · rw [hanswer]
        exact hkeeps
      · rw [hanswer]
        exact hkeeps.expire key

variable (env cache ops agentId collectionId)

/-- A lookup that follows calls to store and to invalidate keeps to its scope exactly when Redis has no entry of another
scope that is confused with it. -/
theorem isolated_iff : Isolated env cache ops agentId collectionId ↔
    ∀ other uuid entry, (Scope.key other uuid, .payload entry) ∈ (serve env ops).redis.rows →
      other ≠ scopeAfter env ops agentId collectionId →
        ¬ Confused env.glob (scopeAfter env ops agentId collectionId) other uuid := by
  have hholds := holds_serve env ops
  constructor
  · intro h other uuid entry hrow hother hconfused
    obtain ⟨⟨uuid', hkey⟩, -⟩ := h.keys _ entry hrow ((matchesKey_pattern hother).mpr hconfused)
    exact hother (Scope.key_inj hkey)
  · intro h
    have hkeys : ∀ key entry, (key, .payload entry) ∈ (serve env ops).redis.rows →
        env.glob.matchesKey (scopeAfter env ops agentId collectionId).pattern key = true →
          (∃ uuid, key = (scopeAfter env ops agentId collectionId).key uuid) ∧
            StoredUnder env ops (scopeAfter env ops agentId collectionId) entry.answer := by
      intro key entry hrow hmatch
      obtain ⟨other, uuid, rfl, hstored⟩ := hholds.payloads key entry hrow
      by_cases hother : other = scopeAfter env ops agentId collectionId
      · rw [hother] at hstored ⊢
        exact ⟨⟨uuid, rfl⟩, hstored⟩
      · exact absurd ((matchesKey_pattern hother).mp hmatch) (h other uuid entry hrow hother)
    refine ⟨hkeys, fun embedding hit hrun => ?_⟩
    obtain ⟨key, entry, hrow, hanswer, hmatch⟩ := run_lookup hholds hrun
    rw [← hanswer]
    exact (hkeys key entry hrow hmatch).2

end Serve

/-! ## Two agents -/

/-- A pattern without the stars at its end. -/
def withoutStars (pattern : String) : String :=
  String.ofList (pattern.toList.reverse.dropWhile fun c => c = '*').reverse

/-- Only the stars at the end of a literal pattern are dropped. -/
theorem withoutStars_literal {text : String} (h : Literal text) : withoutStars (text ++ "*") = text := by
  have hstar : "*".toList = ['*'] := by simp
  have hkept : (text.toList.reverse.dropWhile fun c => decide (c = '*')) = text.toList.reverse := by
    cases hchars : text.toList.reverse with
    | nil => rfl
    | cons c rest =>
      have hc := List.all_eq_true.mp h c (List.mem_reverse.mp (hchars ▸ List.mem_cons_self))
      have hne : ¬ c = '*' := by
        rintro rfl
        exact absurd hc (by decide)
      simp [hne]
  rw [withoutStars, String.toList_append, hstar, List.reverse_append]
  simp [hkept]

/-- Patterns that are read as themselves but for the stars at their end. -/
def prefixGlob : Glob where
  matchesKey pattern key := startsWith key (withoutStars pattern)
  literal text key h := by rw [withoutStars_literal h]

/-- Surroundings in which no call fails; the content that is read changes with the fourth call. -/
def quietEnv : Env where
  glob := prefixGlob
  fault _ := none
  uuid _ := ⟨"00000000-0000-4000-8000-000000000001", by decide⟩
  content tick _ := if tick ≤ 3 then "The fee is 10." else "The fee is 20."
  generated _ _ content := content
  order _ keys := keys
  mem_order _ _ _ := Iff.rfl

/-- An agent whose name continues that of another stores an answer, and the collection of the other is invalidated
twice. -/
def continuedOps : List CacheOp :=
  [.store "support:1" 2 [1] "An answer of support:1." 86400, .invalidateCollection 1, .invalidateCollection 1]

/-- The answer of one agent is returned to the other. -/
theorem not_isolated_continued : ¬ Isolated quietEnv ⟨0.95⟩ continuedOps "support" 1 := by
  intro h
  have hhit : (((SemanticCache.mk 0.95).lookup "support" 1 [1]).run (World.answer quietEnv)
      (serve quietEnv continuedOps)).2 = .ok (some ⟨"An answer of support:1.", true⟩) := by
    decide +kernel
  obtain ⟨before, after, embedding, ttlSeconds, hops, -⟩ := h.answers [1] ⟨"An answer of support:1.", true⟩ hhit
  have hmem : CacheOp.store "support" 1 embedding "An answer of support:1." ttlSeconds ∈ continuedOps := by
    rw [hops]
    exact List.mem_append_right _ List.mem_cons_self
  simp [continuedOps] at hmem

end FleetWorkflow.Semantic
