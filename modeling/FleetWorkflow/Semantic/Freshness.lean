import FleetWorkflow.Async.Crew
import FleetWorkflow.Semantic.Isolation

/-!
# Freshness of the semantic cache

Questions that are handled with a cache in front: a lookup, and when it misses, an answer generated from the content of the
collection, which is then stored. Any number of them are interleaved with bare lookups, with invalidations and with the
expiry of keys. A store reads the generation of its collection anew, so that an answer is kept under the generation of the
time at which it is stored, whatever content it was generated from.
-/

namespace FleetWorkflow.Semantic

open Python Async Store

/-- A use of the cache, and the end of a key's time. -/
inductive CacheUse where
  | lookup (agentId : String) (collectionId : ℤ) (embedding : List Float)
  | handle (agentId : String) (collectionId : ℤ) (question : String) (embedding : List Float)
  | invalidateCollection (collectionId : ℤ)
  | expire (key : String)

/-- What follows the lookup of a question: a hit is returned; otherwise an answer is generated and stored. -/
def answerQuestion (agentId : String) (collectionId : ℤ) (question : String) (embedding : List Float) :
    Option CacheHit → Coroutine (Option CacheHit)
  | some hit => return some hit
  | none => do
    let content ← await (.readContent collectionId)
    let answer ← await (.generate question content)
    store agentId collectionId embedding answer defaultTtlSeconds
    return some ⟨answer, false⟩

/-- The coroutine of a use. -/
def CacheUse.task (cache : SemanticCache) : CacheUse → Coroutine (Option CacheHit)
  | .lookup agentId collectionId embedding => cache.lookup agentId collectionId embedding
  | .handle agentId collectionId question embedding =>
    cache.lookup agentId collectionId embedding >>= answerQuestion agentId collectionId question embedding
  | .invalidateCollection collectionId => Semantic.invalidateCollection collectionId >>= fun _ => return none
  | .expire key => await (.expire key) >>= fun _ => return none

/-- The agent and the collection that a use looks up. -/
def CacheUse.looksUp : CacheUse → Option (String × ℤ)
  | .lookup agentId collectionId _ | .handle agentId collectionId _ _ => some (agentId, collectionId)
  | .invalidateCollection _ | .expire _ => none

/-- Uses of one cache, in surroundings. -/
structure Traffic (ι : Type) where
  env : Env
  cache : SemanticCache
  uses : ι → CacheUse

namespace Traffic

variable {ι : Type} [DecidableEq ι] (traffic : Traffic ι)

/-- One task for each use; nothing is kept at first. -/
def crew : Crew Call Reply Exc World ι (Option CacheHit) :=
  ⟨.initial, fun task => (traffic.uses task).task traffic.cache⟩

/-- The world at a moment. -/
def worldAt (moment : List ι) : World := (traffic.crew.exec (World.answer traffic.env) moment).shared

/-- What is left of the tasks at a moment. -/
def runningAt (moment : List ι) : ι → Coroutine (Option CacheHit) :=
  (traffic.crew.exec (World.answer traffic.env) moment).running

/-- The call that a task waits for at a moment. -/
def callAt (moment : List ι) (task : ι) : Option Call :=
  match traffic.runningAt moment task with
  | .await c _ => some c
  | _ => none

/-- The generation of a collection at a moment. -/
def generationAt (moment : List ι) (collectionId : ℤ) : ℕ := (traffic.worldAt moment).redis.generationOf collectionId

/-- What a collection is read as at a moment. -/
def contentAt (moment : List ι) (collectionId : ℤ) : String :=
  traffic.env.content (traffic.worldAt moment).tick collectionId

/-- A task made a call at a moment of the schedule, and it did not fail. -/
structure Made (schedule moment : List ι) (task : ι) (c : Call) : Prop where
  during : moment ++ [task] <+: schedule
  waits : traffic.callAt moment task = some c
  answered : traffic.env.fault (traffic.worldAt moment).tick = none

/-- A task generated an answer from what it read of a collection at a moment. -/
def GeneratedFrom (schedule : List ι) (task : ι) (collectionId : ℤ) (read : List ι) (answer : String) : Prop :=
  traffic.Made schedule read task (.readContent collectionId) ∧ ∃ question later, read ++ [task] <+: later ∧
    traffic.Made schedule later task (.generate question (traffic.contentAt read collectionId)) ∧
    traffic.env.generated (traffic.worldAt later).tick question (traffic.contentAt read collectionId) = answer

/-- No lookup returns what is older than an invalidation before its start: what a lookup returns was generated by one of the
tasks from content that it read after every invalidation of the collection that was made before the lookup started. -/
def Fresh (schedule : List ι) : Prop :=
  ∀ task agentId collectionId answer, (traffic.uses task).looksUp = some (agentId, collectionId) →
    traffic.runningAt schedule task = .done (some ⟨answer, true⟩) →
      ∃ writer read, traffic.GeneratedFrom schedule writer collectionId read answer ∧
        ∀ moment invalidator, traffic.Made schedule moment invalidator (.incr (generationKey collectionId)) →
          moment ++ [invalidator] <+: startOf task schedule → moment ++ [invalidator] <+: read

/-- What keeps lookups fresh: an answer is stored under the generation of the time at which its content was read, and no
lookup lists an entry that is confused with its own. -/
structure Careful (schedule : List ι) : Prop where
  stores : ∀ task collectionId read moment, traffic.Made schedule read task (.readContent collectionId) →
    read ++ [task] <+: moment → traffic.Made schedule moment task (.get (generationKey collectionId)) →
      traffic.generationAt moment collectionId = traffic.generationAt read collectionId
  lookups : ∀ task moment scope, traffic.Made schedule moment task (.keys (Scope.pattern scope)) →
    ∀ other uuid entry, (Scope.key other uuid, .payload entry) ∈ (traffic.worldAt moment).redis.rows →
      other ≠ scope → ¬ Confused traffic.env.glob scope other uuid

/-! ## The protocol of a use -/

/-- How far a task is: a lookup, with its start, its generation, the keys that it listed and the answers that it found; the
answering of a question, with the moment at which the content was read; and the storing of the answer. -/
inductive Phase (ι : Type) where
  | waiting
  | looking (start : List ι) (generation : ℕ) (listed found : List String)
  | answering (read : List ι) (content : String)
  | storing (read : List ι) (answer : String) (generation : Option ℕ)
  | ended

/-- What a counter is read as. -/
def CountsAs (raw : Option Value) (n : ℕ) : Prop := raw = none ∧ n = 0 ∨ raw = some (.number n)

/-- The calls of a lookup and of what follows it. -/
def LookupCalls (agentId : String) (collectionId : ℤ) : Phase ι → Call → Prop
  | .waiting, .get key => key = generationKey collectionId
  | .looking _ generation _ _, .keys pattern => pattern = Scope.pattern ⟨agentId, collectionId, generation⟩
  | .looking _ _ listed _, .get key => key ∈ listed
  | .looking _ _ _ _, .readContent other => other = collectionId
  | .answering _ content, .generate _ other => other = content
  | .storing _ _ none, .get key => key = generationKey collectionId
  | .storing _ _ (some _), .uuid4 => True
  | .storing _ answer (some generation), .set key entry _ =>
    entry.answer = answer ∧ ∃ uuid, key = Scope.key ⟨agentId, collectionId, generation⟩ uuid
  | _, _ => False

/-- The calls of a use. -/
def UseCalls : CacheUse → Phase ι → Call → Prop
  | .lookup agentId collectionId _, phase, c | .handle agentId collectionId _ _, phase, c =>
    LookupCalls agentId collectionId phase c
  | .invalidateCollection collectionId, .waiting, .incr key => key = generationKey collectionId
  | .expire expired, .waiting, .expire key => key = expired
  | _, _, _ => False

/-- How a reply moves a task on; the moments are those of the schedule. -/
def Advances : Phase ι → (c : Call) → Except Exc (Reply c) → Phase ι → Prop
  | _, _, .error _, next => next = .ended
  | .waiting, .get _, .ok raw, next =>
    ∃ start generation, next = .looking start generation [] [] ∧ CountsAs raw generation
  | .looking start generation _ found, .keys _, .ok keys, next => next = .looking start generation keys found
  | .looking start generation listed found, .get _, .ok raw, next =>
    match raw with
    | some (.payload entry) => next = .looking start generation listed (entry.answer :: found)
    | _ => next = .looking start generation listed found
  | .looking _ _ _ _, .readContent _, .ok content, next => ∃ read, next = .answering read content
  | .answering read _, .generate _ _, .ok answer, next => next = .storing read answer none
  | .storing read answer none, .get _, .ok raw, next =>
    ∃ generation, next = .storing read answer (some generation) ∧ CountsAs raw generation
  | .storing read answer generation, .uuid4, .ok _, next => next = .storing read answer generation
  | .storing read answer generation, .set _ _ _, .ok _, next => next = .storing read answer generation
  | _, _, .ok _, next => next = .ended

/-- The protocol of a use. -/
def protocol (use : CacheUse) : Protocol Call Reply Exc (Phase ι) := ⟨UseCalls use, Advances⟩

/-- A use that ends has started, and a kept answer that it returns is one that it found. -/
def Ends (result : Except Exc (Option CacheHit)) (phase : Phase ι) : Prop :=
  phase ≠ .waiting ∧ ∀ answer, result = .ok (some ⟨answer, true⟩) →
    ∃ start generation listed found, phase = .looking start generation listed found ∧ answer ∈ found

omit [DecidableEq ι] in
/-- A task that fails is not waiting any more. -/
theorem ends_of_error {error : Exc} {phase : Phase ι} (h : phase ≠ .waiting) : Ends (.error error) phase :=
  ⟨h, fun _ hanswer => by cases hanswer⟩

section Programs

variable {use : CacheUse} {agentId : String} {collectionId : ℤ}

omit [DecidableEq ι]

/-- A use that looks up may make the calls of a lookup. -/
theorem allowed_of_looksUp (hlooks : use.looksUp = some (agentId, collectionId)) {phase : Phase ι} {c : Call}
    (hcall : LookupCalls agentId collectionId phase c) : (protocol use).allowed phase c := by
  cases use with
  | lookup agentId' collectionId' embedding =>
    cases hlooks
    exact hcall
  | handle agentId' collectionId' question embedding =>
    cases hlooks
    exact hcall
  | invalidateCollection collectionId' => cases hlooks
  | expire key => cases hlooks

/-- The rule of reading a generation. -/
theorem ensures_generation {α : Type} {P : Protocol Call Reply Exc (Phase ι)} {post : Except Exc α → Phase ι → Prop}
    {f : ℕ → Coroutine α} {phase : Phase ι} (hallowed : P.allowed phase (.get (generationKey collectionId)))
    (herror : ∀ error next, P.answers phase (.get (generationKey collectionId)) (.error error) next → post (.error error) next)
    (hok : ∀ raw next, P.answers phase (.get (generationKey collectionId)) (.ok raw) next →
      ∃ n, CountsAs raw n ∧ P.Ensures post (f n) next) : P.Ensures post (generation collectionId >>= f) phase := by
  rw [generation, Prog.bind_assoc]
  apply Protocol.ensures_call_bind hallowed
  intro reply next hreply
  cases reply with
  | error error => exact herror error next hreply
  | ok raw =>
    obtain ⟨n, hcounts, hrest⟩ := hok raw next hreply
    rcases hcounts with ⟨rfl, rfl⟩ | rfl
    · exact hrest
    · exact hrest

/-- The scan of listed keys: it ends with an answer that it found. -/
theorem ensures_scan (hlooks : use.looksUp = some (agentId, collectionId))
    {start : List ι} {generation : ℕ} {listed found : List String} (embedding : List Float) (keys : List String)
    (bestScore : Float) (bestAnswer : Option String) (hkeys : keys ⊆ listed)
    (hbest : ∀ answer, bestAnswer = some answer → answer ∈ found) :
    (protocol use).Ensures (fun result phase => match result with
      | .error _ => phase ≠ .waiting
      | .ok (_, best) => ∃ found, phase = .looking start generation listed found ∧
        ∀ answer, best = some answer → answer ∈ found)
      (scan embedding keys bestScore bestAnswer) (.looking start generation listed found) := by
  induction keys generalizing bestScore bestAnswer found with
  | nil => exact ⟨found, rfl, hbest⟩
  | cons key rest ih =>
    have hrest := List.cons_subset.mp hkeys
    rw [scan]
    apply Protocol.ensures_call_bind (allowed_of_looksUp hlooks (by exact hrest.1))
    intro reply next hreply
    cases reply with
    | error error =>
      obtain rfl : next = .ended := hreply
      exact fun hwaits => by cases hwaits
    | ok raw =>
      cases raw with
      | none =>
        obtain rfl : next = .looking start generation listed found := hreply
        exact ih bestScore bestAnswer hrest.2 hbest
      | some value =>
        cases value with
        | number n =>
          obtain rfl : next = .looking start generation listed found := hreply
          exact fun hwaits => by cases hwaits
        | payload entry =>
          obtain rfl : next = .looking start generation listed (entry.answer :: found) := hreply
          apply Protocol.ensures_ofExcept_bind
          · intro error herror
            exact fun hwaits => by cases hwaits
          · intro kept hkept
            obtain rfl : entry = kept := Except.ok.inj hkept
            apply Protocol.ensures_ofExcept_bind
            · intro error herror
              exact fun hwaits => by cases hwaits
            · intro score _
              split
              · exact ih score (some entry.answer) hrest.2 fun answer hanswer => by simp [Option.some.inj hanswer]
              · exact ih bestScore bestAnswer hrest.2 fun answer hanswer => List.mem_cons_of_mem _ (hbest answer hanswer)

/-- A lookup keeps to its protocol; a hit is an answer that it found. -/
theorem ensures_lookup (hlooks : use.looksUp = some (agentId, collectionId))
    (cache : SemanticCache) (embedding : List Float) :
    (protocol use : Protocol Call Reply Exc (Phase ι)).Ensures (fun result phase => match result with
      | .error _ => phase ≠ .waiting
      | .ok hit => ∃ start generation listed found, phase = .looking start generation listed found ∧
        ∀ kept, hit = some kept → kept.answer ∈ found)
      (cache.lookup agentId collectionId embedding) .waiting := by
  rw [SemanticCache.lookup]
  apply ensures_generation (allowed_of_looksUp hlooks (by exact rfl))
  · intro error next hnext
    obtain rfl : next = .ended := hnext
    exact fun hwaits => by cases hwaits
  · intro raw next hnext
    obtain ⟨start, generation, rfl, hcounts⟩ := hnext
    refine ⟨generation, hcounts, ?_⟩
    apply Protocol.ensures_call_bind (allowed_of_looksUp hlooks (by exact rfl))
    intro reply next hreply
    cases reply with
    | error error =>
      obtain rfl : next = .ended := hreply
      exact fun hwaits => by cases hwaits
    | ok keys =>
      obtain rfl : next = .looking start generation keys [] := hreply
      apply Protocol.ensures_bind.mpr
      apply (ensures_scan hlooks embedding keys (-1.0) none (List.Subset.refl _) (fun _ hnone => by cases hnone)).mono
      intro result phase hresult
      cases result with
      | error error => exact hresult
      | ok best =>
        obtain ⟨score, best⟩ := best
        obtain ⟨found, rfl, hbest⟩ := hresult
        refine ⟨start, generation, keys, found, rfl, fun kept hkept => ?_⟩
        cases best with
        | none => cases hkept
        | some answer =>
          simp only [hitOf] at hkept
          split at hkept
          · cases hkept
            exact hbest answer rfl
          · cases hkept

/-- The answering of a question keeps to its protocol. -/
theorem ensures_answerQuestion (hlooks : use.looksUp = some (agentId, collectionId))
    {start : List ι} {generation : ℕ} {listed found : List String} (question : String) (embedding : List Float)
    {hit : Option CacheHit} (hhit : ∀ kept, hit = some kept → kept.answer ∈ found) :
    (protocol use).Ensures Ends (answerQuestion agentId collectionId question embedding hit)
      (.looking start generation listed found) := by
  cases hit with
  | some kept =>
    refine ⟨by simp, fun answer hanswer => ⟨start, generation, listed, found, rfl, ?_⟩⟩
    obtain rfl : kept = ⟨answer, true⟩ := Option.some.inj (Except.ok.inj hanswer)
    exact hhit _ rfl
  | none =>
    apply Protocol.ensures_call_bind (allowed_of_looksUp hlooks (by exact rfl))
    intro reply next hreply
    cases reply with
    | error error =>
      obtain rfl : next = .ended := hreply
      exact ends_of_error (by simp)
    | ok content =>
      obtain ⟨read, rfl⟩ := hreply
      apply Protocol.ensures_call_bind (allowed_of_looksUp hlooks (by exact rfl))
      intro reply next hreply
      cases reply with
      | error error =>
        obtain rfl : next = .ended := hreply
        exact ends_of_error (by simp)
      | ok answer =>
        obtain rfl : next = .storing read answer none := hreply
        show Protocol.Ensures _ _ (store agentId collectionId embedding answer defaultTtlSeconds >>= _) _
        rw [store, Prog.bind_assoc]
        apply ensures_generation (allowed_of_looksUp hlooks (by exact rfl))
        · intro error next hnext
          obtain rfl : next = .ended := hnext
          exact ends_of_error (by simp)
        · intro raw next hnext
          obtain ⟨target, rfl, hcounts⟩ := hnext
          refine ⟨target, hcounts, ?_⟩
          rw [Prog.bind_assoc]
          apply Protocol.ensures_call_bind (allowed_of_looksUp hlooks (by exact trivial))
          intro reply next hreply
          cases reply with
          | error error =>
            obtain rfl : next = .ended := hreply
            exact ends_of_error (by simp)
          | ok uuid =>
            obtain rfl : next = .storing read answer (some target) := hreply
            apply Protocol.ensures_call_bind (allowed_of_looksUp hlooks (by exact ⟨rfl, uuid, rfl⟩))
            intro reply next hreply
            cases reply with
            | error error =>
              obtain rfl : next = .ended := hreply
              exact ends_of_error (by simp)
            | ok _ =>
              obtain rfl : next = .storing read answer (some target) := hreply
              refine ⟨by simp, fun other hother => ?_⟩
              cases hother

/-- A use keeps to its protocol. -/
theorem ensures_use (cache : SemanticCache) (use : CacheUse) :
    (protocol use : Protocol Call Reply Exc (Phase ι)).Ensures Ends (use.task cache) .waiting := by
  cases use with
  | lookup agentId collectionId embedding =>
    apply (ensures_lookup rfl cache embedding).mono
    intro result phase hresult
    cases result with
    | error error => exact ends_of_error hresult
    | ok hit =>
      obtain ⟨start, generation, listed, found, rfl, hhit⟩ := hresult
      refine ⟨by simp, fun answer hanswer => ⟨start, generation, listed, found, rfl, ?_⟩⟩
      exact hhit _ (Except.ok.inj hanswer)
  | handle agentId collectionId question embedding =>
    apply Protocol.ensures_bind.mpr
    apply (ensures_lookup rfl cache embedding).mono
    intro result phase hresult
    cases result with
    | error error => exact ends_of_error hresult
    | ok hit =>
      obtain ⟨start, generation, listed, found, rfl, hhit⟩ := hresult
      exact ensures_answerQuestion rfl question embedding hhit
  | invalidateCollection collectionId =>
    show Protocol.Ensures _ _ ((await _ >>= fun _ => (return () : Coroutine Unit)) >>= _) _
    rw [Prog.bind_assoc]
    apply Protocol.ensures_call_bind rfl
    intro reply next hreply
    cases reply with
    | error error =>
      obtain rfl : next = .ended := hreply
      exact ends_of_error (by simp)
    | ok n =>
      obtain rfl : next = .ended := hreply
      refine ⟨by simp, fun answer hanswer => ?_⟩
      cases hanswer
  | expire key =>
    apply Protocol.ensures_call_bind rfl
    intro reply next hreply
    cases reply with
    | error error =>
      obtain rfl : next = .ended := hreply
      exact ends_of_error (by simp)
    | ok _ =>
      obtain rfl : next = .ended := hreply
      refine ⟨by simp, fun answer hanswer => ?_⟩
      cases hanswer

end Programs

/-! ## What holds at the moments of a schedule -/

/-- An answer was generated from content that was read under a generation of a collection. -/
def Kept (schedule : List ι) (scope : Scope) (answer : String) : Prop :=
  ∃ writer read, traffic.GeneratedFrom schedule writer scope.collectionId read answer ∧
    traffic.generationAt read scope.collectionId = scope.generation

/-- Redis holds what was kept, and no generation goes back. -/
structure Sound (schedule : List ι) : Prop where
  holds : (traffic.worldAt schedule).redis.Holds (traffic.Kept schedule)
  generations : ∀ moment, moment <+: schedule → ∀ collectionId,
    traffic.generationAt moment collectionId ≤ traffic.generationAt schedule collectionId

/-- What is known of a task in a phase. -/
def Known (schedule : List ι) (task : ι) : Phase ι → Prop
  | .waiting => task ∉ schedule
  | .looking start generation listed found => ∃ agentId collectionId,
    (traffic.uses task).looksUp = some (agentId, collectionId) ∧ start ++ [task] <+: schedule ∧ task ∉ start ∧
    traffic.generationAt start collectionId = generation ∧
    (∀ key ∈ listed, (∃ uuid, key = Scope.key ⟨agentId, collectionId, generation⟩ uuid) ∨
      ∃ other, key = generationKey other) ∧
    ∀ answer ∈ found, traffic.Kept schedule ⟨agentId, collectionId, generation⟩ answer
  | .answering read content => ∃ agentId collectionId,
    (traffic.uses task).looksUp = some (agentId, collectionId) ∧
    traffic.Made schedule read task (.readContent collectionId) ∧ traffic.contentAt read collectionId = content
  | .storing read answer generation => ∃ agentId collectionId,
    (traffic.uses task).looksUp = some (agentId, collectionId) ∧
    traffic.GeneratedFrom schedule task collectionId read answer ∧
    ∀ g, generation = some g → traffic.generationAt read collectionId = g
  | .ended => True

section Schedule

variable {traffic} {schedule longer : List ι} {task other : ι}

/-- A call was made also in a longer schedule. -/
theorem Made.later {moment : List ι} {c : Call} (h : traffic.Made schedule moment task c) (hlater : schedule <+: longer) :
    traffic.Made longer moment task c :=
  ⟨h.during.trans hlater, h.waits, h.answered⟩

/-- An answer was generated also in a longer schedule. -/
theorem GeneratedFrom.later {collectionId : ℤ} {read : List ι} {answer : String}
    (h : traffic.GeneratedFrom schedule task collectionId read answer) (hlater : schedule <+: longer) :
    traffic.GeneratedFrom longer task collectionId read answer := by
  obtain ⟨hread, question, moment, hmoment, hgenerate, hanswer⟩ := h
  exact ⟨hread.later hlater, question, moment, hmoment, hgenerate.later hlater, hanswer⟩

/-- An answer was kept also in a longer schedule. -/
theorem Kept.later {scope : Scope} {answer : String} (h : traffic.Kept schedule scope answer)
    (hlater : schedule <+: longer) : traffic.Kept longer scope answer := by
  obtain ⟨writer, read, hgenerated, hgeneration⟩ := h
  exact ⟨writer, read, hgenerated.later hlater, hgeneration⟩

/-- What keeps lookups fresh in a schedule does so in its beginning. -/
theorem Careful.earlier (h : traffic.Careful longer) (hlater : schedule <+: longer) : traffic.Careful schedule :=
  ⟨fun task collectionId read moment hread hmoment hget =>
      h.stores task collectionId read moment (hread.later hlater) hmoment (hget.later hlater),
    fun task moment scope hkeys => h.lookups task moment scope (hkeys.later hlater)⟩

/-- What is known of a task that has started, or does not start now, is known later. -/
theorem Known.later {phase : Phase ι} (h : traffic.Known schedule task phase) (hstarted : phase ≠ .waiting ∨ task ≠ other) :
    traffic.Known (schedule ++ [other]) task phase := by
  have hgrow : schedule <+: schedule ++ [other] := List.prefix_append _ _
  cases phase with
  | waiting =>
    have hother : task ≠ other := hstarted.resolve_left fun hne => hne rfl
    have hnew : task ∉ schedule := h
    show task ∉ schedule ++ [other]
    simp [hnew, hother]
  | looking start generation listed found =>
    obtain ⟨agentId, collectionId, hlooks, hstart, hnew, hgeneration, hlisted, hfound⟩ := h
    exact ⟨agentId, collectionId, hlooks, hstart.trans hgrow, hnew, hgeneration, hlisted,
      fun answer hanswer => (hfound answer hanswer).later hgrow⟩
  | answering read content =>
    obtain ⟨agentId, collectionId, hlooks, hread, hcontent⟩ := h
    exact ⟨agentId, collectionId, hlooks, hread.later hgrow, hcontent⟩
  | storing read answer generation =>
    obtain ⟨agentId, collectionId, hlooks, hgenerated, hgeneration⟩ := h
    exact ⟨agentId, collectionId, hlooks, hgenerated.later hgrow, hgeneration⟩
  | ended => trivial

/-- One more step that keeps what Redis holds and the generations. -/
theorem Sound.concat (h : traffic.Sound schedule)
    (hholds : (traffic.worldAt (schedule ++ [task])).redis.Holds (traffic.Kept (schedule ++ [task])))
    (hgenerations : ∀ collectionId,
      traffic.generationAt schedule collectionId ≤ traffic.generationAt (schedule ++ [task]) collectionId) :
    traffic.Sound (schedule ++ [task]) := by
  refine ⟨hholds, fun moment hmoment collectionId => ?_⟩
  rcases List.prefix_concat_iff.mp hmoment with rfl | hbefore
  · exact Nat.le_refl _
  · exact Nat.le_trans (h.generations moment hbefore collectionId) (hgenerations collectionId)

/-- A step that leaves Redis. -/
theorem Sound.concat_same (h : traffic.Sound schedule)
    (hsame : (traffic.worldAt (schedule ++ [task])).redis = (traffic.worldAt schedule).redis) :
    traffic.Sound (schedule ++ [task]) := by
  apply h.concat
  · rw [hsame]
    exact h.holds.mono fun scope answer hkept => hkept.later (List.prefix_append _ _)
  · intro collectionId
    rw [generationAt, generationAt, hsame]

/-- A step of a task that waits is answered. -/
theorem worldAt_concat {c : Call} {next : Except Exc (Reply c) → Coroutine (Option CacheHit)}
    (hrun : traffic.runningAt schedule task = .await c next) :
    traffic.worldAt (schedule ++ [task]) = ((traffic.worldAt schedule).answer traffic.env c).1 := by
  rw [worldAt, Crew.exec_concat, Crew.step_of_await (World.answer traffic.env) hrun]
  rfl

/-- A call that is answered was made. -/
theorem made_concat {c : Call} {next : Except Exc (Reply c) → Coroutine (Option CacheHit)}
    (hrun : traffic.runningAt schedule task = .await c next)
    (hanswered : traffic.env.fault (traffic.worldAt schedule).tick = none) :
    traffic.Made (schedule ++ [task]) schedule task c :=
  ⟨List.prefix_rfl, by rw [callAt, hrun], hanswered⟩

/-- The counter of a collection is read as its generation. -/
theorem Sound.countsAs (h : traffic.Sound schedule) (collectionId : ℤ) :
    CountsAs ((traffic.worldAt schedule).redis.get (generationKey collectionId))
      (traffic.generationAt schedule collectionId) :=
  h.holds.get_generationKey collectionId

/-- A lookup lists keys of its own scope, and counters. -/
theorem Sound.listed (h : traffic.Sound schedule) (hcareful : traffic.Careful longer) {scope : Scope}
    (hmade : traffic.Made longer schedule task (.keys scope.pattern)) {key : String}
    (hkey : key ∈ (traffic.worldAt schedule).redis.rows.map Prod.fst)
    (hmatch : traffic.env.glob.matchesKey scope.pattern key = true) :
    (∃ uuid, key = scope.key uuid) ∨ ∃ collectionId, key = generationKey collectionId := by
  obtain ⟨⟨key', value⟩, hrow, rfl⟩ := List.mem_map.mp hkey
  cases value with
  | number n => exact .inr (h.holds.numbers _ n hrow)
  | payload entry =>
    obtain ⟨other, uuid, rfl, -⟩ := h.holds.payloads _ entry hrow
    by_cases hother : other = scope
    · exact .inl ⟨uuid, by rw [hother]⟩
    · exact absurd ((matchesKey_pattern hother).mp hmatch)
        (hcareful.lookups task schedule scope hmade other uuid entry hrow hother)

/-- An entry under a key that a lookup listed was kept in its scope. -/
theorem Sound.found (h : traffic.Sound schedule) {scope : Scope} {key : String} {entry : Entry}
    (hkey : (∃ uuid, key = scope.key uuid) ∨ ∃ collectionId, key = generationKey collectionId)
    (hget : (traffic.worldAt schedule).redis.get key = some (.payload entry)) : traffic.Kept schedule scope entry.answer := by
  obtain ⟨other, uuid, hother, hkept⟩ := h.holds.payloads _ entry (Redis.get_eq_some.mp hget)
  rcases hkey with ⟨uuid', rfl⟩ | ⟨collectionId, rfl⟩
  · rw [Scope.key_inj hother]
    exact hkept
  · exact absurd hother.symm (other.key_ne_generationKey uuid collectionId)

/-- A call of a lookup, or of what follows it, that is answered: what Redis holds stays sound, and the task is known to have
moved on. -/
theorem step_lookup (hsound : traffic.Sound schedule) (hcareful : traffic.Careful (schedule ++ [task]))
    {agentId : String} {collectionId : ℤ} (hlooks : (traffic.uses task).looksUp = some (agentId, collectionId))
    {phase : Phase ι} (hknown : traffic.Known schedule task phase) {c : Call} (hmade : traffic.Made (schedule ++ [task]) schedule task c)
    (hredis : (traffic.worldAt (schedule ++ [task])).redis = ((traffic.worldAt schedule).respond traffic.env c).1)
    (hcall : LookupCalls agentId collectionId phase c) :
    traffic.Sound (schedule ++ [task]) ∧
      ∃ phase', Advances phase c ((traffic.worldAt schedule).respond traffic.env c).2 phase' ∧
        traffic.Known (schedule ++ [task]) task phase' := by
  have hgrow : schedule <+: schedule ++ [task] := List.prefix_append _ _
  cases phase with
  | waiting =>
    cases c with
    | get key =>
      obtain rfl : key = generationKey collectionId := hcall
      exact ⟨hsound.concat_same hredis, _, ⟨schedule, _, rfl, hsound.countsAs collectionId⟩, agentId, collectionId, hlooks,
        List.prefix_rfl, hknown, rfl, List.forall_mem_nil _, List.forall_mem_nil _⟩
    | _ => exact hcall.elim
  | looking start generation listed found =>
    have hsame := hknown
    obtain ⟨agentId', collectionId', hlooks', hstart, hnew, hgeneration, hlisted, hfound⟩ := hknown
    cases hlooks.symm.trans hlooks'
    have hfound' : ∀ answer ∈ found, traffic.Kept (schedule ++ [task]) ⟨agentId, collectionId, generation⟩ answer :=
      fun answer hanswer => (hfound answer hanswer).later hgrow
    cases c with
    | keys pattern =>
      obtain rfl : pattern = Scope.pattern ⟨agentId, collectionId, generation⟩ := hcall
      refine ⟨hsound.concat_same hredis, _, rfl, agentId, collectionId, hlooks, hstart.trans hgrow, hnew, hgeneration,
        fun key hkey => ?_, hfound'⟩
      rw [traffic.env.mem_order, List.mem_filter] at hkey
      exact hsound.listed hcareful hmade hkey.1 hkey.2
    | get key =>
      have hkey := hlisted key hcall
      refine ⟨hsound.concat_same hredis, ?_⟩
      simp only [World.respond]
      cases hget : (traffic.worldAt schedule).redis.get key with
      | none => exact ⟨_, rfl, hsame.later (.inl (by simp))⟩
      | some value =>
        cases value with
        | number n => exact ⟨_, rfl, hsame.later (.inl (by simp))⟩
        | payload entry =>
          refine ⟨_, rfl, agentId, collectionId, hlooks, hstart.trans hgrow, hnew, hgeneration, hlisted, fun answer hanswer => ?_⟩
          rcases List.mem_cons.mp hanswer with rfl | hanswer
          · exact (hsound.found hkey hget).later hgrow
          · exact hfound' answer hanswer
    | readContent other =>
      obtain rfl : other = collectionId := hcall
      exact ⟨hsound.concat_same hredis, _, ⟨schedule, rfl⟩, agentId, other, hlooks, hmade, rfl⟩
    | _ => exact hcall.elim
  | answering read content =>
    obtain ⟨agentId', collectionId', hlooks', hread, rfl⟩ := hknown
    cases hlooks.symm.trans hlooks'
    cases c with
    | generate question other =>
      obtain rfl : other = traffic.contentAt read collectionId := hcall
      exact ⟨hsound.concat_same hredis, _, rfl, agentId, collectionId, hlooks,
        ⟨hread.later hgrow, question, schedule, hread.during, hmade, rfl⟩, by simp⟩
    | _ => exact hcall.elim
  | storing read answer generation =>
    have hsame := hknown
    obtain ⟨agentId', collectionId', hlooks', hgenerated, hgeneration⟩ := hknown
    cases hlooks.symm.trans hlooks'
    cases c with
    | get key =>
      cases generation with
      | none =>
        obtain rfl : key = generationKey collectionId := hcall
        refine ⟨hsound.concat_same hredis, _, ⟨_, rfl, hsound.countsAs collectionId⟩, agentId, collectionId, hlooks,
          hgenerated.later hgrow, fun g hg => ?_⟩
        cases hg
        exact (hcareful.stores task collectionId read schedule (hgenerated.1.later hgrow) hgenerated.1.during hmade).symm
      | some g => exact hcall.elim
    | uuid4 =>
      cases generation with
      | none => exact hcall.elim
      | some g => exact ⟨hsound.concat_same hredis, _, rfl, hsame.later (.inl (by simp))⟩
    | set key entry ex =>
      cases generation with
      | none => exact hcall.elim
      | some g =>
        obtain ⟨rfl, uuid, rfl⟩ := hcall
        have hholds : (traffic.worldAt schedule).redis.Holds (traffic.Kept (schedule ++ [task])) :=
          hsound.holds.mono fun scope answer hkept => hkept.later hgrow
        refine ⟨hsound.concat ?_ fun other => ?_, _, rfl, hsame.later (.inl (by simp))⟩
        · rw [hredis]
          exact hholds.set ⟨task, read, hgenerated.later hgrow, hgeneration g rfl⟩
        · rw [generationAt, generationAt, hredis]
          exact Nat.le_of_eq (Redis.generationOf_set _ uuid entry other).symm
    | _ => cases generation <;> exact hcall.elim
  | ended => cases c <;> exact hcall.elim

/-- A call of a use: what Redis holds stays sound, and the task is known to have moved on. -/
theorem step_use (hsound : traffic.Sound schedule) (hcareful : traffic.Careful (schedule ++ [task])) {phase : Phase ι}
    (hknown : traffic.Known schedule task phase) {c : Call} {next : Except Exc (Reply c) → Coroutine (Option CacheHit)}
    (hrun : traffic.runningAt schedule task = .await c next) (hcall : UseCalls (traffic.uses task) phase c) :
    traffic.Sound (schedule ++ [task]) ∧
      ∃ phase', Advances phase c ((traffic.worldAt schedule).answer traffic.env c).2 phase' ∧
        traffic.Known (schedule ++ [task]) task phase' := by
  have hworld := worldAt_concat hrun
  cases hfault : traffic.env.fault (traffic.worldAt schedule).tick with
  | some error =>
    have hanswer : (traffic.worldAt schedule).answer traffic.env c =
        (⟨(traffic.worldAt schedule).redis, (traffic.worldAt schedule).tick + 1⟩, .error error) := by
      rw [World.answer, hfault]
    rw [hanswer] at hworld ⊢
    refine ⟨hsound.concat_same (by rw [hworld]), .ended, ?_, trivial⟩
    cases phase <;> rfl
  | none =>
    have hanswer : (traffic.worldAt schedule).answer traffic.env c =
        (⟨((traffic.worldAt schedule).respond traffic.env c).1, (traffic.worldAt schedule).tick + 1⟩,
          ((traffic.worldAt schedule).respond traffic.env c).2) := by
      rw [World.answer, hfault]
    rw [hanswer] at hworld ⊢
    have hredis : (traffic.worldAt (schedule ++ [task])).redis =
        ((traffic.worldAt schedule).respond traffic.env c).1 := by
      rw [hworld]
    have hholds : (traffic.worldAt schedule).redis.Holds (traffic.Kept (schedule ++ [task])) :=
      hsound.holds.mono fun scope answer hkept => hkept.later (List.prefix_append _ _)
    cases huse : traffic.uses task with
    | lookup agentId collectionId embedding =>
      rw [huse] at hcall
      exact step_lookup hsound hcareful (by rw [huse]; rfl) hknown (made_concat hrun hfault) hredis hcall
    | handle agentId collectionId question embedding =>
      rw [huse] at hcall
      exact step_lookup hsound hcareful (by rw [huse]; rfl) hknown (made_concat hrun hfault) hredis hcall
    | invalidateCollection collectionId =>
      rw [huse] at hcall
      cases phase with
      | waiting =>
        cases c with
        | incr key =>
          obtain rfl : key = generationKey collectionId := hcall
          refine ⟨hsound.concat ?_ fun other => ?_, .ended, ?_, trivial⟩
          · rw [hredis]
            exact hholds.incr collectionId
          · rw [generationAt, generationAt, hredis]
            show _ ≤ (Redis.incr _ _).1.generationOf other
            rw [hsound.holds.generationOf_incr]
            split
            · rename_i hsame
              rw [hsame]
              exact Nat.le_succ _
            · exact Nat.le_refl _
          · cases ((traffic.worldAt schedule).respond traffic.env (.incr (generationKey collectionId))).2 <;> rfl
        | _ => exact hcall.elim
      | _ => exact hcall.elim
    | expire key =>
      rw [huse] at hcall
      cases phase with
      | waiting =>
        cases c with
        | expire key' =>
          refine ⟨hsound.concat ?_ fun other => ?_, .ended, rfl, trivial⟩
          · rw [hredis]
            exact hholds.expire key'
          · rw [generationAt, generationAt, hredis]
            exact Nat.le_of_eq (hsound.holds.generationOf_expire key' other).symm
        | _ => exact hcall.elim
      | _ => exact hcall.elim

/-- In a careful schedule what Redis holds is sound, and every task keeps to its protocol. -/
theorem sound_schedule (hcareful : traffic.Careful schedule) : traffic.Sound schedule ∧
    ∀ task, ∃ phase, traffic.Known schedule task phase ∧
      (protocol (traffic.uses task)).Ensures Ends (traffic.runningAt schedule task) phase := by
  apply Crew.exec_ensures (fun task => protocol (traffic.uses task)) (fun _ => Ends) traffic.Careful traffic.Sound
    traffic.Known
  · intro schedule task h
    exact h.earlier (List.prefix_append _ _)
  · refine ⟨Redis.Holds.empty, fun moment hmoment collectionId => ?_⟩
    rw [List.prefix_nil.mp hmoment]
  · intro task
    exact ⟨.waiting, List.not_mem_nil, ensures_use traffic.cache (traffic.uses task)⟩
  · intro schedule task phase c next hcareful hsound hknown hrun hcall
    exact step_use hsound hcareful hknown hrun hcall
  · intro schedule task phase result hsame hsound hknown hends
    have hworld : traffic.worldAt (schedule ++ [task]) = traffic.worldAt schedule := congrArg Crew.shared hsame
    exact ⟨hsound.concat_same (by rw [hworld]), hknown.later (.inl hends.1)⟩
  · intro schedule task other phase hne hknown
    exact hknown.later (.inr hne)
  · exact hcareful

/-- An invalidation counts the generation of its collection up. -/
theorem Made.generationAt_incr {collectionId : ℤ} {moment : List ι}
    (h : traffic.Made schedule moment task (.incr (generationKey collectionId))) (hsound : traffic.Sound moment) :
    traffic.generationAt (moment ++ [task]) collectionId = traffic.generationAt moment collectionId + 1 := by
  have hwaits := h.waits
  rw [callAt] at hwaits
  split at hwaits
  · rename_i c next hrun
    obtain rfl : c = .incr (generationKey collectionId) := Option.some.inj hwaits
    rw [generationAt, worldAt_concat hrun, World.answer, h.answered]
    show (Redis.incr _ _).1.generationOf collectionId = _
    rw [hsound.holds.generationOf_incr, if_pos rfl, generationAt]
  · cases hwaits

variable (traffic schedule)

/-- Questions, lookups, invalidations and expiries, interleaved in any way: while every answer is stored under the
generation under which its content was read, and no lookup lists an entry that is confused with its own, no lookup returns
what is older than an invalidation before its start. -/
theorem fresh_of_careful (hcareful : traffic.Careful schedule) : traffic.Fresh schedule := by
  intro task agentId collectionId answer hlooks hreturns
  obtain ⟨hsound, htasks⟩ := sound_schedule hcareful
  obtain ⟨phase, hknown, hensures⟩ := htasks task
  rw [hreturns] at hensures
  obtain ⟨start, generation, listed, found, rfl, hanswer⟩ := hensures.2 answer rfl
  obtain ⟨agentId', collectionId', hlooks', hstart, hnew, hgeneration, -, hfound⟩ := hknown
  cases hlooks.symm.trans hlooks'
  obtain ⟨writer, read, hgenerated, hkept⟩ := hfound answer hanswer
  refine ⟨writer, read, hgenerated, fun moment invalidator hmade hbefore => ?_⟩
  rw [startOf_eq hstart hnew] at hbefore
  -- The invalidation counts the generation up, and the content was read under the generation of the start.
  have hsoundAt : ∀ earlier, earlier <+: schedule → traffic.Sound earlier := fun earlier hearlier =>
    (sound_schedule (hcareful.earlier hearlier)).1
  have hmoment : moment <+: schedule := (List.prefix_append _ _).trans hmade.during
  have hread : read <+: schedule := (List.prefix_append _ _).trans hgenerated.1.during
  have hup : traffic.generationAt moment collectionId < traffic.generationAt read collectionId := by
    have hcount := hmade.generationAt_incr (hsoundAt moment hmoment)
    have hlater := (hsoundAt start ((List.prefix_append _ _).trans hstart)).generations _ hbefore collectionId
    have hsame : traffic.generationAt read collectionId = traffic.generationAt start collectionId :=
      hkept.trans hgeneration.symm
    omega
  rcases List.prefix_or_prefix_of_prefix hread hmade.during with hearly | hlate
  · rcases List.prefix_concat_iff.mp hearly with hsame | hearly
    · exact hsame ▸ List.prefix_rfl
    · have hdown := (hsoundAt moment hmoment).generations read hearly collectionId
      omega
  · exact hlate

end Schedule

end Traffic

/-! ## An answer that is stored late -/

/-- A question, an invalidation of its collection and a lookup. -/
def lateTraffic : Traffic (Fin 3) where
  env := quietEnv
  cache := ⟨0.95⟩
  uses
    | 0 => .handle "support" 1 "What is the fee?" [1]
    | 1 => .invalidateCollection 1
    | 2 => .lookup "support" 1 [1]

/-- The content is read, the collection is invalidated, and the answer is generated and stored; then the lookup starts. -/
def lateSchedule : List (Fin 3) := [0, 0, 0, 1, 0, 0, 0, 0, 2, 2, 2]

/-- The value that a coroutine ended with. -/
def valueOf : Coroutine (Option CacheHit) → Option (Option CacheHit)
  | .done value => some value
  | _ => none

/-- The call that is made at a position of a schedule. -/
def callNumber (schedule : List (Fin 3)) (n : ℕ) : Option Call :=
  schedule[n]?.bind fun task => lateTraffic.callAt (schedule.take n) task

/-- The collection whose content is read by a call. -/
def readsContent : Option Call → Option ℤ
  | some (.readContent collectionId) => some collectionId
  | _ => none

/-- The pattern that is listed by a call. -/
def listsKeys : Option Call → Option String
  | some (.keys pattern) => some pattern
  | _ => none

/-- A call that was made has its number. -/
theorem callNumber_of_made {schedule moment : List (Fin 3)} {task : Fin 3} {c : Call}
    (h : lateTraffic.Made schedule moment task c) :
    callNumber schedule moment.length = some c ∧ schedule.take moment.length = moment ∧ moment.length < schedule.length := by
  obtain ⟨rest, rfl⟩ := h.during
  refine ⟨?_, by simp, by simp⟩
  simp [callNumber, h.waits]

/-- The lookup returns what was generated from the content before the invalidation. -/
theorem not_fresh_late : ¬ lateTraffic.Fresh lateSchedule := by
  intro h
  have hvalue : valueOf (lateTraffic.runningAt lateSchedule 2) = some (some ⟨"The fee is 10.", true⟩) := by
    decide +kernel
  have hreturns : lateTraffic.runningAt lateSchedule 2 = .done (some ⟨"The fee is 10.", true⟩) := by
    cases hrun : lateTraffic.runningAt lateSchedule 2 with
    | done value =>
      rw [hrun] at hvalue
      exact congrArg _ (Option.some.inj hvalue)
    | raise error =>
      rw [hrun] at hvalue
      cases hvalue
    | await c next =>
      rw [hrun] at hvalue
      cases hvalue
  obtain ⟨writer, read, ⟨hread, -⟩, hlate⟩ := h 2 "support" 1 "The fee is 10." rfl hreturns
  have hafter : [0, 0, 0, 1] <+: read := by
    apply hlate [0, 0, 0] 1 ⟨by decide, rfl, rfl⟩
    decide
  -- No content is read after the invalidation.
  have hnone : ∀ n < lateSchedule.length, 4 ≤ n → readsContent (callNumber lateSchedule n) = none := by
    decide
  obtain ⟨hcall, -, hlength⟩ := callNumber_of_made hread
  have hreads := hnone read.length hlength hafter.length_le
  rw [hcall] at hreads
  cases hreads

/-- The invalidation comes first, and the answer is stored before the lookup starts. -/
def earlySchedule : List (Fin 3) := [1, 0, 0, 0, 0, 0, 0, 0, 2, 2, 2]

/-- In the early schedule the generation of the content is that of the answer, and there is one scope. -/
theorem careful_early : lateTraffic.Careful earlySchedule := by
  constructor
  · intro task collectionId read moment hread hmoment hget
    have hcollections : ∀ n < earlySchedule.length, ∀ collectionId ∈ readsContent (callNumber earlySchedule n),
        collectionId = 1 ∧ 1 ≤ n := by
      decide
    have hgenerations : ∀ n ≤ earlySchedule.length, 1 ≤ n →
        lateTraffic.generationAt (earlySchedule.take n) 1 = 1 := by
      decide
    obtain ⟨hcall, htake, hlength⟩ := callNumber_of_made hread
    obtain ⟨-, htake', hlength'⟩ := callNumber_of_made hget
    obtain ⟨rfl, hpositive⟩ := hcollections read.length hlength collectionId (by rw [hcall]; rfl)
    have hlonger : 1 ≤ moment.length := Nat.le_trans hpositive ((List.prefix_append _ _).trans hmoment).length_le
    rw [← htake, ← htake', hgenerations _ (Nat.le_of_lt hlength) hpositive,
      hgenerations _ (Nat.le_of_lt hlength') hlonger]
  · intro task moment scope hkeys other uuid entry hrow hother
    have hkeysAt : ∀ n < earlySchedule.length, ∀ pattern ∈ listsKeys (callNumber earlySchedule n),
        pattern = Scope.pattern ⟨"support", 1, 1⟩ := by
      decide
    have hrows : ∀ n < earlySchedule.length, ∀ key ∈ (lateTraffic.worldAt (earlySchedule.take n)).redis.rows.map Prod.fst,
        key = generationKey 1 ∨ key = Scope.key ⟨"support", 1, 1⟩ (quietEnv.uuid 0) := by
      decide
    obtain ⟨hcall, htake, hlength⟩ := callNumber_of_made hkeys
    have hscope := Scope.pattern_inj (hkeysAt moment.length hlength scope.pattern (by rw [hcall]; rfl))
    rw [← htake] at hrow
    rcases hrows moment.length hlength _ (List.mem_map.mpr ⟨_, hrow, rfl⟩) with hkey | hkey
    · exact absurd hkey (other.key_ne_generationKey uuid 1)
    · exact absurd ((Scope.key_inj hkey).trans hscope.symm) hother

/-- After the invalidation the lookup returns what was generated from content that was read after it. -/
theorem fresh_of_careful_early : lateTraffic.Fresh earlySchedule := lateTraffic.fresh_of_careful earlySchedule careful_early

end FleetWorkflow.Semantic
